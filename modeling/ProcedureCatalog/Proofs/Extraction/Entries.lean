/-
# The entries of an extraction

Where the text of an entry comes from: one of the two passes over the source, which give the
normal form of a collapsed text, or the name alone.

* `isFaithful_extract` : every entry holds a text that its strategy can give to its name.
* `Strategy.CanGive.not_allBlank` : such a text is not blank.
* `IsFromSource.isSingleLine` : a text from the source is a single line within the limit.
-/
import ProcedureCatalog.Proofs.Description.NormalForm
import ProcedureCatalog.Proofs.Extraction.Passes
import ProcedureCatalog.Proofs.Inference.Letters

namespace ProcedureCatalog

open Text

/-! ## What a strategy can give -/

/-- The text is the normal form of a collapsed text, and not empty. -/
def IsFromSource (text : String) : Prop :=
  ∃ raw : List Char, text = .ofList (Description.normalizeChars (collapse raw)) ∧ text ≠ ""

/-- The strategy can give the text to the name. -/
def Strategy.CanGive : Strategy → (name text : String) → Prop
  | .inlineLabel, _, text => IsFromSource text
  | .blockHeader, _, text => IsFromSource text
  | .nameInference, name, text => Inference.infer name = some text

/-- A candidate holds what its strategy can give to its name. -/
def Candidate.IsFaithful (c : Candidate) : Prop := c.strategy.CanGive c.name c.description

theorem Label.isFaithful_of_candidate? {expected : ExpectedNames} {lines : List (List Char)}
    {resolved : List String} {index : Nat} {line : List Char} {c : Candidate}
    (h : candidate? expected lines resolved index line = some c) : c.IsFaithful := by
  obtain ⟨content, own, -, -, hne, hc⟩ := candidate?_eq_some h
  rw [hc] at hne ⊢
  exact ⟨_, rfl, hne⟩

theorem Declaration.isFaithful_of_candidate? {expected : ExpectedNames}
    {lines : List (List Char)} {resolved : List String} {index : Nat} {line : List Char}
    {c : Candidate} (h : candidate? expected lines resolved index line = some c) :
    c.IsFaithful := by
  obtain ⟨-, -, hne, hc⟩ := candidate?_eq_some h
  rw [hc] at hne ⊢
  exact ⟨_, rfl, hne⟩

/-! ## The passes -/

theorem Label.isFaithful_of_mem_collectFrom {expected : ExpectedNames}
    {lines remaining : List (List Char)} {resolved : List String} {index : Nat} {c : Candidate}
    (h : c ∈ collectFrom expected lines resolved index remaining) : c.IsFaithful := by
  rw [collectFrom_eq_scan] at h
  obtain ⟨offset, line, known, -, hfind, -⟩ := mem_scan h
  exact isFaithful_of_candidate? hfind

theorem Declaration.isFaithful_of_mem_collectFrom {expected : ExpectedNames}
    {lines remaining : List (List Char)} {resolved : List String} {index : Nat} {c : Candidate}
    (h : c ∈ collectFrom expected lines resolved index remaining) : c.IsFaithful := by
  rw [collectFrom_eq_scan] at h
  obtain ⟨offset, line, known, -, hfind, -⟩ := mem_scan h
  exact isFaithful_of_candidate? hfind

theorem Inference.isFaithful_of_mem_collect {expected : ExpectedNames} {c : Candidate}
    (h : c ∈ collect expected) : c.IsFaithful := by
  obtain ⟨name, -, hname⟩ := List.mem_filterMap.1 h
  obtain ⟨text, htext, rfl⟩ := Option.map_eq_some_iff.1 hname
  exact htext

/-- Every strategy proposes faithful candidates. -/
theorem Strategy.isFaithful_of_mem_propose {expected : ExpectedNames} {lines : List (List Char)}
    {s : Strategy} {c : Candidate} (h : c ∈ s.propose expected lines) : c.IsFaithful := by
  cases s with
  | inlineLabel => exact Label.isFaithful_of_mem_collectFrom h
  | blockHeader => exact Declaration.isFaithful_of_mem_collectFrom h
  | nameInference => exact Inference.isFaithful_of_mem_collect h

/-! ## Merging -/

namespace ExtractionResult

/-- Every entry holds a text that its strategy can give to its name. -/
def IsFaithful (result : ExtractionResult) : Prop :=
  ∀ entry ∈ result.entries, entry.2.strategy.CanGive entry.1 entry.2.text

theorem mem_insertEntry {name : String} {found : FoundDescription}
    {entries : List (String × FoundDescription)} {entry : String × FoundDescription}
    (h : entry ∈ insertEntry name found entries) : entry = (name, found) ∨ entry ∈ entries := by
  induction entries with
  | nil => exact .inl (by simpa [insertEntry] using h)
  | cons first entries ih =>
    unfold insertEntry at h
    split at h
    · exact List.mem_cons.1 h
    · split at h
      · exact .inr h
      · rcases List.mem_cons.1 h with rfl | h
        · exact .inr List.mem_cons_self
        · exact (ih h).imp_right (List.mem_cons_of_mem _)

/-- Merging faithful candidates keeps a result faithful. -/
theorem IsFaithful.insertAll {result : ExtractionResult} {candidates : List Candidate}
    (h : result.IsFaithful) (hc : ∀ c ∈ candidates, c.IsFaithful) :
    (result.insertAll candidates).IsFaithful := by
  induction candidates generalizing result with
  | nil => exact h
  | cons c candidates ih =>
    refine ih (fun entry hentry => ?_) fun d hd => hc d (List.mem_cons_of_mem _ hd)
    rcases mem_insertEntry hentry with rfl | hentry
    · exact hc c List.mem_cons_self
    · exact h entry hentry

/-- A description that is looked up is an entry. -/
theorem mem_entries_of_get? {result : ExtractionResult} {name : String} {found : FoundDescription}
    (h : result.get? name = some found) : (name, found) ∈ result.entries := by
  obtain ⟨before, after, heq, -⟩ := List.lookup_eq_some_iff.1 h
  rw [heq]
  simp

end ExtractionResult

/-- An extraction is faithful, whatever the names, the source and the strategies. -/
theorem isFaithful_extract (expected : ExpectedNames) (strategies : List Strategy)
    (source : String) : (extract expected strategies source).IsFaithful := by
  -- from any faithful result on, because each strategy goes on with what the ones before found
  have hfold : ∀ (result : ExtractionResult), result.IsFaithful → (strategies.foldl
      (fun result s => result.insertAll (s.propose expected (lines source.toList)))
      result).IsFaithful := by
    induction strategies with
    | nil => exact fun _ h => h
    | cons s strategies ih =>
      intro result h
      exact ih _ (h.insertAll fun c hc => Strategy.isFaithful_of_mem_propose hc)
  exact hfold .empty (by simp [ExtractionResult.IsFaithful, ExtractionResult.empty])

/-- A faithful result gives a name what some strategy can give to it. -/
theorem ExtractionResult.IsFaithful.canGive_of_get? {result : ExtractionResult}
    (h : result.IsFaithful) {name : String} {found : FoundDescription}
    (hget : result.get? name = some found) : found.strategy.CanGive name found.text :=
  h _ (mem_entries_of_get? hget)

/-! ## The texts -/

/-- A text from the source has at most `limit` characters and no line feed. -/
theorem IsFromSource.isSingleLine {text : String} (h : IsFromSource text) :
    text.toList.length ≤ Description.limit ∧ '\n' ∉ text.toList := by
  obtain ⟨raw, rfl, -⟩ := h
  rw [String.toList_ofList]
  refine ⟨Description.length_normalizeChars_le _, ?_⟩
  rcases Description.normalizeChars_eq_or (collapse raw) with ⟨heq, -, -⟩ | heq
  · rw [heq]; exact newline_notMem_collapse raw
  · rw [heq]; exact Description.newline_notMem_condense _

/-- A text from the source does not start with a blank. -/
theorem IsFromSource.not_allBlank {text : String} (h : IsFromSource text) :
    allBlank text.toList = false := by
  obtain ⟨raw, rfl, hne⟩ := h
  rw [String.toList_ofList]
  refine allBlank_eq_false_of_head? (fun hnil => hne (by rw [hnil])) ?_
  exact Description.head?_normalizeChars_eq_false (head?_collapse_eq_false raw)

/-- What a strategy gives is not blank. -/
theorem Strategy.CanGive.not_allBlank {s : Strategy} {name text : String}
    (h : s.CanGive name text) : allBlank text.toList = false := by
  cases s with
  | inlineLabel => exact IsFromSource.not_allBlank h
  | blockHeader => exact IsFromSource.not_allBlank h
  | nameInference => exact Inference.not_allBlank_of_infer h

end ProcedureCatalog
