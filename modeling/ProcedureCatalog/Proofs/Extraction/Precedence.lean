/-
# Precedence of the strategies

Each strategy proposes its candidates without regard to the others, at most one for each name, and
an extraction keeps for a name what the first strategy proposes for it.

* `ExtractionResult.Sorted.get?_insertAll` : merging candidates answers for a name as before, or
  else with the first candidate of the name.
* `get?_extract` : what an extraction has for a name, by the strategies on their own.
* `ExtractionResult.Sorted.ext` : a result is known by what it answers.
* `first_strategy_wins` : the strategies of an extraction, for every list of them.
-/
import Mathlib.Data.List.Lex
import Mathlib.Data.List.Perm.Subperm
import Mathlib.Data.List.Sort
import Mathlib.Data.String.Basic
import ProcedureCatalog.Proofs.Extraction.Entries
import ProcedureCatalog.Proofs.Extraction.Spans

namespace ProcedureCatalog

open Text

/-- The description that a candidate brings, without the name. -/
def Candidate.found (c : Candidate) : FoundDescription := ⟨c.description, c.strategy, c.line⟩

namespace ExtractionResult

/-! ## Results in order -/

/-- The names of the entries rise. -/
def Sorted (result : ExtractionResult) : Prop := result.entries.Pairwise fun a b => a.1 < b.1

variable {result result' : ExtractionResult} {name : String}

theorem sorted_empty : Sorted empty := List.Pairwise.nil

/-- An entry is what the result answers for its name. -/
theorem Sorted.mem_entries_iff (h : result.Sorted) {found : FoundDescription} :
    (name, found) ∈ result.entries ↔ result.get? name = some found := by
  refine ⟨fun hmem => ?_, mem_entries_of_get?⟩
  obtain ⟨before, after, heq⟩ := List.append_of_mem hmem
  refine List.lookup_eq_some_iff.2 ⟨before, after, heq, ?_⟩
  intro entry hentry
  have hlt : entry.1 < name := by
    have hsorted := h
    rw [Sorted, heq] at hsorted
    exact (List.pairwise_append.1 hsorted).2.2 entry hentry _ List.mem_cons_self
  simpa using (ne_of_lt hlt).symm

/-- Results in order are equal when they answer the same for every name. -/
theorem Sorted.ext (h : result.Sorted) (h' : result'.Sorted)
    (hget : ∀ name, result.get? name = result'.get? name) : result = result' := by
  have hirrefl : Std.Irrefl fun a b : String × FoundDescription => a.1 < b.1 :=
    ⟨fun a => lt_irrefl a.1⟩
  have hantisymm : Std.Antisymm fun a b : String × FoundDescription => a.1 < b.1 :=
    ⟨fun a b hab hba => absurd (lt_trans hab hba) (lt_irrefl a.1)⟩
  have hentries : result.entries = result'.entries := by
    refine List.Pairwise.eq_of_mem_iff h h' ?_
    rintro ⟨name, found⟩
    rw [h.mem_entries_iff, h'.mem_entries_iff, hget]
  cases result
  cases result'
  exact congrArg mk hentries

/-- A result in order has no more entries than there are names, when all its names are among
them. -/
theorem Sorted.size_le (h : result.Sorted) {names : List String}
    (hnames : ∀ entry ∈ result.entries, entry.1 ∈ names) : result.size ≤ names.length := by
  have hnodup : (result.entries.map Prod.fst).Nodup :=
    List.pairwise_map.2 (h.imp fun hlt => ne_of_lt hlt)
  have hsub : result.entries.map Prod.fst ⊆ names := by
    intro name hname
    obtain ⟨entry, hentry, rfl⟩ := List.mem_map.1 hname
    exact hnames entry hentry
  have hle := (hnodup.subperm hsub).length_le
  rwa [List.length_map] at hle

/-! ## Merging candidates -/

/-- An entry that is inserted keeps the names in rising order. -/
theorem pairwise_insertEntry {entries : List (String × FoundDescription)}
    (h : entries.Pairwise fun a b => a.1 < b.1) (found : FoundDescription) :
    (insertEntry name found entries).Pairwise fun a b => a.1 < b.1 := by
  induction entries with
  | nil => exact List.pairwise_singleton _ _
  | cons first entries ih =>
    obtain ⟨hfirst, hentries⟩ := List.pairwise_cons.1 h
    unfold insertEntry
    split
    · next hlt =>
      refine List.Pairwise.cons (fun entry hentry => ?_) h
      rcases List.mem_cons.1 hentry with rfl | hentry
      · exact hlt
      · exact lt_trans hlt (hfirst entry hentry)
    · next hnlt =>
      split
      · exact h
      · next hne =>
        have hlt : first.1 < name := lt_of_le_of_ne (not_lt.1 hnlt) (Ne.symm hne)
        refine List.Pairwise.cons (fun entry hentry => ?_) (ih hentries)
        rcases mem_insertEntry hentry with rfl | hentry
        · exact hlt
        · exact hfirst entry hentry

/-- After an insertion the entries answer as before, and for the new name if they did not. -/
theorem lookup_insertEntry {entries : List (String × FoundDescription)}
    (h : entries.Pairwise fun a b => a.1 < b.1) (found : FoundDescription) (other : String) :
    (insertEntry name found entries).lookup other =
      (entries.lookup other).or (if name = other then some found else none) := by
  induction entries with
  | nil =>
    by_cases heq : name = other
    · simp [insertEntry, heq]
    · simp [insertEntry, List.lookup_cons, heq, beq_false_of_ne (Ne.symm heq)]
  | cons first entries ih =>
    obtain ⟨hfirst, hentries⟩ := List.pairwise_cons.1 h
    unfold insertEntry
    split
    · next hlt =>
      by_cases heq : name = other
      · -- all names that are there are above the new one
        have habsent : (first :: entries).lookup other = none := by
          rw [List.lookup_eq_none_iff]
          intro entry hentry
          have hbelow : other < entry.1 := by
            rcases List.mem_cons.1 hentry with rfl | hentry
            · exact heq ▸ hlt
            · exact heq ▸ lt_trans hlt (hfirst entry hentry)
          simpa using ne_of_lt hbelow
        rw [habsent, if_pos heq, heq, Option.none_or, List.lookup_cons_self]
      · rw [if_neg heq, Option.or_none, List.lookup_cons, beq_false_of_ne (Ne.symm heq)]
    · split
      · next heq =>
        by_cases hother : name = other
        · rw [List.lookup_cons, ← heq, hother, beq_self_eq_true, Option.some_or]
        · rw [if_neg hother, Option.or_none]
      · rw [List.lookup_cons, List.lookup_cons, ih hentries]
        cases other == first.1 with
        | true => rfl
        | false => rfl

theorem Sorted.insertIfAbsent (h : result.Sorted) (c : Candidate) :
    (result.insertIfAbsent c).Sorted :=
  pairwise_insertEntry h _

theorem Sorted.insertAll (h : result.Sorted) (candidates : List Candidate) :
    (result.insertAll candidates).Sorted := by
  induction candidates generalizing result with
  | nil => exact h
  | cons c candidates ih => exact ih (h.insertIfAbsent c)

/-- Merging candidates answers for a name as before, or else with the first candidate of the
name. -/
theorem Sorted.get?_insertAll (h : result.Sorted) (candidates : List Candidate) (name : String) :
    (result.insertAll candidates).get? name =
      (result.get? name).or ((candidates.find? (·.name == name)).map Candidate.found) := by
  induction candidates generalizing result with
  | nil => rw [List.find?_nil, Option.map_none, Option.or_none]; rfl
  | cons c candidates ih =>
    have hone : (result.insertIfAbsent c).get? name =
        (result.get? name).or (if c.name = name then some c.found else none) :=
      lookup_insertEntry h c.found name
    have hstep : (result.insertAll (c :: candidates)).get? name =
        ((result.insertIfAbsent c).insertAll candidates).get? name := rfl
    rw [hstep, ih (h.insertIfAbsent c), hone, Option.or_assoc, List.find?_cons]
    by_cases heq : c.name = name
    · rw [if_pos heq, beq_iff_eq.2 heq, Option.some_or, Option.map_some]
    · rw [if_neg heq, beq_false_of_ne heq, Option.none_or]

end ExtractionResult

/-! ## What a strategy proposes -/

/-- A name that resolves is an expected one. -/
theorem ExpectedNames.mem_names_of_resolve? {expected : ExpectedNames} {declared : List Char}
    {name : String} (h : expected.resolve? declared = some name) : name ∈ expected.names := by
  unfold resolve? at h
  split at h
  · simp at h
  · split at h
    · next hfind =>
      rw [← Option.some.inj h]
      exact List.mem_of_find?_eq_some hfind
    · exact List.mem_of_find?_eq_some h

/-- A declared name is an expected one. -/
theorem Declaration.mem_names_of_declared? {expected : ExpectedNames} {line : List Char}
    {name : String} (h : declared? expected line = some name) : name ∈ expected.names := by
  unfold declared? at h
  split at h
  · obtain ⟨head, -, hhead⟩ := Option.bind_eq_some_iff.1 h
    unfold resolveHead? at hhead
    split at hhead
    · exact ExpectedNames.mem_names_of_resolve? hhead
    · rcases Option.or_eq_some_iff.1 hhead with hfixed | ⟨-, hloose⟩
      · obtain ⟨declared, -, hdeclared⟩ := Option.bind_eq_some_iff.1 hfixed
        exact ExpectedNames.mem_names_of_resolve? hdeclared
      · obtain ⟨declared, -, hdeclared⟩ := Option.bind_eq_some_iff.1 hloose
        exact ExpectedNames.mem_names_of_resolve? hdeclared
  · simp at h

namespace Strategy

variable {expected : ExpectedNames} {lines : List (List Char)} {s : Strategy}

/-- Candidates are proposed for expected names. -/
theorem mem_names_of_mem_propose {c : Candidate} (h : c ∈ s.propose expected lines) :
    c.name ∈ expected.names := by
  cases s with
  | inlineLabel =>
    rw [propose, Label.collect, Label.collectFrom_eq_scan] at h
    obtain ⟨_, _, _, -, hfind, -⟩ := mem_scan h
    obtain ⟨_, _, -, hmatch, -⟩ := Label.candidate?_eq_some hfind
    exact (Label.match?_eq_some hmatch).1
  | blockHeader =>
    rw [propose, Declaration.collect, Declaration.collectFrom_eq_scan] at h
    obtain ⟨_, _, _, -, hfind, -⟩ := mem_scan h
    exact Declaration.mem_names_of_declared? (Declaration.candidate?_eq_some hfind).1
  | nameInference =>
    obtain ⟨name, hname, hinfer⟩ := List.mem_filterMap.1 h
    obtain ⟨text, -, rfl⟩ := Option.map_eq_some_iff.1 hinfer
    exact hname

/-- A strategy proposes a name at most once. -/
theorem pairwise_propose (expected : ExpectedNames) (lines : List (List Char)) (s : Strategy) :
    (s.propose expected lines).Pairwise fun c d => c.name ≠ d.name := by
  cases s with
  | inlineLabel => exact (Label.isSeparate_collect expected lines).distinct
  | blockHeader => exact (Declaration.isSeparate_collect expected lines).distinct
  | nameInference =>
    refine List.Pairwise.filterMap _ ?_ expected.distinct
    intro name other hdiffer c hc d hd heq
    obtain ⟨_, -, rfl⟩ := Option.map_eq_some_iff.1 hc
    obtain ⟨_, -, rfl⟩ := Option.map_eq_some_iff.1 hd
    -- two expected names differ, and in more than case
    have hne : sameName name other = true := by
      rw [show name = other from heq]
      exact Text.sameLetters_iff.2 rfl
    rw [hdiffer] at hne
    exact Bool.noConfusion hne

/-- What the strategy proposes for a name. -/
def proposal? (expected : ExpectedNames) (lines : List (List Char)) (name : String)
    (s : Strategy) : Option Candidate :=
  (s.propose expected lines).find? (·.name == name)

theorem proposal?_eq_none_iff {name : String} :
    s.proposal? expected lines name = none ↔ ∀ c ∈ s.propose expected lines, c.name ≠ name := by
  simp [proposal?]

/-- Of the candidates of a strategy, the one with the name is what it proposes for the name. -/
theorem proposal?_eq_some_iff {name : String} {c : Candidate} :
    s.proposal? expected lines name = some c ↔ c ∈ s.propose expected lines ∧ c.name = name := by
  constructor
  · intro h
    exact ⟨List.mem_of_find?_eq_some h, by simpa using List.find?_some h⟩
  · rintro ⟨hmem, hname⟩
    obtain ⟨before, after, heq⟩ := List.append_of_mem hmem
    refine List.find?_eq_some_iff_append.2 ⟨beq_iff_eq.2 hname, before, after, heq, ?_⟩
    intro d hd
    have hdistinct := pairwise_propose expected lines s
    rw [heq] at hdistinct
    have hne := (List.pairwise_append.1 hdistinct).2.2 d hd c List.mem_cons_self
    rw [beq_false_of_ne (hname ▸ hne)]
    rfl

end Strategy

/-! ## What an extraction keeps -/

variable {expected : ExpectedNames} {strategies : List Strategy} {source : String}

theorem extract_append (expected : ExpectedNames) (strategies more : List Strategy)
    (source : String) : extract expected (strategies ++ more) source =
      more.foldl (fun result s => result.insertAll (s.propose expected (lines source.toList)))
        (extract expected strategies source) := by
  rw [extract, List.foldl_append]
  rfl

/-- What an extraction has for a name: the proposal of the first strategy that has one. An entry
that is there is never replaced, so each strategy counts as if it ran on its own. -/
theorem sorted_extract_and_get? (expected : ExpectedNames) (strategies : List Strategy)
    (source : String) : (extract expected strategies source).Sorted ∧
      ∀ name, (extract expected strategies source).get? name =
        (strategies.findSome? (·.proposal? expected (lines source.toList) name)).map
          Candidate.found := by
  induction strategies using List.reverseRecOn with
  | nil => exact ⟨ExtractionResult.sorted_empty, fun _ => rfl⟩
  | append_singleton strategies s ih =>
    obtain ⟨hsorted, hget⟩ := ih
    rw [extract_append, List.foldl_cons, List.foldl_nil]
    refine ⟨hsorted.insertAll _, fun name => ?_⟩
    rw [hsorted.get?_insertAll, hget, List.findSome?_append, List.findSome?_singleton,
      Option.map_or]
    rfl

theorem sorted_extract (expected : ExpectedNames) (strategies : List Strategy) (source : String) :
    (extract expected strategies source).Sorted :=
  (sorted_extract_and_get? expected strategies source).1

theorem get?_extract (expected : ExpectedNames) (strategies : List Strategy) (source : String)
    (name : String) : (extract expected strategies source).get? name =
      (strategies.findSome? (·.proposal? expected (lines source.toList) name)).map
        Candidate.found :=
  (sorted_extract_and_get? expected strategies source).2 name

/-- A name that is described is an expected one, in its stored spelling. -/
theorem mem_names_of_mem_extract {entry : String × FoundDescription}
    (h : entry ∈ (extract expected strategies source).entries) : entry.1 ∈ expected.names := by
  obtain ⟨name, found⟩ := entry
  rw [(sorted_extract _ _ _).mem_entries_iff, get?_extract] at h
  obtain ⟨c, hc, -⟩ := Option.map_eq_some_iff.1 h
  obtain ⟨s, -, hs⟩ := List.exists_of_findSome?_eq_some hc
  obtain ⟨hmem, rfl⟩ := Strategy.proposal?_eq_some_iff.1 hs
  exact Strategy.mem_names_of_mem_propose hmem

/-- The candidate is proposed for the name by one of the strategies, and none before that one
proposes any. -/
def IsFirstProposal (expected : ExpectedNames) (lines : List (List Char))
    (strategies : List Strategy) (name : String) (c : Candidate) : Prop :=
  ∃ before s after, strategies = before ++ s :: after ∧
    c ∈ s.propose expected lines ∧ c.name = name ∧
    ∀ t ∈ before, ∀ d ∈ t.propose expected lines, d.name ≠ name

theorem isFirstProposal_iff {lines : List (List Char)} {name : String} {c : Candidate} :
    IsFirstProposal expected lines strategies name c ↔
      strategies.findSome? (·.proposal? expected lines name) = some c := by
  simp only [List.findSome?_eq_some_iff, IsFirstProposal, Strategy.proposal?_eq_some_iff,
    Strategy.proposal?_eq_none_iff, and_assoc]

/-- A strategy that comes a second time proposes nothing new. -/
theorem findSome?_of_mem {before after : List Strategy} {s : Strategy} (h : s ∈ before)
    (f : Strategy → Option Candidate) :
    (before ++ s :: after).findSome? f = (before ++ after).findSome? f := by
  rw [List.findSome?_append, List.findSome?_append, List.findSome?_cons]
  cases hbefore : before.findSome? f with
  | some c => rfl
  | none => rw [List.findSome?_eq_none_iff.1 hbefore s h]

/-- The later repetitions of strategies propose nothing new. -/
theorem findSome?_eraseDups (strategies : List Strategy) (f : Strategy → Option Candidate) :
    strategies.eraseDups.findSome? f = strategies.findSome? f := by
  induction strategies using List.reverseRecOn with
  | nil => rfl
  | append_singleton strategies s ih =>
    rw [List.eraseDups_append, List.findSome?_append, ih]
    by_cases h : s ∈ strategies
    · have hnone : [s].removeAll strategies = [] := by simp [List.removeAll, h]
      rw [hnone, findSome?_of_mem h, List.append_nil]
      exact Option.or_none
    · have hall : [s].removeAll strategies = [s] := by simp [List.removeAll, h]
      rw [hall, List.findSome?_append]
      rfl

/-- **The first strategy wins, later ones only add.** For every source, all expected names and every
list of strategies: all names that are described are expected ones, so there are no more of them
than those; each strategy proposes a name at most once, and a name is described by the proposal of
the first strategy that has one for it, if any has; more strategies behind the others leave all
entries as they are; and any or all of the strategies that come a second time may be left out. -/
theorem first_strategy_wins (expected : ExpectedNames) (strategies : List Strategy)
    (source : String) :
    ((∀ entry ∈ (extract expected strategies source).entries, entry.1 ∈ expected.names) ∧
        (extract expected strategies source).size ≤ expected.names.length) ∧
      (∀ s : Strategy, (s.propose expected (lines source.toList)).Pairwise fun c d =>
        c.name ≠ d.name) ∧
      (∀ name found, (extract expected strategies source).get? name = some found ↔
        ∃ c, IsFirstProposal expected (lines source.toList) strategies name c ∧
          c.found = found) ∧
      (∀ name, (extract expected strategies source).get? name = none ↔
        ∀ s ∈ strategies, ∀ c ∈ s.propose expected (lines source.toList), c.name ≠ name) ∧
      (∀ more, ∀ entry ∈ (extract expected strategies source).entries,
        entry ∈ (extract expected (strategies ++ more) source).entries) ∧
      (∀ before s after, strategies = before ++ s :: after → s ∈ before →
        extract expected strategies source = extract expected (before ++ after) source) ∧
      extract expected strategies source = extract expected strategies.eraseDups source := by
  have hsorted := fun ss => sorted_extract expected ss source
  refine ⟨⟨fun _ => mem_names_of_mem_extract, ?_⟩, fun s => s.pairwise_propose _ _, ?_, ?_, ?_, ?_,
    ?_⟩
  · exact (hsorted strategies).size_le fun _ => mem_names_of_mem_extract
  · intro name found
    simp only [get?_extract, Option.map_eq_some_iff, isFirstProposal_iff]
  · intro name
    simp only [get?_extract, Option.map_eq_none_iff, List.findSome?_eq_none_iff,
      Strategy.proposal?_eq_none_iff]
  · rintro more ⟨name, found⟩ hentry
    rw [(hsorted _).mem_entries_iff, get?_extract] at hentry ⊢
    obtain ⟨c, hc, hfound⟩ := Option.map_eq_some_iff.1 hentry
    rw [List.findSome?_append, hc, Option.some_or, Option.map_some, hfound]
  · rintro before s after rfl hmem
    refine (hsorted _).ext (hsorted _) fun name => ?_
    rw [get?_extract, get?_extract, findSome?_of_mem hmem]
  · refine (hsorted _).ext (hsorted _) fun name => ?_
    rw [get?_extract, get?_extract, findSome?_eraseDups]

/-- The comment above a declaration comes first, a label adds the other name, and the first strategy
again, at the end, adds nothing. -/
theorem first_strategy_wins_repeated :
    let expected := ExpectedNames.ofList ["A_ONE", "TWO"]
    let source := "// two: second\nreturn;\n// ONE is first\ndcl-proc one export;"
    extract expected [.blockHeader, .inlineLabel] source =
        ⟨[("A_ONE", ⟨"ONE is first", .blockHeader, some 4⟩),
          ("TWO", ⟨"second", .inlineLabel, some 1⟩)]⟩ ∧
      extract expected [.blockHeader, .inlineLabel, .blockHeader] source =
        extract expected [.blockHeader, .inlineLabel] source := by
  intro expected source
  obtain ⟨-, -, -, -, -, hrepeated, -⟩ :=
    first_strategy_wins expected [.blockHeader, .inlineLabel, .blockHeader] source
  refine ⟨by decide +kernel, ?_⟩
  exact hrepeated [.blockHeader, .inlineLabel] .blockHeader [] rfl (by decide)

end ProcedureCatalog
