/-
# Descriptions of one line

A description is meant to be a single line of bounded length. What is found in a source is, but an
inferred description is stored without being normalized, and normalization leaves the line feeds
of a short text that is written by hand.

* `Description.IsSingleLine` : at most `limit` characters and no line feed.
* `StoredProcedure.IsExplained` is the invariant: any other description is inferred from the name,
  or is a plain text written by hand.
* `exists_not_singleLine_iff` : these are exactly the descriptions that can occur.
-/
import ProcedureCatalog.Proofs.Catalog.Integrity
import ProcedureCatalog.Proofs.Catalog.Reached

namespace ProcedureCatalog

/-! ## Texts -/

namespace Description

/-- The text has at most `limit` characters and no line feed. -/
def IsSingleLine (text : String) : Prop := text.toList.length ≤ limit ∧ '\n' ∉ text.toList

instance (text : String) : Decidable (IsSingleLine text) :=
  inferInstanceAs (Decidable (_ ∧ _))

/-- The text is trimmed, not decorated and not too long, so that it is stored as it is. -/
def IsPlain (text : String) : Prop :=
  Text.trimmed text = text ∧ isDecorated text.toList = false ∧ text.toList.length ≤ limit

/-- A condensed text is a single line. -/
theorem isSingleLine_of_condense {text : String}
    (h : normalizeChars text.toList = condense text.toList) : IsSingleLine (normalize text) := by
  unfold IsSingleLine
  rw [toList_normalize, h]
  exact ⟨length_condense_le _, newline_notMem_condense _⟩

/-- The normal form of a trimmed text is a single line, or it is that text and plain. -/
theorem isSingleLine_or_isPlain (text : String) :
    IsSingleLine (normalize (Text.trimmed text)) ∨ IsPlain (normalize (Text.trimmed text)) := by
  rcases normalizeChars_eq_or (Text.trimmed text).toList with ⟨hsame, hplain, hlen⟩ | hcondense
  · have hnormal : normalize (Text.trimmed text) = Text.trimmed text := by
      rw [← String.toList_inj, toList_normalize, hsame]
    rw [hnormal]
    exact .inr ⟨Text.trimmed_trimmed text, hplain, hlen⟩
  · exact .inl (isSingleLine_of_condense hcondense)

/-- A plain text is stored as it is. -/
theorem IsPlain.normalize_trimmed {text : String} (h : IsPlain text) :
    normalize (Text.trimmed text) = text := by
  obtain ⟨htrim, hplain, hlen⟩ := h
  rw [htrim, ← String.toList_inj, toList_normalize, normalizeChars_of_plain hplain hlen]

end Description

/-! ## Rows -/

/-- The name of the row is trimmed and not empty, and its description is a single line, inferred
from the name, or plain and written by hand. -/
def StoredProcedure.IsExplained (r : StoredProcedure) : Prop :=
  r.HasPlainName ∧ ∀ text, r.description = some text →
    Description.IsSingleLine text ∨
      (r.source = some DescriptionSource.nameInference.identifier ∧
        Inference.infer r.name = some text) ∨
      (r.source = some DescriptionSource.manual.identifier ∧ Description.IsPlain text)

/-- What a strategy gives to a name is a single line, or inferred from the name. -/
theorem Strategy.CanGive.isSingleLine_or {s : Strategy} {name text : String}
    (h : s.CanGive name text) : Description.IsSingleLine text ∨
      (s = .nameInference ∧ Inference.infer name = some text) := by
  cases s with
  | inlineLabel => exact .inl (IsFromSource.isSingleLine h)
  | blockHeader => exact .inl (IsFromSource.isSingleLine h)
  | nameInference => exact .inr ⟨rfl, h⟩

namespace StoredProcedure

/-- A row with a description that a strategy can give to its name is explained. -/
theorem IsExplained.describe {r : StoredProcedure} (hr : r.IsExplained) {s : Strategy}
    {text : String} (h : s.CanGive r.name text) (now : String) :
    (r.describe text s.source now).IsExplained := by
  refine ⟨hr.1, fun text' htext => ?_⟩
  obtain rfl : text = text' := Option.some.inj htext
  rcases h.isSingleLine_or with hline | ⟨rfl, hinfer⟩
  · exact .inl hline
  · exact .inr (.inl ⟨rfl, hinfer⟩)

/-- A rewritten row is explained. -/
theorem Rewrites.isExplained {now : String} {change : Change} {r r' : StoredProcedure}
    (h : r.Rewrites now change r') (hchange : change.AppliesExtractions) (hr : r.IsExplained) :
    r'.IsExplained := by
  cases h with
  | same => exact hr
  | @byHand _ _ _ text =>
    unfold Catalog.writeByHand
    split
    · exact ⟨hr.1, by simp [clear]⟩
    · refine ⟨hr.1, fun text' htext => ?_⟩
      obtain rfl : Description.normalize (Text.trimmed text) = text' := Option.some.inj htext
      exact (Description.isSingleLine_or_isPlain text).imp_right fun hplain => .inr ⟨rfl, hplain⟩
  | applied hget =>
    obtain ⟨expected, strategies, source, rfl⟩ := hchange
    exact hr.describe ((isFaithful_extract expected strategies source).canGive_of_get? hget) now
  | extracted hget => exact hr.describe ((isFaithful_extract _ _ _).canGive_of_get? hget) now
  | inferred hinfer =>
    have hgive : Strategy.nameInference.CanGive r.name _ := hinfer
    exact hr.describe hgive now
  | shortened hshort =>
    unfold Catalog.replaceText
    split
    · exact ⟨hr.1, by simp [clear]⟩
    · -- a text that shortening replaces is condensed, whatever it was
      refine ⟨hr.1, fun text' htext => .inl ?_⟩
      obtain rfl := Option.some.inj htext
      obtain ⟨old, -, rfl, hchanged⟩ := Catalog.shorterText?_eq_some hshort
      exact Description.isSingleLine_of_condense (Description.normalizeChars_eq_condense hchanged)

end StoredProcedure

/-! ## Runs -/

namespace Database

variable {p : TablePrefix} {steps : List Step} {name text source : String}

/-- A run of ordinary operations under the prefix leaves a procedure of the given name with the
given description and source. -/
def Occurs (p : TablePrefix) (name text source : String) : Prop :=
  ∃ steps : List Step, (∀ s ∈ steps, s.tables = p ∧ s.operation.IsOrdinary) ∧
    ∃ c, (∀ first, (empty.run steps).catalog p first = .ok c) ∧
      ∃ r ∈ c.procedures, r.name = name ∧ r.description = some text ∧ r.source = some source

/-- All rows that a run of ordinary operations leaves are explained. -/
theorem isExplained_of_run {c : Catalog} {first : FirstTable}
    (hsteps : ∀ s ∈ steps, s.tables = p ∧ s.operation.IsOrdinary)
    (hc : (empty.run steps).catalog p first = .ok c) : ∀ r ∈ c.procedures, r.IsExplained := by
  have hcases := run_empty_cases (P := fun c => ∀ r ∈ c.procedures, r.IsExplained) hsteps
    (by simp [Catalog.empty]) fun now change c c' hchange hc' hold =>
      Change.forall_onCatalog hc' hold
        (fun _ _ _ htrim hne => ⟨⟨htrim, hne⟩, by simp [StoredProcedure.new]⟩)
        fun r r' hr hrw => hrw.isExplained hchange hr
  rcases hcases with ⟨hrun, -⟩ | ⟨d, hd, -, hrows⟩
  · rw [hrun] at hc
    exact absurd hc catalog_empty_ne_ok
  · rwa [Except.ok.inj (hc.symm.trans (hd first))]

/-! ## Runs that describe one procedure -/

/-- The catalog with one service program that exports one procedure. -/
def single (r : StoredProcedure) : Catalog :=
  ⟨[⟨"AXA", "SPV", defaultSourceFile, none, none, some ""⟩], [r]⟩

/-- A name that is trimmed and not empty can be synchronised. -/
theorem sync_single (htrim : Text.trimmed name = name) (hne : name ≠ "") :
    (Change.sync "AXA" "SPV" [name]).onCatalog "" .empty =
      .ok (single (.new "AXA" "SPV" name "")) := by
  have hwanted : Text.orderedSet (Text.trimmedNonempty [name]) = [name] := by
    simp [Text.trimmedNonempty, htrim, hne, Text.orderedSet, Text.orderedInsert]
  have hlibrary : ObjectName.validate .library "AXA" = .ok () := by decide
  have hprogram : ObjectName.validate .object "SPV" = .ok () := by decide
  have hsync : (Catalog.empty.sync "AXA" "SPV" [name] "").1 =
      single (.new "AXA" "SPV" name "") := by
    unfold Catalog.sync
    simp [hwanted, Catalog.empty, Catalog.procedureNames, Catalog.proceduresOf,
      Catalog.touchProgram, Catalog.program?, Catalog.addProgram, Catalog.addProcedure,
      Catalog.keepOnly, Catalog.setChecksum, Catalog.changeProgram, Table.update, Table.insert,
      single, ServiceProgram.new, ServiceProgram.key, StoredProcedure.new]
  simp [Change.onCatalog, hlibrary, hprogram, hsync, Except.mapError, bind, Except.bind, pure,
    Except.pure]

/-- The only procedure gets the description that is inferred from its name. -/
theorem fillFromNames_single (hinfer : Inference.infer name = some text) :
    (Change.fillFromNames "AXA" "SPV" true).onCatalog "" (single (.new "AXA" "SPV" name "")) =
      .ok (single ((StoredProcedure.new "AXA" "SPV" name "").describe text .nameInference "")) := by
  have hrow : Catalog.inferFor true "" (.new "AXA" "SPV" name "") =
      (StoredProcedure.new "AXA" "SPV" name "").describe text .nameInference "" := by
    simp [Catalog.inferFor, Catalog.inferredText?, Catalog.isSkipped, StoredProcedure.isManual,
      StoredProcedure.new, hinfer]
  have hrecords : (single (.new "AXA" "SPV" name "")).records "AXA" "SPV" =
      .ok [⟨"AXA", "SPV", name, none, none, some ""⟩] := rfl
  have hchanged : (single (.new "AXA" "SPV" name "")).changeProcedures "AXA" "SPV"
      (Catalog.inferFor true "") = single (Catalog.inferFor true "" (.new "AXA" "SPV" name "")) :=
    rfl
  simp only [Change.onCatalog, Catalog.fillFromNames, hrecords, hchanged, hrow]
  rfl

/-- A plain text is written by hand for the only procedure. -/
theorem setDescription_single (hplain : Description.IsPlain text) (hne : text ≠ "") :
    (Change.setDescription "AXA" "SPV" name text).onCatalog ""
        (single (.new "AXA" "SPV" name "")) =
      .ok (single ((StoredProcedure.new "AXA" "SPV" name "").describe text .manual "")) := by
  have hrow : Catalog.writeByHand text "" (.new "AXA" "SPV" name "") =
      (StoredProcedure.new "AXA" "SPV" name "").describe text .manual "" := by
    simp [Catalog.writeByHand, hne]
  have hkey : (StoredProcedure.new "AXA" "SPV" name "").key = ["AXA", "SPV", name] := rfl
  simp only [Change.onCatalog, Catalog.setDescription, hplain.normalize_trimmed, single,
    Table.update, List.map_cons, List.map_nil, hkey, if_true, hrow]
  rfl

/-- A change of the only procedure gives it a description. -/
theorem occurs_of_change (change : Change) (r : StoredProcedure) (hp : p.isUsable = true)
    (htrim : Text.trimmed name = name) (hne : name ≠ "") (hordinary : change.AppliesExtractions)
    (hchange : change.onCatalog "" (single (.new "AXA" "SPV" name "")) = .ok (single r))
    (hname : r.name = name) (htext : r.description = some text) (hsource : r.source = some source) :
    Occurs p name text source := by
  have hreadable : p.isReadable = true := (TablePrefix.isUsable_iff.1 hp).1
  have hup : empty.after ⟨p, .up, ""⟩ = fresh p := by simp [Database.after, perform, up_empty hp]
  refine ⟨[⟨p, .up, ""⟩, ⟨p, .change (.sync "AXA" "SPV" [name]), ""⟩, ⟨p, .change change, ""⟩],
    ?_, single r, ?_, r, List.mem_singleton.2 rfl, hname, htext, hsource⟩
  · simpa [Operation.IsOrdinary, Change.AppliesExtractions] using hordinary
  · rw [run_cons, hup]
    exact catalog_after_change (catalog_after_change (catalog_fresh hreadable)
      (sync_single htrim hne)) hchange

/-- **The descriptions that are no single line.** Under a usable prefix, a description that is too
long or has a line feed occurs for a name exactly when the name can be synchronised and the
description is inferred from it, or is a plain text written by hand. -/
theorem occurs_not_singleLine_iff (hp : p.isUsable = true)
    (hline : ¬ Description.IsSingleLine text) :
    Occurs p name text source ↔ (Text.trimmed name = name ∧ name ≠ "") ∧
      ((source = DescriptionSource.nameInference.identifier ∧
          Inference.infer name = some text) ∨
        (source = DescriptionSource.manual.identifier ∧ Description.IsPlain text)) := by
  constructor
  · rintro ⟨steps, hsteps, c, hc, r, hr, rfl, htext, hsource⟩
    obtain ⟨hname, hcases⟩ := isExplained_of_run hsteps (hc .programs) r hr
    refine ⟨hname, ?_⟩
    rcases hcases text htext with h | ⟨h, hinfer⟩ | ⟨h, hplain⟩
    · exact absurd h hline
    · exact .inl ⟨Option.some.inj (hsource.symm.trans h), hinfer⟩
    · exact .inr ⟨Option.some.inj (hsource.symm.trans h), hplain⟩
  · rintro ⟨⟨htrim, hne⟩, ⟨rfl, hinfer⟩ | ⟨rfl, hplain⟩⟩
    · exact occurs_of_change (.fillFromNames "AXA" "SPV" true) _ hp htrim hne trivial
        (fillFromNames_single hinfer) rfl rfl rfl
    · have hsome : text ≠ "" := by
        rintro rfl
        exact hline (by decide)
      exact occurs_of_change (.setDescription "AXA" "SPV" name text) _ hp htrim hne trivial
        (setDescription_single hplain hsome) rfl rfl rfl

/-- A line feed in a name comes into its description, and one in a plain text stays there. -/
theorem occurs_line_feed :
    TablePrefix.standard.isUsable = true ∧ ¬ Description.IsSingleLine "a\nb" ∧
      Occurs .standard "X_A\nB" "a\nb" "name_inference" ∧
      Occurs .standard "A_X" "a\nb" "manual" := by
  have hp : TablePrefix.standard.isUsable = true := by decide +kernel
  have hline : ¬ Description.IsSingleLine "a\nb" := by decide +kernel
  refine ⟨hp, hline, (occurs_not_singleLine_iff hp hline).2 ⟨?_, .inl ⟨rfl, ?_⟩⟩,
    (occurs_not_singleLine_iff hp hline).2 ⟨?_, .inr ⟨rfl, ?_, ?_, ?_⟩⟩⟩
  all_goals decide +kernel

/-- Filling from names and writing by hand both store a line feed. -/
theorem line_feed_is_stored :
    ((empty.run [⟨.standard, .up, ""⟩,
      ⟨.standard, .change (.sync "AXA" "SPV" ["A_X", "X_A\nB"]), ""⟩,
      ⟨.standard, .change (.setDescription "AXA" "SPV" "A_X" "a\nb"), ""⟩,
      ⟨.standard, .change (.fillFromNames "AXA" "SPV" false), ""⟩]).records .standard
        "AXA" "SPV").map (·.map (·.description)) = .ok [some "a\nb", some "a\nb"] := by
  decide +kernel

end Database

end ProcedureCatalog
