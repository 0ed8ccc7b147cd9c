/-
# Integrity of a catalog

Every change keeps the two tables of a catalog consistent with each other and every row with
itself.

* `StoredProcedure.IsConsistent` : a description comes with a known source and is not blank.
* `Catalog.WellFormed` : the rows are consistent, and each belongs to a service program that is
  there once.
* `Change.isOwned_onCatalog` : every change keeps the service programs of all procedures.
* `Change.wellFormed_onCatalog` : every change keeps a catalog well formed, when what it applies was
  extracted.
-/
import ProcedureCatalog.Proofs.Catalog.Programs
import ProcedureCatalog.Proofs.Extraction.Entries

namespace ProcedureCatalog

/-! ## Rows -/

namespace StoredProcedure

/-- The row has neither a description nor a source, or a description that is not blank and the
source of that. -/
def IsConsistent (r : StoredProcedure) : Prop :=
  (r.description = none ∧ r.source = none) ∨
    ∃ text, ∃ source : DescriptionSource, r.description = some text ∧
      r.source = some source.identifier ∧ Text.allBlank text.toList = false

theorem isConsistent_new (library program name now : String) :
    (new library program name now).IsConsistent := .inl ⟨rfl, rfl⟩

theorem isConsistent_clear (now : String) (r : StoredProcedure) : (r.clear now).IsConsistent :=
  .inl ⟨rfl, rfl⟩

theorem isConsistent_describe {text : String} (h : Text.allBlank text.toList = false)
    (source : DescriptionSource) (now : String) (r : StoredProcedure) :
    (r.describe text source now).IsConsistent := .inr ⟨text, source, rfl, rfl, h⟩

end StoredProcedure

/-- The normal form of a trimmed text is empty or not blank. -/
theorem Description.not_allBlank_normalize_trimmed {text : String}
    (h : normalize (Text.trimmed text) ≠ "") :
    Text.allBlank (normalize (Text.trimmed text)).toList = false := by
  rw [toList_normalize]
  refine Text.allBlank_eq_false_of_head? (fun hnil => h ?_) (head?_normalizeChars_eq_false ?_)
  · rw [← String.toList_eq_nil_iff, toList_normalize, hnil]
  · rw [Text.trimmed, String.toList_ofList]
    exact Text.head?_trim_eq_false _

/-- A text that shortening puts in the place of another is empty or not blank. -/
theorem Catalog.not_allBlank_of_shorterText? {r : StoredProcedure} {text : String}
    (h : shorterText? r = some text) (hne : text ≠ "") : Text.allBlank text.toList = false := by
  obtain ⟨old, -, rfl, hchanged⟩ := shorterText?_eq_some h
  rw [Description.toList_normalize, Description.normalizeChars_eq_condense hchanged]
  refine Text.allBlank_eq_false_of_head? (fun hnil => hne ?_)
    (Description.startsPlain_condense _).head?_eq_false
  rw [← String.toList_eq_nil_iff, Description.toList_normalize,
    Description.normalizeChars_eq_condense hchanged, hnil]

/-- A rewritten row is consistent. -/
theorem StoredProcedure.Rewrites.isConsistent {now : String} {change : Change}
    {r r' : StoredProcedure} (h : r.Rewrites now change r') (hchange : change.AppliesExtractions)
    (hr : r.IsConsistent) : r'.IsConsistent := by
  cases h with
  | same => exact hr
  | byHand =>
    unfold Catalog.writeByHand
    split
    · exact isConsistent_clear now r
    · next hne =>
      exact isConsistent_describe
        (Description.not_allBlank_normalize_trimmed (by simpa using hne)) .manual now r
  | applied hget =>
    obtain ⟨expected, strategies, source, rfl⟩ := hchange
    have hgive := (isFaithful_extract expected strategies source).canGive_of_get? hget
    exact isConsistent_describe hgive.not_allBlank _ now r
  | extracted hget =>
    have hgive := (isFaithful_extract _ _ _).canGive_of_get? hget
    exact isConsistent_describe hgive.not_allBlank _ now r
  | inferred hinfer => exact isConsistent_describe (Inference.not_allBlank_of_infer hinfer) _ now r
  | shortened hshort =>
    unfold Catalog.replaceText
    split
    · exact isConsistent_clear now r
    · -- the source stays the one of the longer text
      next hne =>
      have hblank := Catalog.not_allBlank_of_shorterText? hshort (by simpa using hne)
      rcases hr with ⟨hnone, -⟩ | ⟨_, source, -, hsource, -⟩
      · simp [Catalog.shorterText?, hnone] at hshort
      · exact .inr ⟨_, source, rfl, hsource, hblank⟩

/-! ## Both tables -/

namespace Catalog

/-- The service programs are in order, each procedure belongs to one of them, and all procedures
are consistent. -/
structure WellFormed (c : Catalog) : Prop where
  programs_sorted : Table.Sorted ServiceProgram.key c.programs
  owned : ∀ r ∈ c.procedures, ∃ q ∈ c.programs, q.key = [r.library, r.program]
  consistent : ∀ r ∈ c.procedures, r.IsConsistent

theorem wellFormed_empty : empty.WellFormed where
  programs_sorted := List.Pairwise.nil
  owned := by simp [empty]
  consistent := by simp [empty]

/-- Each procedure belongs to a service program that is there. -/
def IsOwned (c : Catalog) : Prop :=
  ∀ r ∈ c.procedures, ∃ q ∈ c.programs, q.key = [r.library, r.program]

instance (c : Catalog) : Decidable c.IsOwned :=
  inferInstanceAs (Decidable (∀ r ∈ c.procedures, ∃ q ∈ c.programs, q.key = _))

theorem isOwned_empty : empty.IsOwned := by simp [IsOwned, empty]

variable {c : Catalog} {library program : String}

/-- A synchronisation keeps the service programs of all procedures. -/
theorem IsOwned.sync (h : c.IsOwned) (symbols : List String) (now : String) :
    (c.sync library program symbols now).1.IsOwned := by
  intro r hr
  refine exists_key_sync ?_ symbols
  rcases mem_procedures_sync hr with hold | ⟨name, rfl, -⟩
  · exact .inr (h r hold)
  · exact .inl rfl

/-- A deletion keeps the service programs of the procedures that stay. -/
theorem IsOwned.delete (h : c.IsOwned) : (c.delete library program).1.IsOwned := by
  intro r hr
  obtain ⟨hmem, hother⟩ := List.mem_filter.1 hr
  obtain ⟨q, hq, hkey⟩ := h r hmem
  refine ⟨q, List.mem_filter.2 ⟨hq, ?_⟩, hkey⟩
  -- the row stays, so its service program is another one
  have hnot : ¬ (r.library = library ∧ r.program = program) := fun hsame => by
    simp [StoredProcedure.belongsTo_iff.2 hsame] at hother
  rw [hkey]
  simpa using hnot

end Catalog

/-- After every change each procedure belongs to a service program that is there. -/
theorem Change.isOwned_onCatalog {now : String} {change : Change} {c c' : Catalog}
    (h : c.IsOwned) (hc' : change.onCatalog now c = .ok c') : c'.IsOwned := by
  rcases onCatalog_cases hc' with ⟨library, program, symbols, -, rfl⟩ |
    ⟨library, program, -, rfl⟩ | ⟨f, g, hf, hg, rfl⟩
  · exact h.sync symbols now
  · exact h.delete
  · intro r' hr'
    obtain ⟨r, hr, rfl⟩ := List.mem_map.1 hr'
    obtain ⟨hl, hp, -⟩ := StoredProcedure.key_eq_iff.1 (hf r)
    rw [hl, hp]
    exact Table.exists_key_map hg (h r hr)

/-- Every change keeps the order of the service programs. -/
theorem Change.sorted_programs_onCatalog {now : String} {change : Change} {c c' : Catalog}
    (h : Table.Sorted ServiceProgram.key c.programs) (hc' : change.onCatalog now c = .ok c') :
    Table.Sorted ServiceProgram.key c'.programs := by
  rcases onCatalog_cases hc' with ⟨library, program, symbols, -, rfl⟩ |
    ⟨library, program, -, rfl⟩ | ⟨f, g, hf, hg, rfl⟩
  · exact Catalog.sorted_sync h symbols
  · exact h.filter _
  · exact h.map hg

/-- Every change keeps a catalog well formed. -/
theorem Change.wellFormed_onCatalog {now : String} {change : Change} {c c' : Catalog}
    (h : c.WellFormed) (hchange : change.AppliesExtractions)
    (hc' : change.onCatalog now c = .ok c') : c'.WellFormed where
  programs_sorted := sorted_programs_onCatalog h.programs_sorted hc'
  owned := isOwned_onCatalog h.owned hc'
  consistent := forall_onCatalog hc' h.consistent
    (fun library program name _ _ => StoredProcedure.isConsistent_new library program name now)
    fun _ _ hr hrw => hrw.isConsistent hchange hr

end ProcedureCatalog
