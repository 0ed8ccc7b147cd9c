/-
# Searches

A search finds the procedures whose name or description contains the text, as far as null characters
do not hide it: the pattern language reads patterns and texts up to the first one.

* `isFound_iff` : the rows that a search gives.
* `SearchResult` : what a search is about, as far as it is right.
* `search_finds` : every search with a pattern that is not too long gives such a result.
* `null_character_hides_text` : a description that is missed, and one that is found for its end.
-/
import ProcedureCatalog.Proofs.Catalog.Counts
import ProcedureCatalog.Proofs.Catalog.Parts
import ProcedureCatalog.Proofs.Catalog.Reached
import ProcedureCatalog.Proofs.Catalog.SearchPatterns
import ProcedureCatalog.Proofs.Catalog.UnchangedSource
import ProcedureCatalog.Proofs.Text.Order

namespace ProcedureCatalog

open Like

/-! ## Rows -/

namespace StoredProcedure

/-- The texts that a search looks at: the name, and the description if there is one. -/
def texts (r : StoredProcedure) : List (List Char) :=
  r.name.toList :: (r.description.map String.toList).toList

end StoredProcedure

/-- The key of a record as bytes. -/
def ProcedureRecord.keyBytes (r : ProcedureRecord) : List (List UInt8) :=
  [r.library, r.program, r.name].map fun text => Text.encodeUtf8 text.toList

namespace Catalog

variable {c : Catalog} {sought : List Char} {r : StoredProcedure}

/-- A row is given when the search finds the text in its name or its description. -/
theorem isFound_iff :
    isFound (containing sought) r = true ↔ ∃ text ∈ r.texts, Finds sought text := by
  unfold isFound StoredProcedure.texts
  rw [Bool.or_eq_true, fits_containing_iff, List.exists_mem_cons_iff]
  refine or_congr_right ?_
  cases r.description with
  | none => simp
  | some text => simp [fits_containing_iff]

/-- Keys in order have their bytes in order. -/
theorem keyBytes_lt {a b : StoredProcedure} (h : a.key < b.key) :
    a.record.keyBytes < b.record.keyBytes :=
  List.map_lt (fun _ _ hlt => Text.encodeUtf8_lt_iff.2 hlt) h

/-- In an ordered catalog rows are known by their records. -/
theorem IsOrdered.eq_of_record_eq (h : c.IsOrdered) {a b : StoredProcedure}
    (ha : a ∈ c.procedures) (hb : b ∈ c.procedures) (heq : a.record = b.record) : a = b := by
  refine Table.eq_of_key_eq h.procedures.pairwise_ne ha hb ?_
  exact congrArg (fun record : ProcedureRecord => [record.library, record.program, record.name]) heq

/-- A search reads the records of the rows that it finds. -/
theorem search_eq_ok (hknown : ∀ r ∈ c.procedures, hasKnownSource r = true) {text : String}
    (hshort : isTooLong (containing (Text.trim text.toList)) = false) :
    c.search text = .ok ((c.procedures.filter
      (isFound (containing (Text.trim text.toList)))).map StoredProcedure.record) := by
  unfold search
  dsimp only
  rw [hshort, Bool.false_and, if_neg Bool.false_ne_true]
  exact mapM_eq_ok fun r hr => r.toRecord_eq_of_known (hknown r (List.mem_filter.1 hr).1)

end Catalog

/-- What a search for a text among rows gives. -/
structure SearchResult (sought : List Char) (rows : List StoredProcedure)
    (records : List ProcedureRecord) : Prop where
  /-- The records rise by the bytes of library, service program and name, so that none comes
  twice. -/
  rises : records.Pairwise fun a b => a.keyBytes < b.keyBytes
  /-- All are records of rows. -/
  from_rows : ∀ record ∈ records, ∃ r ∈ rows, r.record = record
  /-- They are those of the rows in which the search finds the text. -/
  mem_iff : ∀ r ∈ rows, r.record ∈ records ↔ ∃ text ∈ r.texts, Finds sought text
  /-- A text without null characters is found wherever it is contained in what is visible. -/
  contained : '\x00' ∉ sought → ∀ r ∈ rows, (∃ text ∈ r.texts, Contains (visible text) sought) →
    r.record ∈ records
  /-- If it has no `%` and no `_` either, it is found nowhere else. -/
  nothing_else : '\x00' ∉ sought → '%' ∉ sought → '_' ∉ sought → ∀ r ∈ rows,
    r.record ∈ records → ∃ text ∈ r.texts, Contains (visible text) sought

namespace Catalog

variable {c : Catalog}

/-- The records of the rows that are found are what a search gives. -/
theorem IsOrdered.searchResult (h : c.IsOrdered) (sought : List Char) :
    SearchResult sought c.procedures
      ((c.procedures.filter (isFound (containing sought))).map StoredProcedure.record) := by
  have hmem : ∀ r ∈ c.procedures, r.record ∈ (c.procedures.filter
      (isFound (containing sought))).map StoredProcedure.record ↔
        ∃ text ∈ r.texts, Finds sought text := by
    intro r hr
    rw [List.mem_map, ← isFound_iff]
    constructor
    · rintro ⟨other, hother, heq⟩
      obtain ⟨hmem, hfound⟩ := List.mem_filter.1 hother
      rwa [h.eq_of_record_eq hr hmem heq.symm]
    · exact fun hfound => ⟨r, List.mem_filter.2 ⟨hr, hfound⟩, rfl⟩
  refine ⟨?_, ?_, hmem, ?_, ?_⟩
  · exact List.pairwise_map.2 ((h.procedures.filter _).imp keyBytes_lt)
  · intro record hrecord
    obtain ⟨r, hr, rfl⟩ := List.mem_map.1 hrecord
    exact ⟨r, (List.mem_filter.1 hr).1, rfl⟩
  · rintro hnull r hr ⟨text, htext, hcontains⟩
    exact (hmem r hr).2 ⟨text, htext, finds_of_contains hnull hcontains⟩
  · intro hnull hrun hany r hr hrecord
    obtain ⟨text, htext, hfinds⟩ := (hmem r hr).1 hrecord
    exact ⟨text, htext, (finds_iff_contains hnull hrun hany).1 hfinds⟩

end Catalog

/-! ## In a database -/

namespace Database

variable {db : Database} {p : TablePrefix} {c : Catalog}

/-- **What a search finds.** On a catalog whose descriptions have known sources, a search whose
pattern is not too long succeeds. It gives the procedures in whose name or description it finds the
trimmed text, in the order of their bytes. Without null characters these are all that contain the
text up to the case of ASCII letters, also if it has `%` or `_`, and only those if it has neither.
Every character stands for itself in this, U+FFFE and U+FFFF as well, which the database does not
tell from U+FFFD. -/
theorem search_finds (hc : ∀ first, db.catalog p first = .ok c) (hordered : c.IsOrdered)
    (hknown : ∀ r ∈ c.procedures, Catalog.hasKnownSource r = true) (text : String)
    (hshort : isTooLong (containing (Text.trim text.toList)) = false) :
    ∃ records, db.search p text = .ok records ∧
      SearchResult (Text.trim text.toList) c.procedures records := by
  have hread : db.search p text = c.search text := by
    unfold search read
    rw [hc]
    simp only [bind, Except.bind]
  rw [hread, Catalog.search_eq_ok hknown hshort]
  exact ⟨_, rfl, hordered.searchResult (Text.trim text.toList)⟩

/-- A text with a percent sign is found in a description, and a plain one in a name only. -/
theorem search_finds_percent :
    let c : Catalog := ⟨[.new "AXA" "SPV"],
      [⟨"AXA", "SPV", "A_GET", none, none, "1"⟩,
        ⟨"AXA", "SPV", "B_X", some "50% de IVA", some "manual", "1"⟩]⟩
    let db := (fresh .standard).store .standard c
    let described : ProcedureRecord :=
      ⟨"AXA", "SPV", "B_X", some "50% de IVA", some .manual, some "1"⟩
    (∃ records, db.search .standard " 0% DE " = .ok records ∧ described ∈ records) ∧
      ∃ records, db.search .standard "get" = .ok records ∧ described ∉ records := by
  intro c db described
  have hc : ∀ first, db.catalog .standard first = .ok c := by
    intro first
    cases first <;> decide +kernel
  have hordered : c.IsOrdered := by
    constructor <;> (unfold Table.Sorted; decide +kernel)
  have hrow : ⟨"AXA", "SPV", "B_X", some "50% de IVA", some "manual", "1"⟩ ∈ c.procedures := by
    decide
  constructor
  · obtain ⟨records, hsearch, hresult⟩ :=
      search_finds hc hordered (by decide) " 0% DE " (by decide +kernel)
    refine ⟨records, hsearch, hresult.contained (by decide) _ hrow ?_⟩
    exact ⟨"50% de IVA".toList, by decide, by decide +kernel⟩
  · obtain ⟨records, hsearch, hresult⟩ :=
      search_finds hc hordered (by decide) "get" (by decide +kernel)
    refine ⟨records, hsearch, fun hmem => ?_⟩
    have hnone := hresult.nothing_else (by decide) (by decide) (by decide) _ hrow hmem
    revert hnone
    decide +kernel

/-- A description that contains a text behind a null character is not found, and a text with a null
character finds what ends with its start. -/
theorem null_character_hides_text :
    let db := empty.run [⟨.standard, .up, ""⟩,
      ⟨.standard, .change (.sync "AXA" "SPV" ["A_X"]), "1"⟩,
      ⟨.standard, .change (.setDescription "AXA" "SPV" "A_X" "a\x00b"), "2"⟩]
    db.contentOfRows .standard = .ok [(["AXA", "SPV", "A_X"], some "a\x00b", some "manual")] ∧
      Contains "a\x00b".toList "b".toList ∧ db.search .standard "b" = .ok [] ∧
      ¬ Contains "A_X".toList "x\x00y".toList ∧ ¬ Contains "a\x00b".toList "x\x00y".toList ∧
      db.search .standard "x\x00y" =
        .ok [⟨"AXA", "SPV", "A_X", some "a\x00b", some .manual, some "2"⟩] := by
  decide +kernel

end Database

end ProcedureCatalog
