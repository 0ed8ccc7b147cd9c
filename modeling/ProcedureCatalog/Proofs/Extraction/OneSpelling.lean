/-
# One spelling for each name

Names are the same when they are equal in ASCII capitals, without the blanks around them. Of each
name that occurs in a list the expected names hold one trimmed spelling, the first.

* `find?_eq_some_iff`, `find?_eq_none_iff` : what the lookup of a name gives.
* `ofList_names` : the expected names of expected names are these.
* `one_spelling_for_each_name` : which names are expected, and how they are found.
-/
import ProcedureCatalog.Proofs.Extraction.KeptNames
import ProcedureCatalog.Proofs.Text.Trimming

namespace ProcedureCatalog.ExpectedNames

open Text

/-! ## Repeated names -/

/-- Dropping repeated names leaves every name in some spelling. -/
theorem exists_sameName_mem_dropRepeats {names : List String} {name : String}
    (h : name ∈ names) : ∃ kept ∈ dropRepeats names, sameName kept name = true := by
  induction names with
  | nil => simp at h
  | cons first names ih =>
    rw [dropRepeats]
    cases hfirst : sameName first name with
    | true => exact ⟨first, List.mem_cons_self, hfirst⟩
    | false =>
      rcases List.mem_cons.1 h with rfl | h
      · exact absurd (sameName_iff.2 rfl) (Bool.eq_false_iff.1 hfirst)
      · obtain ⟨kept, hkept, hsame⟩ := ih h
        have hother : sameName first kept = false := by
          rw [← hfirst]
          exact sameName_congr (sameName_iff.2 rfl) hsame
        exact ⟨kept, List.mem_cons_of_mem _ (List.mem_filter.2 ⟨hkept, by rw [hother]; rfl⟩), hsame⟩

/-- Where no name is repeated, none is dropped. -/
theorem dropRepeats_eq_self {names : List String}
    (h : names.Pairwise fun a b => sameName a b = false) : dropRepeats names = names := by
  induction h with
  | nil => rfl
  | @cons first names hfirst _ ih =>
    rw [dropRepeats, ih, List.filter_eq_self.2]
    intro other hother
    rw [hfirst other hother]
    rfl

/-! ## Looking up -/

/-- The lookup finds the expected name that is the same up to case, and there is at most one. -/
theorem find?_eq_some_iff {expected : ExpectedNames} {name found : String} :
    expected.find? name = some found ↔ found ∈ expected.names ∧ sameName found name = true := by
  constructor
  · intro h
    have hsame := List.find?_some (p := fun candidate => sameName candidate name) h
    exact ⟨List.mem_of_find?_eq_some h, hsame⟩
  · rintro ⟨hmem, hsame⟩
    have hsome : (expected.find? name).isSome = true := List.find?_isSome.2 ⟨found, hmem, hsame⟩
    obtain ⟨other, hother⟩ := Option.isSome_iff_exists.1 hsome
    have hotherSame := List.find?_some (p := fun candidate => sameName candidate name) hother
    rw [sameName_comm] at hsame
    have heq : other = found :=
      eq_of_sameName (List.mem_of_find?_eq_some hother) hmem (sameName_trans hotherSame hsame)
    rw [hother, heq]

/-- The lookup finds nothing exactly when every expected name is another one. -/
theorem find?_eq_none_iff {expected : ExpectedNames} {name : String} :
    expected.find? name = none ↔ ∀ n ∈ expected.names, sameName n name = false := by
  rw [find?, List.find?_eq_none]
  exact forall₂_congr fun n _ => iff_of_eq (Bool.not_eq_true _)

/-- Every name of a list that is not blank is found among the expected ones. -/
theorem contains_trimmed {names : List String} {name : String} (hmem : name ∈ names)
    (hname : trimmed name ≠ "") : (ofList names).contains (trimmed name) = true := by
  have hlisted : trimmed name ∈ trimmedNonempty names :=
    List.mem_filter.2 ⟨List.mem_map_of_mem hmem, by simpa using hname⟩
  obtain ⟨kept, hkept, hsame⟩ := exists_sameName_mem_dropRepeats hlisted
  rw [contains, find?_eq_some_iff.2 ⟨hkept, hsame⟩]
  rfl

/-! ## Expected names again -/

theorem eq_of_names_eq {a b : ExpectedNames} (h : a.names = b.names) : a = b := by
  cases a
  cases b
  cases h
  rfl

/-- The expected names of expected names are these. -/
theorem ofList_names (expected : ExpectedNames) : ofList expected.names = expected := by
  have htrimmed : trimmedNonempty expected.names = expected.names := by
    have hmap : expected.names.map trimmed = expected.names :=
      (List.map_congr_left expected.trimmed_eq).trans (List.map_id _)
    rw [trimmedNonempty, hmap, List.filter_eq_self]
    intro n hn
    simpa using expected.ne_empty n hn
  refine eq_of_names_eq ?_
  change dropRepeats (trimmedNonempty expected.names) = expected.names
  rw [htrimmed, dropRepeats_eq_self expected.distinct]

/-- An expected name is not blank. -/
theorem allBlank_eq_false_of_mem_names {expected : ExpectedNames} {name : String}
    (h : name ∈ expected.names) : allBlank name.toList = false := by
  have htrim : trim name.toList = name.toList := by
    have heq := congrArg String.toList (expected.trimmed_eq name h)
    rwa [trimmed, String.toList_ofList] at heq
  have hne : name.toList ≠ [] := fun hnil =>
    expected.ne_empty name h (String.toList_eq_nil_iff.1 hnil)
  obtain ⟨c, cs, hcs⟩ := List.exists_cons_of_ne_nil hne
  have hc := head?_trim_eq_false name.toList c (by rw [htrim, hcs]; exact rfl)
  rw [hcs, allBlank, List.all_cons, hc, Bool.false_and]

/-! ## The names of a list -/

/-- **One spelling for each name.** The expected names of a list are the trimmed names at those of
its positions where the name is not blank and none before it is the same, in this order. They are
trimmed, not blank, and different in ASCII capitals. A name is looked up in any spelling: what is
found is the one expected name with the same capitals, and nothing where there is none. Every name
of the list that is not blank is found, trimmed. The expected names of expected names are the same
ones. -/
theorem one_spelling_for_each_name (names : List String) :
    (ofList names).names = (keptPositions names).map (nameAt names) ∧
      (∀ n ∈ (ofList names).names, trimmed n = n ∧ allBlank n.toList = false) ∧
      ((ofList names).names.Pairwise fun a b => upper a.toList ≠ upper b.toList) ∧
      (∀ name found, (ofList names).find? name = some found ↔
        found ∈ (ofList names).names ∧ upper found.toList = upper name.toList) ∧
      (∀ name, (ofList names).find? name = none ↔
        ∀ n ∈ (ofList names).names, upper n.toList ≠ upper name.toList) ∧
      (∀ n ∈ names, allBlank n.toList = false → (ofList names).contains (trimmed n) = true) ∧
      ofList (ofList names).names = ofList names := by
  have hdiffer : ∀ a b : String, sameName a b = false ↔ upper a.toList ≠ upper b.toList :=
    fun a b => by rw [← Bool.not_eq_true, sameName_iff]
  refine ⟨names_ofList names, ?_, ?_, ?_, ?_, ?_, ofList_names _⟩
  · intro n hn
    exact ⟨(ofList names).trimmed_eq n hn, allBlank_eq_false_of_mem_names hn⟩
  · exact (ofList names).distinct.imp fun hab => (hdiffer _ _).1 hab
  · intro name found
    rw [find?_eq_some_iff, sameName_iff]
  · intro name
    rw [find?_eq_none_iff]
    exact forall₂_congr fun n _ => hdiffer n name
  · intro n hn hblank
    refine contains_trimmed hn fun hempty => trim_ne_nil hblank ?_
    rw [← String.toList_ofList (l := trim n.toList)]
    exact String.toList_eq_nil_iff.2 hempty

/-- A repeated name, one with blanks around it and a blank one: both spellings are found as the
first. -/
theorem one_spelling_of_a_repeated_name :
    let names := [" ", "a_x ", "A_X", "\u00A0B"]
    ("A_X" ∈ names ∧ allBlank "A_X".toList = false) ∧
      (ofList names).names = ["a_x", "B"] ∧ (ofList names).find? "A_x" = some "a_x" ∧
      (ofList names).contains (trimmed "A_X") = true := by
  intro names
  obtain ⟨hnames, -, -, hfind, -, hfound, -⟩ := one_spelling_for_each_name names
  have hblank : allBlank "A_X".toList = false := by decide
  have hmem : "A_X" ∈ names := by decide
  have hkept : (ofList names).names = ["a_x", "B"] := by decide +kernel
  refine ⟨⟨hmem, hblank⟩, hkept, ?_, hfound "A_X" hmem hblank⟩
  rw [hfind, hkept]
  decide

end ProcedureCatalog.ExpectedNames
