/-
# The names that are kept

Of a list of names the expected ones are those at some of its positions: the first of each group of
names that are the same, trimmed, up to case, but no blank ones. Which positions these are does not
depend on the case of the names.

* `names_ofList` : the expected names are the trimmed ones at the kept positions.
* `keptPositions_congr` : lists that are the same up to case keep the same positions.
* `ExpectedNames.eq_of_sameName` : no two expected names are the same up to case.
-/
import Mathlib.Data.List.Forall2
import Mathlib.Data.List.Induction
import Mathlib.Data.List.Pairwise
import ProcedureCatalog.Proofs.Catalog.Space
import ProcedureCatalog.Proofs.Text.AsciiCase

namespace ProcedureCatalog

open Text

/-! ## Trimming and case -/

/-- Trimming goes by the blanks at the ends, and case leaves blanks as they are. -/
theorem Text.upper_trim (cs : List Char) : upper (trim cs) = trim (upper cs) := by
  have hblank : isBlank ∘ Char.toUpper = isBlank := funext isBlank_toUpper
  simp only [trim, trimEnd, dropEndWhile, trimStart, upper, ← List.map_reverse,
    List.dropWhile_map, hblank]

theorem sameName_trimmed {a b : String} (h : sameName a b = true) :
    sameName (trimmed a) (trimmed b) = true := by
  rw [sameName_iff] at h ⊢
  rw [trimmed, trimmed, String.toList_ofList, String.toList_ofList, upper_trim, h, upper_trim]

/-- The empty name is the same as itself alone. -/
theorem eq_empty_iff_of_sameName {a b : String} (h : sameName a b = true) : a = "" ↔ b = "" := by
  have hlength := congrArg List.length (sameName_iff.1 h)
  rw [length_upper, length_upper] at hlength
  rw [← String.toList_eq_nil_iff, ← String.toList_eq_nil_iff, ← List.length_eq_zero_iff, hlength,
    List.length_eq_zero_iff]

/-- Names may be compared in any spelling. -/
theorem sameName_congr {a a' b b' : String} (ha : sameName a a' = true)
    (hb : sameName b b' = true) : sameName a b = sameName a' b' := by
  rw [Bool.eq_iff_iff, sameName_iff, sameName_iff, sameName_iff.1 ha, sameName_iff.1 hb]

namespace ExpectedNames

/-- Two expected names that are the same up to case are one. -/
theorem eq_of_sameName {expected : ExpectedNames} {a b : String}
    (ha : a ∈ expected.names) (hb : b ∈ expected.names) (h : sameName a b = true) : a = b := by
  by_contra hne
  have hsymm : Std.Symm fun a b : String => sameName a b = false :=
    ⟨fun a b hab => (sameName_comm b a).trans hab⟩
  have hdiffer : sameName a b = false := expected.distinct.forall ha hb hne
  rw [hdiffer] at h
  exact Bool.noConfusion h

/-! ## Positions -/

/-- The trimmed name at a position of a list; behind the end it is empty. -/
def nameAt (names : List String) (i : Nat) : String := trimmed (names.getD i "")

/-- The name at the position is not blank, and no name before it is the same up to case. -/
def IsKept (names : List String) (i : Nat) : Prop :=
  nameAt names i ≠ "" ∧ ∀ j < i, sameName (nameAt names j) (nameAt names i) = false

instance (names : List String) (i : Nat) : Decidable (IsKept names i) :=
  inferInstanceAs (Decidable (_ ∧ _))

/-- The positions of the names that are kept. -/
def keptPositions (names : List String) : List Nat :=
  (List.range names.length).filter fun i => IsKept names i

theorem nameAt_append {names : List String} {i : Nat} (h : i < names.length) (n : String) :
    nameAt (names ++ [n]) i = nameAt names i := by
  rw [nameAt, nameAt, List.getD_eq_getElem?_getD, List.getD_eq_getElem?_getD,
    List.getElem?_append_left h]

theorem nameAt_length (names : List String) (n : String) :
    nameAt (names ++ [n]) names.length = trimmed n := by
  rw [nameAt, List.getD_eq_getElem?_getD, List.getElem?_concat_length, Option.getD_some]

/-- One more name at the end does not change which of the others are kept. -/
theorem keptPositions_append (names : List String) (n : String) :
    keptPositions (names ++ [n]) = keptPositions names ++
      if IsKept (names ++ [n]) names.length then [names.length] else [] := by
  rw [keptPositions, List.length_append, List.length_singleton, List.range_succ,
    List.filter_append]
  have hothers : (List.range names.length).filter (fun i => IsKept (names ++ [n]) i) =
      keptPositions names := by
    refine List.filter_congr fun i hi => decide_eq_decide.2 ?_
    have hi := List.mem_range.1 hi
    have hbefore : (∀ j < i, sameName (nameAt (names ++ [n]) j) (nameAt names i) = false) ↔
        ∀ j < i, sameName (nameAt names j) (nameAt names i) = false :=
      forall₂_congr fun j hj => by rw [nameAt_append (Nat.lt_trans hj hi)]
    rw [IsKept, IsKept, nameAt_append hi, hbefore]
  rw [hothers, List.filter_singleton]
  refine congrArg (keptPositions names ++ ·) ?_
  by_cases h : IsKept (names ++ [n]) names.length
  · rw [decide_eq_true h, if_pos h]
    rfl
  · rw [decide_eq_false h, if_neg h]
    rfl

/-! ## The kept names -/

/-- A name at the end is dropped when it repeats another. -/
theorem dropRepeats_append (names : List String) (n : String) :
    dropRepeats (names ++ [n]) =
      dropRepeats names ++ if names.any (sameName · n) then [] else [n] := by
  induction names with
  | nil => rfl
  | cons m names ih =>
    rw [List.cons_append, dropRepeats, ih, List.filter_append, dropRepeats, List.cons_append,
      List.any_cons]
    let kept := (dropRepeats names).filter fun other => !sameName m other
    refine congrArg (fun rest => m :: (kept ++ rest)) ?_
    cases hany : names.any (sameName · n) with
    | true => rw [Bool.or_true]; rfl
    | false => cases hm : sameName m n <;> simp [hm]

theorem trimmedNonempty_append (names : List String) (n : String) :
    trimmedNonempty (names ++ [n]) =
      trimmedNonempty names ++ if trimmed n = "" then [] else [trimmed n] := by
  rw [trimmedNonempty, List.map_append, List.filter_append, List.map_singleton]
  refine congrArg (trimmedNonempty names ++ ·) ?_
  by_cases h : trimmed n = "" <;> simp [h]

/-- A name repeats one of the trimmed names exactly when it repeats the one at some position. -/
theorem any_trimmedNonempty_eq_false_iff (names : List String) {n : String} (hn : n ≠ "") :
    (trimmedNonempty names).any (sameName · n) = false ↔
      ∀ j < names.length, sameName (nameAt names j) n = false := by
  constructor
  · intro h j hj
    rw [Bool.eq_false_iff]
    intro hsame
    have hmem : nameAt names j ∈ trimmedNonempty names := by
      refine List.mem_filter.2 ⟨List.mem_map.2 ⟨names[j], List.getElem_mem hj, ?_⟩, ?_⟩
      · rw [nameAt, List.getD_eq_getElem?_getD, List.getElem?_eq_getElem hj, Option.getD_some]
      · simpa using fun hempty => hn ((eq_empty_iff_of_sameName hsame).1 hempty)
    rw [List.any_eq_false] at h
    exact h _ hmem hsame
  · intro h
    rw [List.any_eq_false]
    intro m hm
    obtain ⟨text, htext, rfl⟩ := List.mem_map.1 (List.mem_filter.1 hm).1
    obtain ⟨j, hj, rfl⟩ := List.getElem_of_mem htext
    have hat : nameAt names j = trimmed names[j] := by
      rw [nameAt, List.getD_eq_getElem?_getD, List.getElem?_eq_getElem hj, Option.getD_some]
    rw [← hat, h j hj]
    exact Bool.false_ne_true

/-- **The expected names are the trimmed ones at the kept positions.** -/
theorem names_ofList (names : List String) :
    (ofList names).names = (keptPositions names).map (nameAt names) := by
  induction names using List.reverseRecOn with
  | nil => rfl
  | append_singleton names n ih =>
    have hothers : (keptPositions names).map (nameAt (names ++ [n])) =
        (keptPositions names).map (nameAt names) := by
      refine List.map_congr_left fun i hi => ?_
      exact nameAt_append (List.mem_range.1 (List.mem_filter.1 hi).1) n
    have hkept : IsKept (names ++ [n]) names.length ↔ trimmed n ≠ "" ∧
        ∀ j < names.length, sameName (nameAt names j) (trimmed n) = false := by
      rw [IsKept, nameAt_length]
      exact and_congr_right fun _ => forall₂_congr fun j hj => by rw [nameAt_append hj]
    change dropRepeats (trimmedNonempty names) = _ at ih
    change dropRepeats (trimmedNonempty (names ++ [n])) = _
    rw [keptPositions_append, List.map_append, hothers, ← ih, trimmedNonempty_append]
    by_cases hn : trimmed n = ""
    · -- a blank name is not kept
      rw [if_pos hn, if_neg fun h => (hkept.1 h).1 hn, List.append_nil, List.map_nil,
        List.append_nil]
    · rw [if_neg hn, dropRepeats_append]
      refine congrArg (dropRepeats (trimmedNonempty names) ++ ·) ?_
      cases hany : (trimmedNonempty names).any (sameName · (trimmed n)) with
      | true =>
        rw [if_pos rfl, if_neg]
        · rfl
        · intro h
          rw [(any_trimmedNonempty_eq_false_iff names hn).2 (hkept.1 h).2] at hany
          exact Bool.noConfusion hany
      | false =>
        rw [if_neg Bool.false_ne_true, if_pos, List.map_singleton, nameAt_length]
        exact hkept.2 ⟨hn, (any_trimmedNonempty_eq_false_iff names hn).1 hany⟩

/-! ## Other spellings -/

section Spellings

variable {names names' : List String}

theorem sameName_nameAt (h : List.Forall₂ (fun a b => sameName a b = true) names names')
    (i : Nat) : sameName (nameAt names i) (nameAt names' i) = true := by
  refine sameName_trimmed ?_
  rw [List.getD_eq_getElem?_getD, List.getD_eq_getElem?_getD]
  by_cases hi : i < names.length
  · have hi' : i < names'.length := h.length_eq ▸ hi
    rw [List.getElem?_eq_getElem hi, List.getElem?_eq_getElem hi']
    exact h.get hi hi'
  · have hi' : ¬ i < names'.length := h.length_eq ▸ hi
    rw [List.getElem?_eq_none (Nat.not_lt.1 hi), List.getElem?_eq_none (Nat.not_lt.1 hi')]
    rfl

/-- Lists that are the same up to case keep the same positions. -/
theorem keptPositions_congr (h : List.Forall₂ (fun a b => sameName a b = true) names names') :
    keptPositions names = keptPositions names' := by
  rw [keptPositions, keptPositions, h.length_eq]
  refine List.filter_congr fun i _ => decide_eq_decide.2 ?_
  have hempty : nameAt names i = "" ↔ nameAt names' i = "" :=
    eq_empty_iff_of_sameName (sameName_nameAt h i)
  have hsame : ∀ j, sameName (nameAt names j) (nameAt names i) =
      sameName (nameAt names' j) (nameAt names' i) := fun j =>
    sameName_congr (sameName_nameAt h j) (sameName_nameAt h i)
  simp only [IsKept, hsame, ne_eq, hempty]

end Spellings

end ExpectedNames

end ProcedureCatalog
