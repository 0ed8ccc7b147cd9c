/-
# One pass of shortening

Shortening acts on the covered rows, on each by itself, and counts those that have a shorter text. It
fails when the table refuses a row, which would keep an unknown source.

* `shortenRow_shortenRow` : a shortened row is not shortened again.
* `ShortensTo` : what shortening makes of a row.
* `HasRefused` : why a pass fails.
* `shorten_eq_shortenWhere` : shortening is a pass over the rows that the filter covers.
-/
import ProcedureCatalog.Proofs.Catalog.Rows
import ProcedureCatalog.Proofs.Description.NormalForm

namespace ProcedureCatalog.Catalog

open Description

variable {c : Catalog} {r : StoredProcedure} {now : String}

/-! ## Rows that are shortened -/

/-- Shortening would leave the row a description with an unknown source. -/
def isRefused (r : StoredProcedure) : Bool :=
  (shorterText? r).any (fun text => !text.isEmpty) && !hasKnownSource r

/-- A row that is shortened has a known source then, unless it is refused. -/
theorem hasKnownSource_shortenRow_of_isSome (h : (shorterText? r).isSome = true) :
    hasKnownSource (shortenRow now r) = !isRefused r := by
  obtain ⟨text, htext⟩ := Option.isSome_iff_exists.1 h
  rw [shortenRow, isRefused, htext]
  simp only [replaceText, Option.any_some]
  cases text.isEmpty with
  | true => rfl
  | false => simp [hasKnownSource]

/-- A shortened row is not shortened again. -/
theorem shorterText?_shortenRow (now : String) (r : StoredProcedure) :
    shorterText? (shortenRow now r) = none := by
  cases htext : shorterText? r with
  | none => rw [shortenRow, htext, htext]
  | some text =>
    obtain ⟨old, -, rfl, -⟩ := shorterText?_eq_some htext
    rw [shortenRow, htext]
    simp only [replaceText]
    split
    · rfl
    · simp [shorterText?, normalize_normalize]

theorem shortenRow_shortenRow (now later : String) (r : StoredProcedure) :
    shortenRow later (shortenRow now r) = shortenRow now r := by
  rw [shortenRow, shorterText?_shortenRow]

/-- What shortening at a time makes of a row. -/
inductive ShortensTo (now : String) : StoredProcedure → StoredProcedure → Prop
  /-- There is no shorter text, and the row stays as it is. -/
  | kept {r : StoredProcedure} : shorterText? r = none → ShortensTo now r r
  /-- The description is replaced by its normal form, and the source is kept. -/
  | normalized {r : StoredProcedure} {text : String} :
    (shorterText? r).isSome = true → r.description = some text →
    Description.normalize text ≠ "" →
    ShortensTo now r { r with description := some (Description.normalize text), updatedAt := now }
  /-- The normal form is empty, and description and source are removed. -/
  | cleared {r : StoredProcedure} {text : String} :
    (shorterText? r).isSome = true → r.description = some text →
    Description.normalize text = "" →
    ShortensTo now r { r with description := none, source := none, updatedAt := now }

theorem shortensTo_shortenRow (now : String) (r : StoredProcedure) :
    ShortensTo now r (shortenRow now r) := by
  unfold shortenRow
  split
  · next text htext =>
    have hsome : (shorterText? r).isSome = true := Option.isSome_of_eq_some htext
    obtain ⟨old, hold, rfl, -⟩ := shorterText?_eq_some htext
    unfold replaceText
    split
    · next hempty => exact .cleared hsome hold (by simpa using hempty)
    · next hfull => exact .normalized hsome hold (by simpa using hfull)
  · next hnone => exact .kept hnone

/-! ## Shortening the rows that pass a test -/

/-- One of the rows that pass the test is refused. -/
def HasRefused (c : Catalog) (covered : StoredProcedure → Bool) : Prop :=
  ∃ r ∈ c.procedures, covered r = true ∧ isRefused r = true

instance (c : Catalog) (covered : StoredProcedure → Bool) : Decidable (c.HasRefused covered) :=
  inferInstanceAs (Decidable (∃ r ∈ c.procedures, covered r = true ∧ isRefused r = true))

/-- The catalog with the rows that pass the test shortened. -/
def shortenRows (c : Catalog) (covered : StoredProcedure → Bool) (now : String) : Catalog :=
  { c with procedures := c.procedures.map fun r => if covered r then shortenRow now r else r }

/-- The number of rows that pass the test and are shortened. -/
def countShorter (c : Catalog) (covered : StoredProcedure → Bool) : Nat :=
  c.procedures.countP fun r => covered r && (shorterText? r).isSome

/-- The rows that pass the test are shortened and counted, unless one of them is refused. -/
def shortenWhere (c : Catalog) (covered : StoredProcedure → Bool) (now : String) :
    Except CatalogError (Catalog × Nat) :=
  if c.HasRefused covered then .error (.statement .checkFailed)
  else .ok (c.shortenRows covered now, c.countShorter covered)

theorem shorten_eq_shortenWhere (c : Catalog) (filter : Option (String × String)) (now : String) :
    c.shorten filter now = c.shortenWhere (isCovered filter) now := by
  have hrefused : (c.procedures.filter fun r => isCovered filter r && (shorterText? r).isSome).all
      (fun r => hasKnownSource (shortenRow now r)) = true ↔ ¬ c.HasRefused (isCovered filter) := by
    simp only [List.all_eq_true, List.mem_filter, HasRefused, Bool.and_eq_true, not_exists, not_and]
    refine forall_congr' fun r => ?_
    cases hsome : (shorterText? r).isSome with
    | true => simp [hasKnownSource_shortenRow_of_isSome hsome]
    | false =>
      have hnone : shorterText? r = none := by simpa using hsome
      simp [isRefused, hnone]
  unfold shorten shortenWhere
  dsimp only
  rw [← List.countP_eq_length_filter]
  by_cases h : c.HasRefused (isCovered filter)
  · rw [if_pos h, if_neg (not_imp_not.2 hrefused.1 (not_not.2 h))]
  · rw [if_neg h, if_pos (hrefused.2 h)]
    rfl

end ProcedureCatalog.Catalog
