/-
# Blanks as ranges of code points

The blank characters form a few runs of code points, so that a table of characters is compared
with them range by range.

* `exists_blankRange` : a blank lies in one of the ranges.
* `isBlank_ofNat_eq_false` : what lies in none of the ranges is not blank.
-/
import Mathlib.Data.List.Basic
import ProcedureCatalog.Text.Blank

namespace ProcedureCatalog.Text

/-- The first and the last code point of each run of blanks. -/
def blankRanges : List (Nat × Nat) :=
  [(0x9, 0xD), (0x20, 0x20), (0x85, 0x85), (0xA0, 0xA0), (0x1680, 0x1680), (0x2000, 0x200A),
    (0x2028, 0x2029), (0x202F, 0x202F), (0x205F, 0x205F), (0x3000, 0x3000)]

theorem pos_of_mem_blankRanges : ∀ r ∈ blankRanges, 0 < r.1 := by decide

/-- A blank lies in one of the ranges. -/
theorem exists_blankRange {c : Char} (h : isBlank c = true) :
    ∃ r ∈ blankRanges, r.1 ≤ c.toNat ∧ c.toNat ≤ r.2 := by
  simp only [isBlank, Bool.or_eq_true, Bool.and_eq_true, decide_eq_true_eq, beq_iff_eq] at h
  simp only [blankRanges, List.mem_cons, List.not_mem_nil, or_false, exists_eq_or_imp,
    exists_eq_left]
  omega

/-- A character with a valid code point is not blank when the code point lies in no range. -/
theorem isBlank_ofNat_eq_false {n : Nat} (h : ∀ r ∈ blankRanges, n < r.1 ∨ r.2 < n) :
    isBlank (Char.ofNat n) = false := by
  by_contra hblank
  obtain ⟨r, hr, hlow, hhigh⟩ := exists_blankRange (by simpa using hblank)
  by_cases hvalid : n.isValidChar
  · have hn : (Char.ofNat n).toNat = n := by
      rw [Char.ofNat, dif_pos hvalid]
      rfl
    have := h r hr
    omega
  · -- an invalid code point stands for the null character, which is in no range
    have hzero : (Char.ofNat n).toNat = 0 := by
      rw [Char.ofNat, dif_neg hvalid]
      rfl
    have := pos_of_mem_blankRanges r hr
    omega

end ProcedureCatalog.Text
