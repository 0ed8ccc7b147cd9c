/-
# Numbers read back

The decimal and hexadecimal digits that are written for a number are read as this number.

* `hexNumber?_upperHex` : the digits of an escape.
* `unsigned?_toString` : the decimal digits of a number. They have no leading zero and no mark of a
  base.
-/
import Mathlib.Data.List.Basic
import Mathlib.Data.Nat.Digits.Defs
import ProcedureCatalog.Proofs.Text.AsciiCase
import ProcedureCatalog.Yaml.Printing

namespace ProcedureCatalog.Yaml

/-! ## Digits of any base -/

/-- What holds of zero, and of a number if it holds of the number without its last digit, holds of
every number. -/
theorem digits_induction {base : Nat} (hbase : 1 < base) {P : Nat → Prop}
    (small : ∀ n < base, P n) (large : ∀ n, base ≤ n → P (n / base) → P n) (n : Nat) : P n := by
  induction n using Nat.strongRecOn with
  | ind n ih =>
    by_cases h : n < base
    · exact small n h
    · have hle := Nat.le_of_not_lt h
      exact large n hle (ih _ (Nat.div_lt_self (by omega) hbase))

/-- A digit at the end. -/
theorem toDigits_of_le {base n : Nat} (hbase : 1 < base) (h : base ≤ n) :
    Nat.toDigits base n = Nat.toDigits base (n / base) ++ [Nat.digitChar (n % base)] := by
  rw [Nat.toDigits_eq_if hbase, if_neg (Nat.not_lt.2 h)]

/-- Reading digits one by one is reading a number in the base. -/
theorem foldlM_toDigits {base : Nat} (hbase : 1 < base) {step : Nat → Char → Option Nat}
    {f : Char → Char} (hstep : ∀ n d, d < base → step n (f (Nat.digitChar d)) = some (n * base + d))
    (n : Nat) : ((Nat.toDigits base n).map f).foldlM step 0 = some n := by
  induction n using digits_induction hbase with
  | small n h =>
    rw [Nat.toDigits_of_lt_base h, List.map_singleton, List.foldlM_cons, hstep 0 n h,
      Nat.zero_mul, Nat.zero_add]
    rfl
  | large n h ih =>
    rw [toDigits_of_le hbase h, List.map_append, List.foldlM_append, ih, List.map_singleton]
    change List.foldlM step (n / base) [f (Nat.digitChar (n % base))] = some n
    rw [List.foldlM_cons, hstep _ _ (Nat.mod_lt n (by omega)), Nat.div_add_mod']
    rfl

/-! ## Hexadecimal digits -/

theorem hexDigit?_digitChar : ∀ d < 16, hexDigit? (Nat.digitChar d) = some d := by decide

theorem hexDigit?_toUpper_digitChar :
    ∀ d < 16, hexDigit? (Nat.digitChar d).toUpper = some d := by decide

/-- The digits of a number are digits of the base. -/
theorem exists_of_mem_toDigits {base n : Nat} (hbase : 1 < base) {c : Char}
    (h : c ∈ Nat.toDigits base n) : ∃ d < base, c = Nat.digitChar d := by
  induction n using digits_induction hbase with
  | small n hn =>
    rw [Nat.toDigits_of_lt_base hn, List.mem_singleton] at h
    exact ⟨n, hn, h⟩
  | large n hn ih =>
    rw [toDigits_of_le hbase hn, List.mem_append, List.mem_singleton] at h
    rcases h with h | h
    · exact ih h
    · exact ⟨n % base, Nat.mod_lt n (by omega), h⟩

/-- Hexadecimal digits are letters and digits. -/
theorem isAlphanum_of_mem_upperHex {width n : Nat} {c : Char} (h : c ∈ upperHex width n) :
    c.isAlphanum = true := by
  rw [upperHex, List.mem_append, List.mem_map] at h
  rcases h with h | ⟨digit, hdigit, rfl⟩
  · rw [List.eq_of_mem_replicate h]
    rfl
  · obtain ⟨d, hd, rfl⟩ := exists_of_mem_toDigits (by decide) hdigit
    have hdigits : ∀ d < 16, (Nat.digitChar d).toUpper.isAlphanum = true := by decide
    exact hdigits d hd

theorem length_upperHex {width n : Nat} (hwidth : 0 < width) (h : n < 16 ^ width) :
    (upperHex width n).length = width := by
  have hlength : (Nat.toDigits 16 n).length ≤ width :=
    (Nat.length_toDigits_le_iff (by decide) hwidth).2 h
  rw [upperHex, List.length_append, List.length_replicate, List.length_map]
  omega

/-- The digits of an escape are read as its code point. -/
theorem hexNumber?_upperHex (width n : Nat) : hexNumber? (upperHex width n) = some n := by
  have hzeros : ∀ count, (List.replicate count '0').foldlM
      (fun n c => (hexDigit? c).map (n * 16 + ·)) 0 = some 0 := by
    intro count
    induction count with
    | zero => rfl
    | succ count ih => exact ih
  rw [hexNumber?, upperHex, List.foldlM_append, hzeros]
  refine foldlM_toDigits (by decide) (fun n d hd => ?_) n
  rw [hexDigit?_toUpper_digitChar d hd]
  rfl

/-! ## Decimal digits -/

/-- The digits of a number from ten on do not start with a zero. -/
theorem head?_toDigits_ne_zero {n : Nat} (h : 0 < n) : (Nat.toDigits 10 n).head? ≠ some '0' := by
  induction n using digits_induction (by decide : 1 < 10) with
  | small n hn =>
    rw [Nat.toDigits_of_lt_base hn, List.head?_cons]
    have hdigits : ∀ d < 10, 0 < d → some (Nat.digitChar d) ≠ some '0' := by decide
    exact hdigits n hn h
  | large n hn ih =>
    rw [toDigits_of_le (by decide) hn, List.head?_append_of_ne_nil _ Nat.toDigits_ne_nil]
    exact ih (Nat.div_pos hn (by decide))

/-- Digits have no sign. -/
theorem dropSign_of_isDigit {signs cs : List Char} (hsigns : signs.any Char.isDigit = false)
    (h : ∀ c ∈ cs, c.isDigit = true) : dropSign signs cs = cs := by
  cases cs with
  | nil => rfl
  | cons c cs =>
    have hc : signs.contains c = false := by
      rw [List.contains_eq_mem, decide_eq_false_iff_not]
      intro hmem
      exact List.any_eq_false.1 hsigns c hmem (h c List.mem_cons_self)
    rw [dropSign, List.head?_cons, Option.any_some, hc, if_neg Bool.false_ne_true]

/-- The digits of a number have no leading zero. -/
theorem hasLeadingZero_toDigits (n : Nat) : hasLeadingZero (Nat.toDigits 10 n) = false := by
  have hdigits : ∀ c ∈ Nat.toDigits 10 n, c.isDigit = true := fun c hc =>
    Nat.isDigit_of_mem_toDigits (by decide) (by decide) hc
  rw [hasLeadingZero, dropSign_of_isDigit (by decide) hdigits]
  by_cases hlength : 1 < (Nat.toDigits 10 n).length
  · have hpos : 0 < n := by
      rcases Nat.eq_zero_or_pos n with rfl | hpos
      · exact absurd hlength (by decide)
      · exact hpos
    have hhead := head?_toDigits_ne_zero hpos
    simp [hhead]
  · simp [hlength]

/-- Digits are no mark of a base. -/
theorem lookup_bases_of_isDigit {cs : List Char} (h : ∀ c ∈ cs, c.isDigit = true) :
    bases.lookup (cs.take 2) = none := by
  have hmarks : bases.all (fun base => base.1.any (!·.isDigit)) = true := by decide
  rw [List.lookup_eq_none_iff]
  intro base hbase
  obtain ⟨c, hc, hletter⟩ := List.any_eq_true.1 (List.all_eq_true.1 hmarks base hbase)
  rw [bne_iff_ne]
  intro heq
  have hdigit := h c (List.mem_of_mem_take (heq ▸ hc))
  rw [hdigit] at hletter
  exact Bool.noConfusion hletter

/-- The decimal digits of a number are read as this number. -/
theorem unsigned?_toString (n : Nat) : unsigned? (toString n) = some n := by
  have hdigits : ∀ c ∈ Nat.toDigits 10 n, c.isDigit = true := fun c hc =>
    Nat.isDigit_of_mem_toDigits (by decide) (by decide) hc
  have hnonempty : (Nat.toDigits 10 n).isEmpty = false := by simp
  rw [unsigned?, Nat.toString_eq_ofList_toDigits, String.toList_ofList, hasLeadingZero_toDigits,
    if_neg Bool.false_ne_true, dropSign_of_isDigit (by decide) hdigits, unsignedDigits?,
    lookup_bases_of_isDigit hdigits]
  change digitsIn? 10 (Nat.toDigits 10 n) = some n
  rw [digitsIn?, hnonempty, if_neg Bool.false_ne_true, ← List.map_id (Nat.toDigits 10 n)]
  refine foldlM_toDigits (by decide) (fun n d hd => ?_) n
  rw [id, hexDigit?_digitChar d (by omega)]
  exact if_pos hd

end ProcedureCatalog.Yaml
