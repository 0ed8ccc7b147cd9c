/-
# ASCII characters and their two forms

Facts about all ASCII characters are decided over their code points. From them follows what the
capital and the small form of a character have in common.

* `forall_ascii` : what holds of the code points below 128 holds of the ASCII characters.
* `toUpper_eq_iff` : two characters have one capital exactly when they have one small form.
-/
import Mathlib.Data.List.Basic
import ProcedureCatalog.Text.Ascii
import ProcedureCatalog.Text.Blank

namespace ProcedureCatalog.Text

/-- An ASCII character. -/
def IsAscii (c : Char) : Prop := c.toNat < 0x80

instance (c : Char) : Decidable (IsAscii c) := inferInstanceAs (Decidable (c.toNat < 0x80))

/-- What holds of the code points below 128 holds of the ASCII characters. -/
theorem forall_ascii {P : Char → Prop} (h : ∀ n < 0x80, P (Char.ofNat n)) {c : Char}
    (hc : IsAscii c) : P c := by
  have := h c.toNat hc
  rwa [Char.ofNat_toNat] at this

/-- Letters and digits are ASCII characters. -/
theorem isAscii_of_isAlphanum {c : Char} (h : c.isAlphanum = true) : IsAscii c := by
  have hranges : (65 ≤ c.toNat ∧ c.toNat ≤ 90 ∨ 97 ≤ c.toNat ∧ c.toNat ≤ 122) ∨
      48 ≤ c.toNat ∧ c.toNat ≤ 57 := by
    unfold Char.isAlphanum Char.isAlpha Char.isUpper Char.isLower Char.isDigit at h
    simpa [UInt32.le_iff_toNat_le] using h
  unfold IsAscii
  omega

/-! ## Capitals and small letters -/

/-- A character beyond ASCII is its own capital. -/
theorem toUpper_eq_self {c : Char} (hc : ¬ IsAscii c) : c.toUpper = c := by
  unfold Char.toUpper
  rw [dif_neg]
  rintro ⟨-, hle⟩
  have : c.toNat ≤ 0x7A := UInt32.le_iff_toNat_le.1 hle
  unfold IsAscii at hc
  omega

/-- A character beyond ASCII is its own small form. -/
theorem toLower_eq_self {c : Char} (hc : ¬ IsAscii c) : c.toLower = c := by
  unfold Char.toLower
  rw [dif_neg]
  rintro ⟨-, hle⟩
  have : c.toNat ≤ 0x5A := UInt32.le_iff_toNat_le.1 hle
  unfold IsAscii at hc
  omega

/-- The capital of a character is ASCII exactly when the character is. -/
theorem isAscii_toUpper {c : Char} : IsAscii c.toUpper ↔ IsAscii c := by
  by_cases hc : IsAscii c
  · have hupper : IsAscii c.toUpper :=
      forall_ascii (P := fun c => IsAscii c.toUpper) (by decide +kernel) hc
    simp [hc, hupper]
  · rw [toUpper_eq_self hc]

/-- The small form of a capital is that of the character. -/
theorem toLower_toUpper (c : Char) : c.toUpper.toLower = c.toLower := by
  by_cases hc : IsAscii c
  · exact forall_ascii (P := fun c => c.toUpper.toLower = c.toLower) (by decide +kernel) hc
  · rw [toUpper_eq_self hc]

/-- The capital of a small form is that of the character. -/
theorem toUpper_toLower (c : Char) : c.toLower.toUpper = c.toUpper := by
  by_cases hc : IsAscii c
  · exact forall_ascii (P := fun c => c.toLower.toUpper = c.toUpper) (by decide +kernel) hc
  · rw [toLower_eq_self hc]

/-- The capital of a capital is itself. -/
theorem toUpper_toUpper (c : Char) : c.toUpper.toUpper = c.toUpper := by
  rw [← toUpper_toLower c.toUpper, toLower_toUpper, toUpper_toLower]

/-- A text in capitals is its own text in capitals. -/
theorem upper_upper (cs : List Char) : upper (upper cs) = upper cs := by
  rw [upper, upper, List.map_map]
  exact List.map_congr_left fun c _ => toUpper_toUpper c

/-- Two characters have one capital exactly when they have one small form. -/
theorem toUpper_eq_iff {c d : Char} : c.toUpper = d.toUpper ↔ c.toLower = d.toLower := by
  constructor
  · intro h
    rw [← toLower_toUpper c, h, toLower_toUpper]
  · intro h
    rw [← toUpper_toLower c, h, toUpper_toLower]

/-- The ASCII small form of a character is a blank exactly when the character is. -/
theorem isBlank_toLower {c : Char} (hc : IsAscii c) : isBlank c.toLower = isBlank c :=
  forall_ascii (P := fun c => isBlank c.toLower = isBlank c) (by decide +kernel) hc

/-- The ASCII capital of a character is a blank exactly when the character is. -/
theorem isBlank_toUpper (c : Char) : isBlank c.toUpper = isBlank c := by
  by_cases hc : IsAscii c
  · exact forall_ascii (P := fun c => isBlank c.toUpper = isBlank c) (by decide +kernel) hc
  · rw [toUpper_eq_self hc]

/-- The ASCII capital of a character is a digit exactly when the character is. -/
theorem isDigit_toUpper (c : Char) : c.toUpper.isDigit = c.isDigit := by
  by_cases hc : IsAscii c
  · exact forall_ascii (P := fun c => c.toUpper.isDigit = c.isDigit) (by decide +kernel) hc
  · rw [toUpper_eq_self hc]

/-- A text in capitals is ASCII exactly when the text is. -/
theorem forall_isAscii_upper {cs : List Char} :
    (∀ c ∈ upper cs, IsAscii c) ↔ ∀ c ∈ cs, IsAscii c := by
  simp only [upper, List.forall_mem_map, isAscii_toUpper]

end ProcedureCatalog.Text
