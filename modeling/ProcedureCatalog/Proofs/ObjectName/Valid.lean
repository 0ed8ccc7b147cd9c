/-
# Valid names

What a name that passes validation is made of.

* `validate_eq_ok_iff` : the three rules that a name keeps when it passes.
* `IsValid.isAscii`, `IsValid.isBlank_eq_false` : what follows for its characters.
-/
import ProcedureCatalog.ObjectName
import ProcedureCatalog.Proofs.Text.AsciiCase

namespace ProcedureCatalog.ObjectName

open Text

/-- The rules for names together; a name that has a first character is not empty. -/
structure IsValid (name : List Char) : Prop where
  short : name.length ≤ maxLength
  plain : ∀ c ∈ name, isNameChar c = true
  start : name.head?.any isNameStart = true

/-- The characters of names are ASCII characters. -/
theorem isAscii_of_isNameChar {c : Char} (h : isNameChar c = true) : IsAscii c := by
  simp only [isNameChar, Bool.or_eq_true, beq_iff_eq] at h
  rcases h with ((((h | rfl) | rfl) | rfl) | rfl) | rfl
  · exact isAscii_of_isAlphanum h
  all_goals decide

/-- The characters of names are not blank. -/
theorem isBlank_eq_false_of_isNameChar {c : Char} (h : isNameChar c = true) :
    isBlank c = false :=
  forall_ascii (P := fun c => isNameChar c = true → isBlank c = false) (by decide +kernel)
    (isAscii_of_isNameChar h) h

namespace IsValid

variable {name : List Char}

theorem isAscii (h : IsValid name) : ∀ c ∈ name, IsAscii c :=
  fun c hc => isAscii_of_isNameChar (h.plain c hc)

theorem isBlank_eq_false (h : IsValid name) : ∀ c ∈ name, isBlank c = false :=
  fun c hc => isBlank_eq_false_of_isNameChar (h.plain c hc)

/-- A valid name has a first character, a letter or a sign. -/
theorem exists_cons (h : IsValid name) : ∃ c cs, name = c :: cs ∧ isNameStart c = true := by
  cases name with
  | nil => exact absurd h.start (by simp)
  | cons c cs => exact ⟨c, cs, rfl, by simpa using h.start⟩

/-- Trimming leaves a valid name alone. -/
theorem trim_eq_self (h : IsValid name) : trim name = name :=
  Text.trim_eq_self (fun c hc => h.isBlank_eq_false c (List.mem_of_mem_head? hc))
    fun c hc => h.isBlank_eq_false c (List.mem_of_mem_getLast? hc)

end IsValid

/-- A name passes validation exactly when it keeps the rules. -/
theorem validate_eq_ok_iff {kind : ObjectKind} {name : String} :
    validate kind name = .ok () ↔ IsValid name.toList := by
  unfold validate
  dsimp only
  constructor
  · intro h
    split at h
    · simp at h
    · split at h
      · simp at h
      · next hlength =>
        split at h
        · simp at h
        · next hplain =>
          split at h
          · next hstart => exact ⟨by omega, by simpa using hplain, hstart⟩
          · simp at h
  · intro h
    obtain ⟨c, cs, hname, -⟩ := h.exists_cons
    have hblank : allBlank name.toList = false := by
      have hc := h.isBlank_eq_false c (by simp [hname])
      simp [hname, allBlank, hc]
    have hplain : name.toList.find? (fun c => !isNameChar c) = none := by
      simpa using h.plain
    rw [hblank, if_neg Bool.false_ne_true, if_neg (Nat.not_lt.2 h.short), hplain]
    exact if_pos h.start

end ProcedureCatalog.ObjectName
