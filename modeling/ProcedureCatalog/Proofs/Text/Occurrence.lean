/-
# Where a text stands

A part of a text together with what stands before and behind it, and the ways in which such a part
can be set off from its neighbours: as a run between blanks, between word boundaries, or as a
complete identifier.

* `isWord_of_isFoldedAlphanum`, `isWord_eq_false_of_isBlank` : letters, digits and blanks as word
  characters.
* `isBoundary_of_isWord`, `isBoundary_head?_append_cons` : a boundary beside a word character and
  before another one.
* `Occurrence` : a part of a text in its place.
-/
import ProcedureCatalog.Proofs.Text.BlankRanges
import ProcedureCatalog.Proofs.Text.Folding
import ProcedureCatalog.Text.Word

namespace ProcedureCatalog.Text

/-! ## Word characters -/

theorem isWord_of_isAscii {c : Char} (hc : IsAscii c) : isWord c = (c.isAlphanum || c == '_') :=
  if_pos hc

theorem isWord_of_not_isAscii {c : Char} (hc : ¬ IsAscii c) :
    isWord c = inRanges wordRanges c.toNat :=
  if_neg hc

theorem isWord_of_mem_lookalikes : ∀ c ∈ lookalikes, isWord c = true :=
  List.forall_iff_forall_mem.1 (by decide +kernel)

/-- A character that folds to a letter or digit is a word character. -/
theorem isWord_of_isFoldedAlphanum {c : Char} (h : isFoldedAlphanum c = true) :
    isWord c = true := by
  rcases isFoldedAlphanum_iff.1 h with hc | hc
  · rw [isWord_of_isAscii (isAscii_of_isAlphanum hc), hc, Bool.true_or]
  · exact isWord_of_mem_lookalikes c hc

/-- The ASCII capital of a character is a word character exactly when the character is. -/
theorem isWord_toUpper (c : Char) : isWord c.toUpper = isWord c := by
  by_cases hc : IsAscii c
  · exact forall_ascii (P := fun c => isWord c.toUpper = isWord c) (by decide +kernel) hc
  · rw [toUpper_eq_self hc]

/-- The runs of blanks and the runs of word characters have no code point in common. -/
theorem blankRanges_miss_wordRanges :
    (blankRanges.all fun r => wordRanges.all fun w => r.2 < w.1 || w.2 < r.1) = true := by
  decide +kernel

/-- No blank is a word character. -/
theorem isWord_eq_false_of_isBlank {c : Char} (h : isBlank c = true) : isWord c = false := by
  by_cases hc : IsAscii c
  · exact forall_ascii (P := fun c => isBlank c = true → isWord c = false) (by decide +kernel) hc h
  · obtain ⟨r, hr, hlow, hhigh⟩ := exists_blankRange h
    rw [isWord_of_not_isAscii hc, inRanges, List.any_eq_false]
    intro w hw
    have hmiss := List.all_eq_true.1 (List.all_eq_true.1 blankRanges_miss_wordRanges r hr) w hw
    simp only [Bool.or_eq_true, decide_eq_true_eq] at hmiss
    simp only [Bool.and_eq_true, decide_eq_true_eq]
    omega

/-- Next to a blank or an end of the text there is no word character. -/
theorem any_isWord_of_all_isBlank {c? : Option Char} (h : c?.all isBlank = true) :
    c?.any isWord = false := by
  cases c? with
  | none => rfl
  | some c => exact isWord_eq_false_of_isBlank h

/-! ## Signs of identifiers -/

/-- A character of an identifier that is no word character. -/
def isSign (c : Char) : Bool := c == '$' || c == '#' || c == '@'

theorem isSign_iff {c : Char} : isSign c = true ↔ c = '$' ∨ c = '#' ∨ c = '@' := by
  simp [isSign, or_assoc]

/-- Identifiers are made of word characters and signs. -/
theorem any_isIdentifier (c? : Option Char) :
    c?.any isIdentifier = (c?.any isWord || c?.any isSign) := by
  cases c? with
  | none => rfl
  | some c => simp [isIdentifier, isSign, Bool.or_assoc]

/-- No blank is a character of an identifier. -/
theorem isIdentifier_eq_false_of_isBlank {c : Char} (h : isBlank c = true) :
    isIdentifier c = false := by
  have hsign : isSign c = false := by
    by_contra hsign
    rcases isSign_iff.1 (by simpa using hsign) with rfl | rfl | rfl <;> simp [isBlank] at h
  have hboth := any_isIdentifier (some c)
  rwa [Option.any_some, Option.any_some, Option.any_some, isWord_eq_false_of_isBlank h,
    hsign] at hboth

/-- No character of an identifier is blank. -/
theorem isBlank_eq_false_of_isIdentifier {c : Char} (h : isIdentifier c = true) :
    isBlank c = false := by
  by_contra hblank
  rw [isIdentifier_eq_false_of_isBlank (by simpa using hblank)] at h
  exact Bool.noConfusion h

/-- A sign is no word character. -/
theorem isWord_eq_false_of_isSign {c : Char} (h : isSign c = true) : isWord c = false := by
  rcases isSign_iff.1 h with rfl | rfl | rfl <;> decide

/-- Only a sign itself folds to a sign. -/
theorem eq_of_fold_eq_of_isSign {c d : Char} (hd : isSign d = true) (h : fold c = fold d) :
    c = d := by
  have hsign : IsAscii d ∧ d.isAlphanum = false := by
    rcases isSign_iff.1 hd with rfl | rfl | rfl <;> decide
  exact eq_of_fold_eq hsign.1 hsign.2 h

/-! ## Boundaries -/

/-- Behind a word character there is a boundary where no word character follows. -/
theorem isBoundary_of_isWord {before after : Option Char} (h : before.any isWord = true) :
    isBoundary before after = !after.any isWord := by
  rw [isBoundary, h]
  cases after.any isWord <;> rfl

theorem isBoundary_comm (before after : Option Char) :
    isBoundary before after = isBoundary after before :=
  bne_comm

/-- A character that is no word character bounds a text like its end. -/
theorem any_head?_append_cons {p : Char → Bool} {sep : Char} (h : p sep = false)
    (cs rest : List Char) : (cs ++ sep :: rest).head?.any p = cs.head?.any p := by
  cases cs with
  | nil => simp [h]
  | cons c cs => rfl

/-- So before such a character there is a boundary where there would be one at the end. -/
theorem isBoundary_head?_append_cons {sep : Char} (h : isWord sep = false) (before : Option Char)
    (cs rest : List Char) :
    isBoundary before (cs ++ sep :: rest).head? = isBoundary before cs.head? := by
  rw [isBoundary, isBoundary, any_head?_append_cons h]

/-- What stands before the end of a text that starts with a character, behind `before`. -/
theorem getLast?_cons_or (c : Char) (front : List Char) (before : Option Char) :
    (c :: front).getLast?.or before = front.getLast?.or (some c) := by
  rw [List.getLast?_cons]
  cases front.getLast? <;> rfl

/-- A part without the separator ends before it. -/
theorem exists_of_append_separator {sep : Char} {cs rest text after : List Char}
    (h : cs ++ sep :: rest = text ++ after) (hsep : sep ∉ text) :
    ∃ cs', cs = text ++ cs' ∧ after = cs' ++ sep :: rest := by
  rcases List.append_eq_append_iff.1 h with ⟨more, htext, hrest⟩ | ⟨cs', hcs, hafter⟩
  · cases more with
    | nil => exact ⟨[], by rw [htext, List.append_nil, List.append_nil], hrest.symm⟩
    | cons c more =>
      obtain ⟨rfl, -⟩ := List.cons.inj hrest
      exact absurd (by simp [htext]) hsep
  · exact ⟨cs', hcs, hafter⟩

/-! ## Parts of a text in their place -/

/-- A part of a text with what stands before and behind it. -/
structure Occurrence (cs : List Char) where
  before : List Char
  text : List Char
  after : List Char
  joined : before ++ (text ++ after) = cs

namespace Occurrence

variable {cs : List Char}

/-- A part of a text is one in capitals too. -/
theorem isInfix_upper (o : Occurrence cs) : upper o.text <:+: upper cs := by
  refine ⟨upper o.before, upper o.after, ?_⟩
  rw [← upper_append, ← upper_append, List.append_assoc, o.joined]

/-- The part is a longest run of characters that are not blank. -/
structure IsRun (o : Occurrence cs) : Prop where
  nonempty : o.text ≠ []
  solid : ∀ c ∈ o.text, isBlank c = false
  first : o.before.getLast?.all isBlank = true
  last : o.after.head?.all isBlank = true

/-- The part stands between two word boundaries. -/
structure IsBounded (o : Occurrence cs) : Prop where
  first : isBoundary o.before.getLast? o.text.head? = true
  last : isBoundary o.text.getLast? o.after.head? = true

/-- No neighbour of the part is a character of an identifier. -/
structure IsComplete (o : Occurrence cs) : Prop where
  first : o.before.getLast?.any isIdentifier = false
  last : o.after.head?.any isIdentifier = false

/-- A neighbour of the part is a sign. -/
def TouchesSign (o : Occurrence cs) : Prop :=
  o.before.getLast?.any isSign = true ∨ o.after.head?.any isSign = true

end Occurrence

end ProcedureCatalog.Text
