/-
# The style of a text fits it

The style that is chosen for a text is one in which it can be read back, and what is written in this
style has only characters that need no escape.

* `fits_styleOf`, `fits_toString` : texts and numbers.
* `isPrintable_of_mem_renderScalar` : the characters of what is written.
* `unifyBreaks_eq_self`, `startCursor_eq` : the beginning of a document leaves such characters as
  they are.
-/
import ProcedureCatalog.Proofs.Yaml.LiteralScalars
import ProcedureCatalog.Proofs.Yaml.PlainScalars

namespace ProcedureCatalog.Yaml

/-! ## Styles -/

/-- The text starts with no indicator, and no colon or number sign in it is one. -/
structure HasNoIndicator (cs : List Char) : Prop where
  start : ∀ c ∈ cs.head?, c ∉ startIndicators
  notAlone : ∀ c ∈ cs.head?, c ∈ ['-', '?', ':'] → (cs.drop 1).head?.all isWordEnd = false
  colons : hasPair (· == ':') isWordEnd cs = false
  lastColon : cs.getLast? ≠ some ':'
  hashes : hasPair isWordEnd (· == '#') cs = false

/-- A text can be written in a style. -/
inductive Fits : ScalarStyle → List Char → Prop
  | plain {cs : List Char} (words : IsPlainText cs) (printable : ∀ c ∈ cs, isPrintable c = true)
      (clean : HasNoIndicator cs) : Fits .plain cs
  | singleQuoted {cs : List Char} (quotable : IsQuotable cs) : Fits .singleQuoted cs
  | doubleQuoted (cs : List Char) : Fits .doubleQuoted cs
  | literal {cs : List Char} (ne_nil : cs ≠ []) (printable : ∀ c ∈ cs, isPrintable c = true) :
      Fits .literal cs

/-- A pair is missing if a pair of a wider kind is. -/
theorem hasPair_mono {p q p' q' : Char → Bool} {cs : List Char} (h : hasPair p q cs = false)
    (hp : ∀ c, p' c = true → p c = true) (hq : ∀ c, q' c = true → q c = true) :
    hasPair p' q' cs = false := by
  rw [hasPair_eq_false_iff] at h ⊢
  refine h.imp fun c d hpair hc => ?_
  have hd : ¬ q d = true := by
    rw [hpair (hp c hc)]
    exact Bool.false_ne_true
  exact Bool.eq_false_iff.2 fun hd' => hd (hq d hd')

/-- What needs no escapes has only characters that need none, and no space before the end of a
line. -/
theorem printable_of_needsEscapes {cs : List Char} (h : needsEscapes cs = false) :
    (∀ c ∈ cs, isPrintable c = true) ∧ hasPair isSpace isBreak cs = false := by
  rw [needsEscapes, Bool.or_eq_false_iff, Bool.not_eq_false', List.all_eq_true] at h
  exact h

theorem hasNoIndicator_of_eq_false {cs : List Char} (h : hasIndicator cs = false) :
    HasNoIndicator cs := by
  simp only [hasIndicator, Bool.or_eq_false_iff, beq_eq_false_iff_ne] at h
  obtain ⟨⟨⟨⟨⟨-, hstart⟩, halone⟩, hcolons⟩, hlast⟩, hhashes⟩ := h
  refine ⟨fun c hc hmem => ?_, fun c hc hmem => ?_, hcolons, hlast, hhashes⟩
  · rw [Option.mem_def.1 hc, Option.any_some] at hstart
    simp [hmem] at hstart
  · rw [Option.mem_def.1 hc, Option.any_some, List.contains_eq_mem, decide_eq_true hmem,
      Bool.true_and] at halone
    exact halone

theorem isWordEnd_of_isGap {c : Char} (h : isGap c = true) : isWordEnd c = true := by
  rw [isWordEnd, h, Bool.true_or, Bool.true_or]

/-- A text without indicators, without ends of lines and without a space at its ends is one of
words. -/
theorem isPlainText_of_isPlain {cs : List Char} (hne : cs ≠ []) (h : isPlain cs = true) :
    IsPlainText cs ∧ (∀ c ∈ cs, isPrintable c = true) ∧ HasNoIndicator cs := by
  simp only [isPlain, Bool.and_eq_true, Bool.not_eq_true'] at h
  obtain ⟨⟨⟨⟨hfirst, hlast⟩, hbreaks⟩, hescapes⟩, hindicator⟩ := h
  have hclean := hasNoIndicator_of_eq_false hindicator
  have hprintable := (printable_of_needsEscapes hescapes).1
  have hspaces : ∀ c ∈ cs, isGap c = true → c = ' ' := fun c hc hgap =>
    (eq_space_or_isBreak (hprintable c hc) hgap).resolve_right fun hbreak => by
      rw [List.any_eq_false] at hbreaks
      exact hbreaks c hc hbreak
  refine ⟨⟨hne, fun c hc => ?_, fun hhash => ?_, hspaces, fun hspace => ?_, hclean.lastColon, ?_,
    ?_⟩, hprintable, hclean⟩
  · rw [Bool.eq_false_iff]
    intro hgap
    rw [Option.mem_def.1 hc, hspaces c (List.mem_of_mem_head? hc) hgap] at hfirst
    exact absurd hfirst (by decide)
  · exact hclean.start '#' hhash (by decide)
  · rw [hspace] at hlast
    exact absurd hlast (by decide)
  · exact hasPair_mono hclean.colons (fun _ hc => hc) fun _ hd => isWordEnd_of_isGap hd
  · exact hasPair_mono hclean.hashes (fun _ hc => isWordEnd_of_isGap hc) fun _ hd => hd

/-- The style of a text fits it. -/
theorem fits_styleOf (text : String) : Fits (styleOf text) text.toList := by
  rw [styleOf]
  split_ifs with hline hescape hplain hquote
  · exact .doubleQuoted _
  · rw [Bool.or_eq_true, not_or, Bool.not_eq_true, Bool.not_eq_true] at hescape
    refine .literal ?_ (printable_of_needsEscapes hescape.2).1
    intro hnil
    rw [hnil] at hline
    exact absurd hline (by decide)
  · rw [Bool.and_eq_true] at hplain
    have hne : text.toList ≠ [] := by
      intro hnil
      have hempty : text.isEmpty = true := by
        rw [String.isEmpty_iff]
        exact String.toList_eq_nil_iff.1 hnil
      have hreads := hplain.1
      rw [readsAsText, hempty] at hreads
      exact absurd hreads (by simp)
    obtain ⟨hwords, hprintable, hclean⟩ := isPlainText_of_isPlain hne hplain.2
    exact .plain hwords hprintable hclean
  · exact .doubleQuoted _
  · rw [Bool.or_eq_true, not_or, Bool.not_eq_true, Bool.not_eq_true] at hquote
    obtain ⟨hprintable, hbefore⟩ := printable_of_needsEscapes hquote.2
    refine .singleQuoted ⟨hprintable, fun hmem => ?_, hbefore, hquote.1⟩
    exact hline (by simpa using hmem)

/-- A text that is written plainly is read as a text. -/
theorem readsAsText_of_styleOf {text : String} (h : styleOf text = .plain) :
    readsAsText text = true := by
  rw [styleOf] at h
  split_ifs at h with hline hescape hplain hquote
  rw [Bool.and_eq_true] at hplain
  exact hplain.1

/-! ## Words of letters and digits -/

/-- A character of the names of fields, and of numbers. -/
def isKeyChar (c : Char) : Bool := c.isAlphanum || c == '_'

/-- Such a character has no meaning of its own. -/
theorem isKeyChar_spec {c : Char} (h : isKeyChar c = true) : isPrintable c = true ∧
    isWordEnd c = false ∧ c ∉ startIndicators ∧ c ∉ ['-', '?', ':', '.'] := by
  have hascii : isKeyChar c = true → Text.IsAscii c := by
    rw [isKeyChar, Bool.or_eq_true, beq_iff_eq]
    rintro (hletter | rfl)
    · exact Text.isAscii_of_isAlphanum hletter
    · decide
  exact Text.forall_ascii (P := fun c => isKeyChar c = true → isPrintable c = true ∧
    isWordEnd c = false ∧ c ∉ startIndicators ∧ c ∉ ['-', '?', ':', '.'])
    (by decide +kernel) (hascii h) h

theorem isGap_eq_false_of_isKeyChar {c : Char} (h : isKeyChar c = true) : isGap c = false := by
  have hend := (isKeyChar_spec h).2.1
  simp only [isWordEnd, Bool.or_eq_false_iff] at hend
  exact hend.1.1

/-- A pair is missing if the first of it is. -/
theorem hasPair_eq_false_of_forall {p q : Char → Bool} {cs : List Char}
    (h : ∀ c ∈ cs, p c = false) : hasPair p q cs = false := by
  rw [hasPair, List.any_eq_false]
  rintro ⟨c, d⟩ hpair
  rw [Bool.not_eq_true, Bool.and_eq_false_imp, h c (List.of_mem_zip hpair).1]
  exact fun hc => Bool.noConfusion hc

/-- A word of such characters can be written plainly. -/
theorem fits_plain_of_isKeyChar {cs : List Char} (hne : cs ≠ [])
    (h : ∀ c ∈ cs, isKeyChar c = true) : Fits .plain cs := by
  have hgap : ∀ c ∈ cs, isGap c = false := fun c hc => isGap_eq_false_of_isKeyChar (h c hc)
  have hsigns : ∀ c ∈ cs, c ≠ ':' ∧ c ≠ '#' ∧ c ≠ ' ' := fun c hc => by
    refine ⟨?_, ?_, ?_⟩ <;> rintro rfl <;> exact absurd (h _ hc) (by decide)
  have hcolons : ∀ c ∈ cs, (c == ':') = false := fun c hc =>
    beq_eq_false_iff_ne.2 (hsigns c hc).1
  have hlast : cs.getLast? ≠ some ':' := fun hmem =>
    (hsigns ':' (List.mem_of_mem_getLast? hmem)).1 rfl
  refine .plain ⟨hne, fun c hc => hgap c (List.mem_of_mem_head? hc), fun hmem => ?_,
    fun c hc hgap' => ?_, fun hmem => ?_, hlast, hasPair_eq_false_of_forall hcolons,
    hasPair_eq_false_of_forall hgap⟩ (fun c hc => (isKeyChar_spec (h c hc)).1)
    ⟨fun c hc => ?_, fun c hc hmem => ?_, hasPair_eq_false_of_forall hcolons, hlast,
      hasPair_eq_false_of_forall fun c hc => (isKeyChar_spec (h c hc)).2.1⟩
  · exact (hsigns '#' (List.mem_of_mem_head? hmem)).2.1 rfl
  · rw [hgap c hc] at hgap'
    exact Bool.noConfusion hgap'
  · exact (hsigns ' ' (List.mem_of_mem_getLast? hmem)).2.2 rfl
  · exact (isKeyChar_spec (h c (List.mem_of_mem_head? hc))).2.2.1
  · have hnot := (isKeyChar_spec (h c (List.mem_of_mem_head? hc))).2.2.2
    simp only [List.mem_cons, List.not_mem_nil, or_false, not_or] at hmem hnot
    tauto

/-- A number can be written plainly. -/
theorem fits_toString (n : Nat) : Fits .plain (toString n).toList := by
  rw [Nat.toString_eq_ofList_toDigits, String.toList_ofList]
  refine fits_plain_of_isKeyChar Nat.toDigits_ne_nil fun c hc => ?_
  have hdigit : c.isDigit = true := Nat.isDigit_of_mem_toDigits (by decide) (by decide) hc
  rw [isKeyChar, Char.isAlphanum, hdigit, Bool.or_true, Bool.true_or]

/-! ## The characters of what is written -/

theorem isPrintable_of_mem_spaces {n : Nat} {c : Char} (h : c ∈ spaces n) :
    isPrintable c = true := by
  rw [eq_space_of_mem_spaces h]
  decide

/-- The indentation of a line. -/
theorem isPrintable_of_mem_indent {indent : Nat} {afterBreak : Bool} :
    ∀ c ∈ (if afterBreak then spaces indent else []), isPrintable c = true := by
  intro c hc
  split at hc
  · exact isPrintable_of_mem_spaces hc
  · exact absurd hc List.not_mem_nil

/-- Between single quotes there are the characters of the text, spaces and quotes. -/
theorem isPrintable_of_mem_singleQuoted {indent : Nat} {cs : List Char}
    (h : ∀ c ∈ cs, isPrintable c = true) (afterBreak : Bool) :
    ∀ c ∈ singleQuotedFrom indent afterBreak cs, isPrintable c = true := by
  induction cs generalizing afterBreak with
  | nil =>
    rw [singleQuotedFrom, List.forall_mem_append]
    exact ⟨isPrintable_of_mem_indent, List.forall_mem_singleton.2 (by decide)⟩
  | cons c cs ih =>
    rw [List.forall_mem_cons] at h
    rw [singleQuotedFrom]
    split
    · exact List.forall_mem_cons.2 ⟨h.1, ih h.2 true⟩
    · rw [List.forall_mem_append, List.forall_mem_append]
      refine ⟨⟨isPrintable_of_mem_indent, ?_⟩, ih h.2 false⟩
      split <;> simp [h.1]

/-- The lines of a literal hold the characters of the text and spaces. -/
theorem isPrintable_of_mem_indentLines {indent : Nat} {cs : List Char}
    (h : ∀ c ∈ cs, isPrintable c = true) (afterBreak : Bool) :
    ∀ c ∈ indentLines indent afterBreak cs, isPrintable c = true := by
  induction cs generalizing afterBreak with
  | nil => exact fun c hc => absurd hc List.not_mem_nil
  | cons c cs ih =>
    rw [List.forall_mem_cons] at h
    rw [indentLines]
    split
    · exact List.forall_mem_cons.2 ⟨h.1, ih h.2 true⟩
    · rw [List.forall_mem_append, List.forall_mem_cons]
      exact ⟨isPrintable_of_mem_indent, h.1, ih h.2 false⟩

theorem isPrintable_of_mem_literalHeader {cs : List Char} (hne : cs ≠ []) :
    ∀ c ∈ literalHeader cs, isPrintable c = true := by
  obtain ⟨last, before, hreverse⟩ := List.exists_cons_of_ne_nil (List.reverse_ne_nil_iff.2 hne)
  rw [literalHeader_eq last before hreverse, hintMark, List.forall_mem_cons, List.forall_mem_append]
  refine ⟨by decide, ?_, ?_⟩
  · split
    · exact List.forall_mem_singleton.2 (by decide)
    · exact List.forall_mem_nil _
  · split_ifs
    · exact List.forall_mem_singleton.2 (by decide)
    · exact List.forall_mem_singleton.2 (by decide)
    · exact List.forall_mem_nil _

/-- What is written for a text in a style that fits it needs no escapes. -/
theorem isPrintable_of_mem_renderScalar {style : ScalarStyle} {text : String}
    (h : Fits style text.toList) (indent : Nat) :
    ∀ c ∈ renderScalar indent style text, isPrintable c = true := by
  have hend : ∀ c ∈ ['\n'], isPrintable c = true := List.forall_mem_singleton.2 (by decide)
  unfold renderScalar
  generalize text.toList = cs at h ⊢
  cases h with
  | plain _ hprintable _ => exact List.forall_mem_append.2 ⟨hprintable, hend⟩
  | singleQuoted hquotable =>
    rw [List.forall_mem_append, List.forall_mem_cons]
    exact ⟨⟨by decide, isPrintable_of_mem_singleQuoted hquotable.printable false⟩, hend⟩
  | doubleQuoted =>
    rw [List.forall_mem_append, List.forall_mem_cons, List.forall_mem_flatMap]
    exact ⟨⟨by decide, fun c _ e he => (isPrintable_of_mem_doubleQuotedChar he).1⟩,
      List.forall_mem_cons.2 ⟨by decide, hend⟩⟩
  | literal hne hprintable =>
    change ∀ c ∈ literal indent cs, isPrintable c = true
    rw [literal, List.forall_mem_append, List.forall_mem_append, List.forall_mem_append]
    refine ⟨⟨⟨isPrintable_of_mem_literalHeader hne, hend⟩,
      isPrintable_of_mem_indentLines hprintable true⟩, ?_⟩
    split
    · exact fun c hc => absurd hc List.not_mem_nil
    · exact hend

/-! ## The beginning of a document -/

/-- A character that needs no escape may stand in a document, where it is no end of a line of
another form and no byte order mark. -/
theorem isAllowed_of_isPrintable {c : Char} (h : isPrintable c = true) :
    isAllowed c = true ∧ c ≠ '\r' ∧ c ≠ nextLine ∧ c ≠ byteOrderMark := by
  refine ⟨?_, ?_, ?_, ?_⟩
  · simp only [isPrintable, Bool.or_eq_true, Bool.and_eq_true] at h
    simp only [isAllowed, Bool.or_eq_true, Bool.and_eq_true]
    tauto
  all_goals
    rintro rfl
    exact absurd h (by decide)

/-- Ends of lines of the one form stay. -/
theorem unifyBreaks_eq_self {cs : List Char} (h : ∀ c ∈ cs, isPrintable c = true) :
    unifyBreaks cs = cs := by
  induction cs with
  | nil => rfl
  | cons c cs ih =>
    rw [List.forall_mem_cons] at h
    obtain ⟨-, hreturn, hnext, -⟩ := isAllowed_of_isPrintable h.1
    have hother : (c == '\r' || c == nextLine) = false := by
      rw [beq_eq_false_iff_ne.2 hreturn, beq_eq_false_iff_ne.2 hnext]
      rfl
    rw [unifyBreaks, hother, ih h.2]
    · rfl
    · exact fun _ heq _ => hreturn heq

/-- A document without a byte order mark starts at its first character. -/
theorem startCursor_eq {cs : List Char} (h : ∀ c ∈ cs, isPrintable c = true) :
    startCursor cs = ⟨cs, ⟨0, 0, 0⟩⟩ := by
  have hmark : (cs.head? == some byteOrderMark) = false := by
    rw [beq_eq_false_iff_ne]
    intro hhead
    exact (isAllowed_of_isPrintable (h _ (List.mem_of_mem_head? hhead))).2.2.2 rfl
  simp only [startCursor, hmark, Bool.false_eq_true, if_false]

end ProcedureCatalog.Yaml
