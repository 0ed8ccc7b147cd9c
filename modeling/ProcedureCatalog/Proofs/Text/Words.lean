/-
# Words and collapsed texts

What the words of a text and its collapsed form are made of.

* `isInfix_of_mem_words` : a word stands in the text as it is.
* `mem_collapse_iff` : collapsing keeps what is not blank.
* `eq_space_of_mem_collapse` : the only blank of a collapsed text is the space.
* `head?_collapse_eq_false` : a collapsed text does not start with a blank.
* `collapse_eq_nil_iff` : a text collapses to nothing exactly when it is all blanks.
-/
import Mathlib.Data.List.Basic
import ProcedureCatalog.Text.Blank

namespace ProcedureCatalog.Text

/-- A nonempty text that does not start with a blank is not blank. -/
theorem allBlank_eq_false_of_head? {cs : List Char} (hne : cs ≠ [])
    (h : ∀ c ∈ cs.head?, isBlank c = false) : allBlank cs = false := by
  obtain ⟨c, rest, rfl⟩ := List.exists_cons_of_ne_nil hne
  simp [allBlank, h c (by simp)]

/-! ## Pieces -/

/-- A text has at least one piece. -/
theorem splitAtEach_ne_nil (p : Char → Bool) (cs : List Char) : splitAtEach p cs ≠ [] := by
  cases cs with
  | nil => simp [splitAtEach]
  | cons c cs =>
    simp only [splitAtEach]
    split
    · simp
    · split <;> simp

/-- The pieces are made of the characters of the text, and no separator stands inside a piece. -/
theorem mem_of_mem_splitAtEach {p : Char → Bool} {cs piece : List Char} {c : Char}
    (hpiece : piece ∈ splitAtEach p cs) (hc : c ∈ piece) : c ∈ cs ∧ p c = false := by
  induction cs generalizing piece with
  | nil =>
    have hnil : piece = [] := by simpa [splitAtEach] using hpiece
    simp [hnil] at hc
  | cons d cs ih =>
    by_cases hd : p d
    · rw [splitAtEach, if_pos hd] at hpiece
      rcases List.mem_cons.1 hpiece with rfl | hmem
      · simp at hc
      · exact ⟨List.mem_cons_of_mem _ (ih hmem hc).1, (ih hmem hc).2⟩
    · rw [splitAtEach, if_neg hd] at hpiece
      -- a character that is no separator joins the first piece of the rest
      cases hs : splitAtEach p cs with
      | nil => exact absurd hs (splitAtEach_ne_nil p cs)
      | cons first pieces =>
        rw [hs] at hpiece ih
        have hfirst : ∀ {q}, q ∈ first :: pieces → c ∈ q → c ∈ d :: cs ∧ p c = false :=
          fun hq hcq => ⟨List.mem_cons_of_mem _ (ih hq hcq).1, (ih hq hcq).2⟩
        rcases List.mem_cons.1 hpiece with rfl | hmem
        · rcases List.mem_cons.1 hc with rfl | hc
          · exact ⟨List.mem_cons_self, by simpa using hd⟩
          · exact hfirst List.mem_cons_self hc
        · exact hfirst (List.mem_cons_of_mem _ hmem) hc

/-- What is not a separator stands inside a piece. -/
theorem exists_mem_splitAtEach {p : Char → Bool} {cs : List Char} {c : Char} (hmem : c ∈ cs)
    (hc : p c = false) : ∃ piece ∈ splitAtEach p cs, c ∈ piece := by
  induction cs with
  | nil => simp at hmem
  | cons d cs ih =>
    by_cases hd : p d
    · rw [splitAtEach, if_pos hd]
      have hcs : c ∈ cs := by
        rcases List.mem_cons.1 hmem with rfl | h
        · simp [hc] at hd
        · exact h
      obtain ⟨piece, hpiece, hin⟩ := ih hcs
      exact ⟨piece, List.mem_cons_of_mem _ hpiece, hin⟩
    · rw [splitAtEach, if_neg hd]
      cases hs : splitAtEach p cs with
      | nil => exact absurd hs (splitAtEach_ne_nil p cs)
      | cons first pieces =>
        rcases List.mem_cons.1 hmem with rfl | h
        · exact ⟨c :: first, List.mem_cons_self, List.mem_cons_self⟩
        · obtain ⟨piece, hpiece, hin⟩ := ih h
          rw [hs] at hpiece
          rcases List.mem_cons.1 hpiece with rfl | hpiece
          · exact ⟨d :: piece, List.mem_cons_self, List.mem_cons_of_mem _ hin⟩
          · exact ⟨piece, List.mem_cons_of_mem _ hpiece, hin⟩

/-- The pieces of two texts with a separator between them. -/
theorem splitAtEach_append {p : Char → Bool} {sep : Char} (hsep : p sep = true)
    (cs ds : List Char) :
    splitAtEach p (cs ++ sep :: ds) = splitAtEach p cs ++ splitAtEach p ds := by
  induction cs with
  | nil => simp [splitAtEach, hsep]
  | cons c cs ih =>
    rw [List.cons_append, splitAtEach, splitAtEach, ih]
    split
    · rfl
    · obtain ⟨first, pieces, hs⟩ := List.exists_cons_of_ne_nil (splitAtEach_ne_nil p cs)
      rw [hs]
      rfl

/-- The first piece starts the text, and the others stand in it. -/
theorem isPrefix_and_isInfix_of_splitAtEach {p : Char → Bool} {cs first : List Char}
    {pieces : List (List Char)} (h : splitAtEach p cs = first :: pieces) :
    first <+: cs ∧ ∀ piece ∈ pieces, piece <:+: cs := by
  induction cs generalizing first pieces with
  | nil =>
    obtain ⟨rfl, rfl⟩ := List.cons.inj h
    exact ⟨List.nil_prefix, by simp⟩
  | cons c cs ih =>
    obtain ⟨next, rest, hs⟩ := List.exists_cons_of_ne_nil (splitAtEach_ne_nil p cs)
    obtain ⟨hnext, hrest⟩ := ih hs
    by_cases hc : p c
    · rw [splitAtEach, if_pos hc, hs] at h
      obtain ⟨rfl, rfl⟩ := List.cons.inj h
      refine ⟨List.nil_prefix, ?_⟩
      intro piece hpiece
      rcases List.mem_cons.1 hpiece with rfl | hpiece
      · exact List.infix_cons hnext.isInfix
      · exact List.infix_cons (hrest piece hpiece)
    · rw [splitAtEach, if_neg hc, hs] at h
      obtain ⟨rfl, rfl⟩ := List.cons.inj h
      exact ⟨List.cons_prefix_cons.2 ⟨rfl, hnext⟩,
        fun piece hpiece => List.infix_cons (hrest piece hpiece)⟩

/-! ## Words -/

/-- A word is not empty. -/
theorem ne_nil_of_mem_words {cs word : List Char} (h : word ∈ words cs) : word ≠ [] := by
  have := (List.mem_filter.1 h).2
  simpa using this

/-- A word is made of characters of the text that are not blank. -/
theorem mem_of_mem_words {cs word : List Char} {c : Char} (h : word ∈ words cs) (hc : c ∈ word) :
    c ∈ cs ∧ isBlank c = false :=
  mem_of_mem_splitAtEach (List.mem_filter.1 h).1 hc

/-- A word stands in the text as it is. -/
theorem isInfix_of_mem_words {cs word : List Char} (h : word ∈ words cs) : word <:+: cs := by
  obtain ⟨first, pieces, hs⟩ := List.exists_cons_of_ne_nil (splitAtEach_ne_nil isBlank cs)
  obtain ⟨hfirst, hpieces⟩ := isPrefix_and_isInfix_of_splitAtEach hs
  have hmem := (List.mem_filter.1 h).1
  rw [hs] at hmem
  rcases List.mem_cons.1 hmem with rfl | hmem
  · exact hfirst.isInfix
  · exact hpieces word hmem

/-- A character that is not a blank belongs to a word. -/
theorem exists_mem_words {cs : List Char} {c : Char} (hmem : c ∈ cs) (hc : isBlank c = false) :
    ∃ word ∈ words cs, c ∈ word := by
  obtain ⟨piece, hpiece, hin⟩ := exists_mem_splitAtEach hmem hc
  refine ⟨piece, List.mem_filter.2 ⟨hpiece, ?_⟩, hin⟩
  cases piece with
  | nil => simp at hin
  | cons d piece => rfl

/-- The words of two texts with a blank between them. -/
theorem words_append {blank : Char} (h : isBlank blank = true) (cs ds : List Char) :
    words (cs ++ blank :: ds) = words cs ++ words ds := by
  rw [words, splitAtEach_append h, List.filter_append, words, words]

/-! ## Joining -/

@[simp] theorem joinWith_cons_cons (sep first second : List Char) (pieces : List (List Char)) :
    joinWith sep (first :: second :: pieces) = first ++ sep ++ joinWith sep (second :: pieces) :=
  rfl

/-- A character of joined pieces comes from a piece or from the separator. -/
theorem mem_of_mem_joinWith {sep : List Char} {pieces : List (List Char)} {c : Char}
    (h : c ∈ joinWith sep pieces) : (∃ piece ∈ pieces, c ∈ piece) ∨ c ∈ sep := by
  induction pieces with
  | nil => simp [joinWith] at h
  | cons first pieces ih =>
    cases pieces with
    | nil => exact .inl ⟨first, List.mem_cons_self, h⟩
    | cons second pieces =>
      rw [joinWith_cons_cons, List.append_assoc, List.mem_append, List.mem_append] at h
      rcases h with h | h | h
      · exact .inl ⟨first, List.mem_cons_self, h⟩
      · exact .inr h
      · rcases ih h with ⟨piece, hpiece, hc⟩ | hc
        · exact .inl ⟨piece, List.mem_cons_of_mem _ hpiece, hc⟩
        · exact .inr hc

/-- The characters of a piece are characters of the joined text. -/
theorem mem_joinWith {sep piece : List Char} {pieces : List (List Char)} {c : Char}
    (h : piece ∈ pieces) (hc : c ∈ piece) : c ∈ joinWith sep pieces := by
  induction pieces with
  | nil => simp at h
  | cons first pieces ih =>
    cases pieces with
    | nil =>
      rw [List.mem_singleton.1 h] at hc
      exact hc
    | cons second pieces =>
      rw [joinWith_cons_cons, List.mem_append, List.mem_append]
      rcases List.mem_cons.1 h with rfl | h
      · exact .inl (.inl hc)
      · exact .inr (ih h)

/-- The words of joined pieces are those of the pieces. -/
theorem words_joinWith {blank : Char} (h : isBlank blank = true) (pieces : List (List Char)) :
    words (joinWith [blank] pieces) = pieces.flatMap words := by
  induction pieces with
  | nil => rfl
  | cons first pieces ih =>
    cases pieces with
    | nil => rw [List.flatMap_cons, List.flatMap_nil, List.append_nil, joinWith]
    | cons second pieces =>
      rw [joinWith_cons_cons, List.append_assoc, List.singleton_append, words_append h, ih]
      rfl

/-- Empty pieces have no words. -/
theorem flatMap_words_filter (pieces : List (List Char)) :
    (pieces.filter (!·.isEmpty)).flatMap words = pieces.flatMap words := by
  induction pieces with
  | nil => rfl
  | cons first pieces ih =>
    rw [List.flatMap_cons, ← ih]
    cases first with
    | nil => rfl
    | cons c first => rfl

/-- Joined pieces start like the first one, when that is not empty. -/
theorem head?_joinWith_cons {sep first : List Char} {pieces : List (List Char)}
    (h : first ≠ []) : (joinWith sep (first :: pieces)).head? = first.head? := by
  cases pieces with
  | nil => rfl
  | cons second pieces =>
    rw [joinWith_cons_cons, List.append_assoc, List.head?_append_of_ne_nil _ h]

/-! ## Collapsed texts -/

/-- Collapsing keeps the characters that are no blanks, and adds none. -/
theorem mem_collapse_iff {cs : List Char} {c : Char} (hc : isBlank c = false) :
    c ∈ collapse cs ↔ c ∈ cs := by
  constructor
  · intro h
    rcases mem_of_mem_joinWith h with ⟨word, hword, hin⟩ | hin
    · exact (mem_of_mem_words hword hin).1
    · rw [List.mem_singleton.1 hin] at hc
      exact absurd hc (by decide)
  · intro h
    obtain ⟨word, hword, hin⟩ := exists_mem_words h hc
    exact mem_joinWith hword hin

/-- A space is the only blank in a collapsed text. -/
theorem eq_space_of_mem_collapse {cs : List Char} {c : Char} (h : c ∈ collapse cs)
    (hc : isBlank c = true) : c = ' ' := by
  rcases mem_of_mem_joinWith h with ⟨word, hword, hin⟩ | hin
  · simp [(mem_of_mem_words hword hin).2] at hc
  · simpa using hin

/-- A collapsed text holds no line feed. -/
theorem newline_notMem_collapse (cs : List Char) : '\n' ∉ collapse cs := by
  intro h
  exact absurd (eq_space_of_mem_collapse h (by decide)) (by decide)

/-- A collapsed text does not start with a blank. -/
theorem head?_collapse_eq_false (cs : List Char) :
    ∀ c ∈ (collapse cs).head?, isBlank c = false := by
  intro c hc
  unfold collapse at hc
  cases hw : words cs with
  | nil => simp [hw, joinWith] at hc
  | cons word rest =>
    have hword : word ∈ words cs := by simp [hw]
    rw [hw, head?_joinWith_cons (ne_nil_of_mem_words hword)] at hc
    exact (mem_of_mem_words hword (List.mem_of_mem_head? hc)).2

/-- Only a text of blanks collapses to nothing. -/
theorem collapse_eq_nil_iff {cs : List Char} :
    collapse cs = [] ↔ ∀ c ∈ cs, isBlank c = true := by
  constructor
  · intro h c hc
    by_contra hb
    obtain ⟨word, hword, -⟩ := exists_mem_words hc (by simpa using hb)
    obtain ⟨first, rest, hw⟩ := List.exists_cons_of_ne_nil (List.ne_nil_of_mem hword)
    have hfirst : first ∈ words cs := by simp [hw]
    -- the collapsed text starts with its first word, which is not empty
    have hhead : (joinWith [' '] (first :: rest)).head? = first.head? :=
      head?_joinWith_cons (ne_nil_of_mem_words hfirst)
    rw [← hw, show joinWith [' '] (words cs) = [] from h] at hhead
    exact ne_nil_of_mem_words hfirst (List.head?_eq_none_iff.1 hhead.symm)
  · intro h
    cases hw : words cs with
    | nil => simp [collapse, hw, joinWith]
    | cons word rest =>
      have hword : word ∈ words cs := by simp [hw]
      obtain ⟨c, tail, rfl⟩ := List.exists_cons_of_ne_nil (ne_nil_of_mem_words hword)
      obtain ⟨hin, hfalse⟩ := mem_of_mem_words hword List.mem_cons_self
      simp [h c hin] at hfalse

end ProcedureCatalog.Text
