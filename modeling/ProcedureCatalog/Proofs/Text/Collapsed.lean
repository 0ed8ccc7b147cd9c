/-
# Collapsed texts

The texts that collapsing leaves as they are: no blank at either end, and inside only single
spaces.

* `isCollapsed_collapse` : collapsing gives such a text.
* `collapse_eq_self_iff` : these are exactly the texts that collapsing leaves alone.
* `IsCollapsed.of_isSuffix`, `IsCollapsed.trimEnd_of_isPrefix` : parts of such a text are such
  texts again.
-/
import Mathlib.Data.List.Chain
import ProcedureCatalog.Proofs.Text.Words

namespace ProcedureCatalog.Text

/-- The text has no blank at either end, no blank but the space, and no two blanks in a row. -/
structure IsCollapsed (cs : List Char) : Prop where
  head : ∀ c ∈ cs.head?, isBlank c = false
  last : ∀ c ∈ cs.getLast?, isBlank c = false
  space : ∀ c ∈ cs, isBlank c = true → c = ' '
  single : cs.IsChain fun c d => isBlank c = true → isBlank d = false

theorem isCollapsed_nil : IsCollapsed [] where
  head := by simp
  last := by simp
  space := by simp
  single := .nil

/-! ## Parts of collapsed texts -/

/-- An end of a collapsed text is collapsed, when it does not start with a blank. -/
theorem IsCollapsed.of_isSuffix {cs ds : List Char} (h : IsCollapsed cs) (hs : ds <:+ cs)
    (hhead : ∀ d ∈ ds.head?, isBlank d = false) : IsCollapsed ds where
  head := hhead
  last := by
    intro d hd
    obtain ⟨before, rfl⟩ := hs
    apply h.last
    rw [List.getLast?_append, hd]
    rfl
  space := fun d hd => h.space d (hs.subset hd)
  single := h.single.suffix hs

/-- A beginning of a collapsed text is collapsed, once it does not end with a blank. -/
theorem IsCollapsed.of_isPrefix {cs ds : List Char} (h : IsCollapsed cs) (hp : ds <+: cs)
    (hlast : ∀ d ∈ ds.getLast?, isBlank d = false) : IsCollapsed ds where
  head := by
    intro d hd
    obtain ⟨rest, rfl⟩ := hp
    apply h.head
    rw [List.head?_append, hd]
    rfl
  last := hlast
  space := fun d hd => h.space d (hp.subset hd)
  single := List.IsChain.prefix h.single hp

/-- Trimming removes nothing from the end of a collapsed text. -/
theorem IsCollapsed.trimEnd_eq_self {cs : List Char} (h : IsCollapsed cs) : trimEnd cs = cs :=
  dropEndWhile_eq_self h.last

/-- A beginning of a collapsed text, trimmed at its end, is collapsed. -/
theorem IsCollapsed.trimEnd_of_isPrefix {cs ds : List Char} (h : IsCollapsed cs) (hp : ds <+: cs) :
    IsCollapsed (trimEnd ds) := by
  obtain ⟨rest, hrest⟩ := exists_dropEndWhile_append (p := isBlank) ds
  have htrim : trimEnd ds <+: ds := ⟨rest, hrest⟩
  exact h.of_isPrefix (htrim.trans hp) (getLast?_dropEndWhile_eq_false ds)

/-- A mark without blanks may stand behind a beginning of a collapsed text, a blank at the end of
which then stays single. -/
theorem IsCollapsed.append_of_isPrefix {cs ds mark : List Char} (h : IsCollapsed cs)
    (hp : ds <+: cs) (hne : mark ≠ []) (hmark : ∀ c ∈ mark, isBlank c = false) :
    IsCollapsed (ds ++ mark) where
  head := by
    obtain ⟨rest, rfl⟩ := hp
    intro c hc
    cases ds with
    | nil => exact hmark c (List.mem_of_mem_head? hc)
    | cons d ds => exact h.head c hc
  last := by
    intro c hc
    rw [List.getLast?_append_of_ne_nil _ hne] at hc
    exact hmark c (List.mem_of_mem_getLast? hc)
  space := by
    intro c hc hblank
    rcases List.mem_append.1 hc with hc | hc
    · exact h.space c (hp.subset hc) hblank
    · rw [hmark c hc] at hblank
      contradiction
  single := by
    have hchain : mark.IsChain fun c d => isBlank c = true → isBlank d = false := by
      refine (List.pairwise_of_forall_mem_list ?_).isChain
      intro c _ d hd _
      exact hmark d hd
    have hstart := List.IsChain.prefix h.single hp
    refine hstart.append hchain ?_
    intro c _ d hd _
    exact hmark d (List.mem_of_mem_head? hd)

/-! ## Collapsing gives a collapsed text -/

/-- A word in front of a collapsed text that is not empty, and a space between them, make a
collapsed text. -/
theorem IsCollapsed.cons_word {word cs : List Char} (h : IsCollapsed cs) (hcs : cs ≠ [])
    (hne : word ≠ []) (hword : ∀ c ∈ word, isBlank c = false) :
    IsCollapsed (word ++ [' '] ++ cs) where
  head := by
    intro c hc
    rw [List.append_assoc, List.head?_append_of_ne_nil _ hne] at hc
    exact hword c (List.mem_of_mem_head? hc)
  last := by
    intro c hc
    rw [List.getLast?_append_of_ne_nil _ hcs] at hc
    exact h.last c hc
  space := by
    intro c hc hblank
    rcases List.mem_append.1 hc with hc | hc
    · rcases List.mem_append.1 hc with hc | hc
      · rw [hword c hc] at hblank
        contradiction
      · exact List.mem_singleton.1 hc
    · exact h.space c hc hblank
  single := by
    have hchain : (word ++ [' ']).IsChain fun c d => isBlank c = true → isBlank d = false := by
      refine List.IsChain.append (List.Pairwise.isChain ?_) (.singleton _) ?_
      · refine List.pairwise_of_forall_mem_list ?_
        intro c _ d hd _
        exact hword d hd
      · -- the last character of the word is no blank
        intro c hc d _ hblank
        rw [hword c (List.mem_of_mem_getLast? hc)] at hblank
        contradiction
    refine hchain.append h.single ?_
    intro c _ d hd _
    exact h.head d hd

/-- Words with single spaces between them make a collapsed text. -/
theorem isCollapsed_joinWith {words : List (List Char)}
    (h : ∀ word ∈ words, word ≠ [] ∧ ∀ c ∈ word, isBlank c = false) :
    IsCollapsed (joinWith [' '] words) := by
  induction words with
  | nil => exact isCollapsed_nil
  | cons first words ih =>
    obtain ⟨hne, hfirst⟩ := h first List.mem_cons_self
    cases words with
    | nil =>
      have := isCollapsed_nil.append_of_isPrefix List.nil_prefix hne hfirst
      rwa [List.nil_append] at this
    | cons second words =>
      rw [joinWith_cons_cons]
      refine (ih fun word hword => h word (List.mem_cons_of_mem _ hword)).cons_word ?_ hne hfirst
      -- the rest starts like its first word, which is not empty
      intro hnil
      have hsecond := (h second (by simp)).1
      have hhead : (joinWith [' '] (second :: words)).head? = second.head? :=
        head?_joinWith_cons hsecond
      rw [hnil] at hhead
      exact hsecond (List.head?_eq_none_iff.1 hhead.symm)

/-- Collapsing gives a collapsed text. -/
theorem isCollapsed_collapse (cs : List Char) : IsCollapsed (collapse cs) := by
  apply isCollapsed_joinWith
  intro word hword
  exact ⟨ne_nil_of_mem_words hword, fun c hc => (mem_of_mem_words hword hc).2⟩

/-! ## Collapsing changes no collapsed text -/

/-- The pieces, joined by the separator again, give the text back when it has no other
separator. -/
theorem joinWith_splitAtEach {p : Char → Bool} {sep : Char} {cs : List Char}
    (h : ∀ c ∈ cs, p c = true → c = sep) : joinWith [sep] (splitAtEach p cs) = cs := by
  induction cs with
  | nil => rfl
  | cons c cs ih =>
    have ih := ih fun d hd => h d (List.mem_cons_of_mem _ hd)
    obtain ⟨first, pieces, hs⟩ := List.exists_cons_of_ne_nil (splitAtEach_ne_nil p cs)
    rw [hs] at ih
    by_cases hc : p c = true
    · obtain rfl := h c List.mem_cons_self hc
      rw [splitAtEach, if_pos hc, hs, joinWith_cons_cons, ih]
      rfl
    · rw [splitAtEach, if_neg hc, hs]
      cases pieces with
      | nil =>
        rw [← ih]
        rfl
      | cons second pieces =>
        rw [joinWith_cons_cons] at ih
        change joinWith [sep] ((c :: first) :: second :: pieces) = c :: cs
        rw [joinWith_cons_cons, ← ih]
        rfl

/-- The first piece of a text that does not start with a separator is not empty. -/
theorem head?_splitAtEach_ne_nil {p : Char → Bool} {cs : List Char} (hne : cs ≠ [])
    (h : ∀ c ∈ cs.head?, p c = false) : ∀ piece ∈ (splitAtEach p cs).head?, piece ≠ [] := by
  obtain ⟨c, cs, rfl⟩ := List.exists_cons_of_ne_nil hne
  have hc : ¬ p c = true := by simpa using h c rfl
  obtain ⟨first, pieces, hs⟩ := List.exists_cons_of_ne_nil (splitAtEach_ne_nil p cs)
  intro piece hpiece
  rw [splitAtEach, if_neg hc, hs] at hpiece
  obtain rfl := Option.some.inj hpiece
  exact List.cons_ne_nil _ _

/-- Behind the first piece no piece is empty, when no two separators stand in a row and none
stands at the end. -/
theorem ne_nil_of_mem_tail_splitAtEach {p : Char → Bool} {cs : List Char}
    (hlast : ∀ c ∈ cs.getLast?, p c = false)
    (hchain : cs.IsChain fun c d => p c = true → p d = false) :
    ∀ piece ∈ (splitAtEach p cs).tail, piece ≠ [] := by
  induction cs with
  | nil => simp [splitAtEach]
  | cons c cs ih =>
    have hlast' : ∀ d ∈ cs.getLast?, p d = false := by
      intro d hd
      apply hlast
      rw [List.getLast?_cons, hd]
      rfl
    have ih := ih hlast' hchain.tail
    obtain ⟨first, pieces, hs⟩ := List.exists_cons_of_ne_nil (splitAtEach_ne_nil p cs)
    by_cases hc : p c = true
    · -- the separator is not the last character, and no separator follows it
      have hcs : cs ≠ [] := by
        rintro rfl
        rw [hlast c rfl] at hc
        contradiction
      have hhead := head?_splitAtEach_ne_nil hcs fun d hd => (List.isChain_cons.1 hchain).1 d hd hc
      rw [splitAtEach, if_pos hc, List.tail_cons]
      rw [hs] at ih hhead ⊢
      intro piece hpiece
      rcases List.mem_cons.1 hpiece with rfl | hpiece
      · exact hhead piece rfl
      · exact ih piece hpiece
    · rw [splitAtEach, if_neg hc]
      rw [hs] at ih ⊢
      exact ih

/-- A collapsed text that is not empty is made of its pieces between blanks, all of them words. -/
theorem IsCollapsed.words_eq {cs : List Char} (h : IsCollapsed cs) (hne : cs ≠ []) :
    words cs = splitAtEach isBlank cs := by
  have hhead := head?_splitAtEach_ne_nil hne h.head
  have htail := ne_nil_of_mem_tail_splitAtEach h.last h.single
  refine List.filter_eq_self.2 ?_
  intro piece hpiece
  obtain ⟨first, pieces, hs⟩ := List.exists_cons_of_ne_nil (splitAtEach_ne_nil isBlank cs)
  rw [hs] at hpiece hhead htail
  have hpiece : piece ≠ [] := by
    rcases List.mem_cons.1 hpiece with rfl | hpiece
    · exact hhead piece rfl
    · exact htail piece hpiece
  simpa using hpiece

/-- Collapsing changes no collapsed text. -/
theorem IsCollapsed.collapse_eq_self {cs : List Char} (h : IsCollapsed cs) : collapse cs = cs := by
  by_cases hne : cs = []
  · rw [hne]
    rfl
  · rw [collapse, h.words_eq hne, joinWith_splitAtEach h.space]

/-- Collapsing leaves exactly the collapsed texts alone. -/
theorem collapse_eq_self_iff {cs : List Char} : collapse cs = cs ↔ IsCollapsed cs := by
  constructor
  · intro h
    rw [← h]
    exact isCollapsed_collapse cs
  · exact IsCollapsed.collapse_eq_self

end ProcedureCatalog.Text
