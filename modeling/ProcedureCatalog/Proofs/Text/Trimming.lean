/-
# What trimming removes

Trimming removes blanks at the two ends of a text and nothing else.

* `exists_trimStart`, `exists_dropEndWhile_append_all`, `exists_trim` : what goes at either end.
* `dropWhile_eq_iff`, `dropEndWhile_eq_iff` : what is left of a text without a run at one end.
* `trimStart_append` : blanks go in front of a text that does not start with one.
* `takeWhile_append_eq`, `dropWhile_append_eq` : a run is taken, or dropped, up to its end.
* `trim_ne_nil` : a text that is not blank is not trimmed away.
-/
import Mathlib.Data.List.TakeWhile
import ProcedureCatalog.Text.Blank

namespace ProcedureCatalog.Text

/-- The blanks at the start of a text are what trimming its start removes. -/
theorem exists_trimStart (cs : List Char) :
    ∃ blanks, (∀ c ∈ blanks, isBlank c = true) ∧ blanks ++ trimStart cs = cs :=
  ⟨cs.takeWhile isBlank, fun _ hc => List.mem_takeWhile_imp hc, List.takeWhile_append_dropWhile⟩

/-- A run of characters in `p` is dropped up to the first character outside. -/
theorem dropWhile_append_eq {p : Char → Bool} {run rest : List Char}
    (hrun : ∀ c ∈ run, p c = true) (hrest : ∀ c ∈ rest.head?, p c = false) :
    (run ++ rest).dropWhile p = rest := by
  rw [List.dropWhile_append_of_pos hrun, dropWhile_eq_self hrest]

/-- What is left when a run is dropped at the start. -/
theorem dropWhile_eq_iff {p : Char → Bool} {cs rest : List Char} :
    cs.dropWhile p = rest ↔ ∃ run, cs = run ++ rest ∧ (∀ c ∈ run, p c = true) ∧
      ∀ c ∈ rest.head?, p c = false := by
  constructor
  · rintro rfl
    refine ⟨cs.takeWhile p, List.takeWhile_append_dropWhile.symm, ?_, head?_dropWhile_eq_false cs⟩
    intro c hc
    exact List.mem_takeWhile_imp hc
  · rintro ⟨run, rfl, hrun, hrest⟩
    exact dropWhile_append_eq hrun hrest

/-- A run of characters in `p` is taken up to the first character outside. -/
theorem takeWhile_append_eq {p : Char → Bool} {run rest : List Char}
    (hrun : ∀ c ∈ run, p c = true) (hrest : ∀ c ∈ rest.head?, p c = false) :
    (run ++ rest).takeWhile p = run := by
  have hsplit := List.takeWhile_append_dropWhile (p := p) (l := run ++ rest)
  rw [dropWhile_append_eq hrun hrest] at hsplit
  exact List.append_cancel_right hsplit

/-- Trimming removes blanks in front of a text that does not start with one. -/
theorem trimStart_append {blanks cs : List Char} (hblanks : ∀ c ∈ blanks, isBlank c = true)
    (hcs : ∀ c ∈ cs.head?, isBlank c = false) : trimStart (blanks ++ cs) = cs :=
  dropWhile_append_eq hblanks hcs

/-- What is dropped at the end of a text satisfies the condition for dropping. -/
theorem exists_dropEndWhile_append_all {p : Char → Bool} (cs : List Char) :
    ∃ rest, dropEndWhile p cs ++ rest = cs ∧ ∀ c ∈ rest, p c = true := by
  refine ⟨(cs.reverse.takeWhile p).reverse, ?_, ?_⟩
  · rw [dropEndWhile, ← List.reverse_append, List.takeWhile_append_dropWhile, List.reverse_reverse]
  · intro c hc
    exact List.mem_takeWhile_imp (List.mem_reverse.1 hc)

/-- What satisfies the condition for dropping is dropped at the end of a text. -/
theorem dropEndWhile_append {p : Char → Bool} {rest : List Char} (h : ∀ c ∈ rest, p c = true)
    (cs : List Char) : dropEndWhile p (cs ++ rest) = dropEndWhile p cs := by
  rw [dropEndWhile, List.reverse_append, List.dropWhile_append_of_pos, dropEndWhile]
  intro c hc
  exact h c (List.mem_reverse.1 hc)

/-- What is left when a run is dropped at the end. -/
theorem dropEndWhile_eq_iff {p : Char → Bool} {cs front : List Char} :
    dropEndWhile p cs = front ↔ ∃ run, cs = front ++ run ∧ (∀ c ∈ run, p c = true) ∧
      ∀ c ∈ front.getLast?, p c = false := by
  constructor
  · rintro rfl
    obtain ⟨run, hsplit, hrun⟩ := exists_dropEndWhile_append_all (p := p) cs
    exact ⟨run, hsplit.symm, hrun, getLast?_dropEndWhile_eq_false cs⟩
  · rintro ⟨run, rfl, hrun, hfront⟩
    rw [dropEndWhile_append hrun, dropEndWhile_eq_self hfront]

/-- The blanks at both ends of a text are what trimming removes. -/
theorem exists_trim (cs : List Char) : ∃ before after, before ++ (trim cs ++ after) = cs ∧
    (∀ c ∈ before, isBlank c = true) ∧ ∀ c ∈ after, isBlank c = true := by
  obtain ⟨before, hbefore, hstart⟩ := exists_trimStart cs
  obtain ⟨after, hend, hafter⟩ := exists_dropEndWhile_append_all (p := isBlank) (trimStart cs)
  refine ⟨before, after, ?_, hbefore, hafter⟩
  show before ++ (dropEndWhile isBlank (trimStart cs) ++ after) = cs
  rw [hend, hstart]

/-- What stands behind a character that is not blank is trimmed by itself. -/
theorem trimEnd_append_of_getLast? {cs : List Char}
    (hlast : ∀ c ∈ cs.getLast?, isBlank c = false) (rest : List Char) :
    trimEnd (cs ++ rest) = cs ++ trimEnd rest := by
  have hself : cs.reverse.dropWhile isBlank = cs.reverse := by
    apply dropWhile_eq_self
    rwa [List.head?_reverse]
  rw [trimEnd, trimEnd, dropEndWhile, dropEndWhile, List.reverse_append, List.dropWhile_append]
  split
  · next hempty =>
    rw [hself, List.isEmpty_iff.1 hempty, List.reverse_reverse, List.reverse_nil, List.append_nil]
  · rw [List.reverse_append, List.reverse_reverse]

/-- Trimming brings no character in. -/
theorem mem_of_mem_trim {cs : List Char} {c : Char} (h : c ∈ trim cs) : c ∈ cs := by
  obtain ⟨before, after, hsplit, -, -⟩ := exists_trim cs
  rw [← hsplit]
  exact List.mem_append_right _ (List.mem_append_left _ h)

/-- A text that is not blank is not trimmed away. -/
theorem trim_ne_nil {cs : List Char} (h : allBlank cs = false) : trim cs ≠ [] := by
  intro hnil
  obtain ⟨before, after, hsplit, hbefore, hafter⟩ := exists_trim cs
  rw [hnil, List.nil_append] at hsplit
  have hblank : allBlank cs = true := by
    rw [allBlank, List.all_eq_true, ← hsplit]
    intro c hc
    rcases List.mem_append.1 hc with hc | hc
    · exact hbefore c hc
    · exact hafter c hc
  rw [hblank] at h
  exact Bool.noConfusion h

end ProcedureCatalog.Text
