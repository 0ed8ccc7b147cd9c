/-
# The normal form of collapsed descriptions

Normalization keeps a text collapsed, whichever of its ways it takes: the text as it is, the body
of a banner, the first segment with text, or a cut with an ellipsis.

* `isCollapsed_condense` : a condensed text is collapsed, whatever it came from.
* `isCollapsed_normalizeChars` : the normal form of a collapsed text is collapsed.
* `startsPlain_normalizeChars` : it starts with neither a dash nor a double slash.
-/
import ProcedureCatalog.Proofs.Description.NormalForm
import ProcedureCatalog.Proofs.Text.Collapsed

namespace ProcedureCatalog.Description

open Text

/-! ## Plain starts -/

/-- An undecorated text that does not start with a blank starts plainly. -/
theorem startsPlain_of_isDecorated {cs : List Char} (hblank : ∀ c ∈ cs.head?, isBlank c = false)
    (h : isDecorated cs = false) : StartsPlain cs := by
  cases cs with
  | nil => trivial
  | cons c cs =>
    have hc : isBlank c = false := hblank c rfl
    have hstart : trimStart (c :: cs) = c :: cs := dropWhile_eq_self hblank
    unfold isDecorated at h
    rw [hstart] at h
    refine ⟨hc, ?_, ?_⟩
    · rintro rfl
      simp at h
    · rintro ⟨rfl, hhead⟩
      obtain ⟨rest, rfl⟩ := List.head?_eq_some_iff.1 hhead
      simp at h

/-- Normalization makes a text that does not start with a blank start plainly. -/
theorem startsPlain_normalizeChars {cs : List Char} (h : ∀ c ∈ cs.head?, isBlank c = false) :
    StartsPlain (normalizeChars cs) :=
  startsPlain_of_isDecorated (head?_normalizeChars_eq_false h) (isDecorated_normalizeChars cs)

/-- A text that starts plainly does not start with a dash. -/
theorem StartsPlain.not_dash_isPrefix {cs : List Char} (h : StartsPlain cs) :
    ¬ ['-'] <+: cs := by
  rintro ⟨rest, rfl⟩
  exact h.2.1 rfl

/-- A text that starts plainly does not start with a double slash. -/
theorem StartsPlain.not_slashes_isPrefix {cs : List Char} (h : StartsPlain cs) :
    ¬ ['/', '/'] <+: cs := by
  rintro ⟨rest, rfl⟩
  exact h.2.2 ⟨rfl, rfl⟩

/-! ## Collapsed normal forms -/

/-- Without the decoration at its start a collapsed text stays collapsed. -/
theorem isCollapsed_undecorate {cs : List Char} (h : IsCollapsed cs) :
    IsCollapsed (undecorate cs) := by
  rw [undecorate, h.trimEnd_eq_self]
  exact h.of_isSuffix (dropDecoration_suffix cs) (startsPlain_dropDecoration cs).head?_eq_false

/-- Cutting keeps a text collapsed, also where the cut leaves a space before the ellipsis. -/
theorem isCollapsed_abridge {cs : List Char} (h : IsCollapsed cs) : IsCollapsed (abridge cs) := by
  unfold abridge
  split
  · have hdots : ∀ c ∈ ellipsis, isBlank c = false := by simp [ellipsis, isBlank]
    exact h.append_of_isPrefix (List.take_prefix _ _) (List.cons_ne_nil _ _) hdots
  · exact h

/-- A condensed text is collapsed. -/
theorem isCollapsed_condense (cs : List Char) : IsCollapsed (condense cs) := by
  unfold condense
  dsimp only
  split
  · next text _ =>
    have hbody : IsCollapsed (undecorate (Text.collapse text)) :=
      isCollapsed_undecorate (isCollapsed_collapse text)
    exact hbody.trimEnd_of_isPrefix (List.take_prefix _ _)
  · apply isCollapsed_abridge
    have htrim : trimEnd (dropMarkers cs) = dropMarkers cs :=
      dropEndWhile_eq_self (getLast?_trim_eq_false _)
    rcases firstSegment_cases htrim with ⟨text, h⟩ | h
    · rw [h]
      exact isCollapsed_undecorate (isCollapsed_collapse text)
    · rw [h]
      exact isCollapsed_nil

/-- The normal form of a collapsed text is collapsed. -/
theorem isCollapsed_normalizeChars {cs : List Char} (h : IsCollapsed cs) :
    IsCollapsed (normalizeChars cs) := by
  rcases normalizeChars_eq_or cs with ⟨heq, -, -⟩ | heq
  · rw [heq]
    exact h
  · rw [heq]
    exact isCollapsed_condense cs

end ProcedureCatalog.Description
