/-
# Real text

A character is real text when it is neither a dash, a slash nor a blank. Trimming, collapsing and
removing decoration take no such character away and bring none in, so a text holds real text
exactly when what they leave of it does.

* `hasText_trim`, `hasText_collapse`, `hasText_undecorate` : the steps of normalization one by one.
* `hasText_dropMarkers` : the markers at the start of a text are no real text.
-/
import ProcedureCatalog.Proofs.Description.NormalForm
import ProcedureCatalog.Proofs.Text.Trimming

namespace ProcedureCatalog.Description

open Text

/-- A dash, a slash or a blank. -/
def isDecoration (c : Char) : Bool := c == '-' || c == '/' || isBlank c

/-- The text has a character that is no decoration. -/
def HasText (cs : List Char) : Prop := ∃ c ∈ cs, isDecoration c = false

-- the characters are those of the text, not all there are
instance (cs : List Char) : Decidable (HasText cs) :=
  List.decidableBEx _ _

theorem isDecoration_of_isBlank {c : Char} (h : isBlank c = true) : isDecoration c = true := by
  simp [isDecoration, h]

theorem isDecoration_of_isDash {c : Char} (h : (c == '-') = true) : isDecoration c = true := by
  simp [isDecoration, h]

theorem isDecoration_eq_false_iff {c : Char} :
    isDecoration c = false ↔ c ≠ '-' ∧ c ≠ '/' ∧ isBlank c = false := by
  simp [isDecoration, and_assoc]

theorem not_hasText_iff {cs : List Char} : ¬ HasText cs ↔ ∀ c ∈ cs, isDecoration c = true := by
  simp [HasText]

theorem not_hasText_nil : ¬ HasText [] := by simp [HasText]

@[simp] theorem hasText_cons {c : Char} {cs : List Char} :
    HasText (c :: cs) ↔ isDecoration c = false ∨ HasText cs := by
  simp [HasText]

@[simp] theorem hasText_append {cs ds : List Char} :
    HasText (cs ++ ds) ↔ HasText cs ∨ HasText ds := by
  simp [HasText, or_and_right, exists_or]

theorem HasText.ne_nil {cs : List Char} (h : HasText cs) : cs ≠ [] := by
  rintro rfl
  exact not_hasText_nil h

/-! ## Trimming -/

/-- Decoration dropped at the start is no real text. -/
theorem hasText_dropWhile {p : Char → Bool} (hp : ∀ c, p c = true → isDecoration c = true)
    (cs : List Char) : HasText (cs.dropWhile p) ↔ HasText cs := by
  have htaken : ¬ HasText (cs.takeWhile p) :=
    not_hasText_iff.2 fun c hc => hp c (List.mem_takeWhile_imp hc)
  have hcs : HasText (cs.takeWhile p ++ cs.dropWhile p) ↔ HasText cs := by
    rw [List.takeWhile_append_dropWhile]
  rw [← hcs, hasText_append, or_iff_right htaken]

theorem hasText_reverse (cs : List Char) : HasText cs.reverse ↔ HasText cs := by
  simp [HasText]

theorem hasText_trimStart (cs : List Char) : HasText (trimStart cs) ↔ HasText cs :=
  hasText_dropWhile (fun _ => isDecoration_of_isBlank) cs

theorem hasText_trimEnd (cs : List Char) : HasText (trimEnd cs) ↔ HasText cs := by
  rw [trimEnd, dropEndWhile, hasText_reverse,
    hasText_dropWhile (fun _ => isDecoration_of_isBlank), hasText_reverse]

theorem hasText_trim (cs : List Char) : HasText (trim cs) ↔ HasText cs := by
  rw [trim, hasText_trimEnd, hasText_trimStart]

/-! ## Collapsing -/

theorem hasText_collapse (cs : List Char) : HasText (Text.collapse cs) ↔ HasText cs := by
  have hmem : ∀ {c}, isDecoration c = false → (c ∈ Text.collapse cs ↔ c ∈ cs) :=
    fun hc => mem_collapse_iff (isDecoration_eq_false_iff.1 hc).2.2
  constructor
  · rintro ⟨c, hin, hc⟩
    exact ⟨c, (hmem hc).1 hin, hc⟩
  · rintro ⟨c, hin, hc⟩
    exact ⟨c, (hmem hc).2 hin, hc⟩

/-! ## Markers and decoration -/

theorem hasText_dropSlashes (cs : List Char) : HasText (dropSlashes cs) ↔ HasText cs := by
  unfold dropSlashes
  split
  · simp [isDecoration]
  · rfl

/-- The markers at the start of a text are no real text. -/
theorem hasText_dropMarkers (cs : List Char) : HasText (dropMarkers cs) ↔ HasText cs := by
  rw [dropMarkers, hasText_trim, hasText_dropSlashes, hasText_trimStart,
    hasText_dropWhile fun _ => isDecoration_of_isDash, hasText_trimStart]

theorem hasText_dropDecoration (cs : List Char) : HasText (dropDecoration cs) ↔ HasText cs := by
  fun_induction dropDecoration cs with
  | case1 rest ih => simpa [isDecoration] using ih
  | case2 c rest _ hc ih =>
    have hdecoration : isDecoration c = true := by
      rcases Bool.or_eq_true_iff.1 hc with hdash | hblank
      · exact isDecoration_of_isDash hdash
      · exact isDecoration_of_isBlank hblank
    simpa [hdecoration] using ih
  | case3 => rfl
  | case4 => rfl

theorem hasText_undecorate (cs : List Char) : HasText (undecorate cs) ↔ HasText cs := by
  rw [undecorate, hasText_dropDecoration, hasText_trimEnd]

/-- A text that is not empty and starts plainly, without slashes, starts with real text. -/
theorem hasText_take_of_startsPlain {cs : List Char} (h : StartsPlain cs) (hne : cs ≠ [])
    (hslash : '/' ∉ cs) {n : Nat} (hn : 0 < n) : HasText (cs.take n) := by
  obtain ⟨c, cs, rfl⟩ := List.exists_cons_of_ne_nil hne
  refine ⟨c, ?_, isDecoration_eq_false_iff.2 ⟨h.2.1, ?_, h.1⟩⟩
  · obtain ⟨n, rfl⟩ := Nat.exists_eq_succ_of_ne_zero (Nat.ne_of_gt hn)
    exact List.mem_cons_self
  · rintro rfl
    exact hslash List.mem_cons_self

end ProcedureCatalog.Description
