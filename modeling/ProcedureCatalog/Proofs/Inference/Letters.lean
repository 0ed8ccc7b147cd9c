/-
# Inferred descriptions hold text

Lower-casing never makes a blank of a character that is none, so a description inferred from a
name is never blank.

* `exists_mem_lowerAfter` : a character that is not blank leaves one that is not blank.
* `not_allBlank_of_infer` : an inferred description is not blank.
-/
import ProcedureCatalog.Inference
import ProcedureCatalog.Proofs.Text.AsciiCase
import ProcedureCatalog.Proofs.Text.BlankRanges

namespace ProcedureCatalog

namespace Text

/-! ## Lower-casing -/

/-- No shift of the lower-casing table reaches a blank. -/
theorem lowerShifts_miss_blanks : ∀ s ∈ lowerShifts, ∀ r ∈ blankRanges,
    (s.last : Int) + s.offset < r.1 ∨ (r.2 : Int) < s.first + s.offset := by
  decide +kernel

/-- The small form of a character that is not blank is not blank. -/
theorem isBlank_shifted_eq_false {c : Char} (hc : isBlank c = false) :
    isBlank (Char.ofNat (shifted lowerShifts c.toNat)) = false := by
  unfold shifted
  split
  · next s hs =>
    have hmem := List.mem_of_find?_eq_some hs
    have hcovers := List.find?_some hs
    simp only [CaseShift.covers, Bool.and_eq_true, decide_eq_true_eq] at hcovers
    refine isBlank_ofNat_eq_false fun r hr => ?_
    have hpos := pos_of_mem_blankRanges r hr
    have hmiss := lowerShifts_miss_blanks s hmem r hr
    rw [show Int.ofNat c.toNat = (c.toNat : Int) from rfl]
    omega
  · rw [Char.ofNat_toNat]
    exact hc

/-- The small form of a character that is not blank holds one that is not blank. -/
theorem exists_mem_lowerChar {c : Char} (hc : isBlank c = false) :
    ∃ d ∈ lowerChar c, isBlank d = false := by
  unfold lowerChar
  split
  · next hlt => exact ⟨c.toLower, by simp, by rw [isBlank_toLower hlt, hc]⟩
  · split
    · exact ⟨'i', by simp, by decide⟩
    · exact ⟨_, by simp, isBlank_shifted_eq_false hc⟩

/-- Lower-casing a text that holds a character other than a blank leaves such a character. -/
theorem exists_mem_lowerAfter (before : List Char) {cs : List Char} {c : Char} (hmem : c ∈ cs)
    (hc : isBlank c = false) : ∃ d ∈ lowerAfter before cs, isBlank d = false := by
  induction cs generalizing before with
  | nil => simp at hmem
  | cons first cs ih =>
    unfold lowerAfter
    split
    · -- a capital sigma becomes one of the two small ones
      refine ⟨_, List.mem_cons_self, ?_⟩
      split <;> decide
    · rcases List.mem_cons.1 hmem with rfl | hmem
      · obtain ⟨d, hd, hblank⟩ := exists_mem_lowerChar hc
        exact ⟨d, List.mem_append_left _ hd, hblank⟩
      · obtain ⟨d, hd, hblank⟩ := ih (first :: before) hmem
        exact ⟨d, List.mem_append_right _ hd, hblank⟩

end Text

namespace Inference

open Text

/-! ## Inferred descriptions -/

/-- Without its module a name is an end of what it was. -/
theorem dropModule_suffix (name : List Char) : dropModule name <:+ name := by
  unfold dropModule
  dsimp only
  split
  · next rest heq =>
    split
    · have hdrop : name.dropWhile (· != '_') <:+ name := List.dropWhile_suffix _
      rw [heq] at hdrop
      exact (List.suffix_cons _ _).trans hdrop
    · exact List.suffix_rfl
  · exact List.suffix_rfl

/-- The last character of a trimmed name in capitals is no blank. -/
theorem getLast?_upper_trim_eq_false (cs : List Char) :
    ∀ c ∈ (upper (trim cs)).getLast?, isBlank c = false := by
  intro c hc
  rw [upper, List.getLast?_map] at hc
  obtain ⟨d, hd, rfl⟩ := Option.map_eq_some_iff.1 hc
  rw [isBlank_toUpper]
  exact getLast?_trim_eq_false cs d hd

/-- The phrases of the vocabulary hold text. -/
theorem phrases_hold_text : ∀ p ∈ wholeNames ++ (verbs ++ irregular),
    allBlank p.words.toList = false := by
  decide +kernel

/-- A name that holds a character other than a blank is described by such a text. -/
theorem exists_mem_describe {name : List Char} {c : Char} (hmem : c ∈ name)
    (hc : isBlank c = false) : ∃ d ∈ describe name, isBlank d = false := by
  have hphrase : ∀ p ∈ wholeNames ++ (verbs ++ irregular),
      ∃ d ∈ p.words.toList, isBlank d = false := by
    intro p hp
    simpa [allBlank] using phrases_hold_text p hp
  unfold describe
  split
  · next p hp => exact hphrase p (List.mem_append_left _ (List.mem_of_find?_eq_some hp))
  · split
    · next p hp =>
      obtain ⟨d, hd, hblank⟩ :=
        hphrase p (List.mem_append_right _ (List.mem_of_find?_eq_some hp))
      split
      · exact ⟨d, hd, hblank⟩
      · exact ⟨d, List.mem_append_left _ hd, hblank⟩
    · exact exists_mem_lowerAfter [] hmem hc

/-- An inferred description is not blank. -/
theorem not_allBlank_of_infer {name text : String} (h : infer name = some text) :
    allBlank text.toList = false := by
  unfold infer at h
  split at h
  · simp at h
  · next c cs heq =>
    obtain rfl := Option.some.inj h
    -- the last character of the trimmed name is still there without the module
    have hlast : isBlank ((c :: cs).getLast (by simp)) = false := by
      apply getLast?_upper_trim_eq_false name.toList
      obtain ⟨init, hinit⟩ := dropModule_suffix (upper (trim name.toList))
      rw [← hinit, heq, List.getLast?_append, List.getLast?_eq_some_getLast (by simp)]
      rfl
    obtain ⟨d, hd, hblank⟩ := exists_mem_describe (List.getLast_mem (by simp)) hlast
    rw [String.toList_ofList]
    simpa [allBlank] using ⟨d, hd, hblank⟩

end Inference

end ProcedureCatalog
