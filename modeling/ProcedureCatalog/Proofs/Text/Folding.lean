/-
# What case folding keeps apart

Simple case folding takes two characters beyond ASCII to ASCII letters, the long s and the Kelvin
sign, and every other one to a character beyond ASCII.

* `isAscii_fold_iff` : which characters fold to ASCII characters.
* `isFoldedAlphanum_iff` : which characters fold to letters and digits.
* `eq_of_fold_eq` : every other ASCII character is folded to by itself alone.
* `map_fold_eq_iff` : on ASCII texts folding is comparing in capitals.
* `map_fold_eq_literal_iff` : so it is for the keywords that nothing beyond ASCII folds to.
* `dropFolded?_congr` : the case of the ASCII letters of a literal does not matter.
* `dropFolded?_eq_some_iff` : a literal is read where the text folds as it does.
-/
import ProcedureCatalog.Proofs.Text.AsciiCase
import ProcedureCatalog.Text.Fold

namespace ProcedureCatalog.Text

/-! ## The folding table -/

/-- The long s and the Kelvin sign, which fold to `s` and `k`. -/
def lookalikes : List Char := ['\u017F', '\u212A']

/-- All that a shift covers is taken to code points of characters, and to none of ASCII. -/
def CaseShift.StaysBeyondAscii (s : CaseShift) : Prop :=
  0x80 ≤ (s.first : Int) + s.offset ∧ ((s.last : Int) + s.offset < 0xD800 ∨
    0xDFFF < (s.first : Int) + s.offset ∧ (s.last : Int) + s.offset < 0x110000)

instance (s : CaseShift) : Decidable s.StaysBeyondAscii := inferInstanceAs (Decidable (_ ∧ _))

/-- Only the shifts of the two lookalikes lead to ASCII. -/
theorem foldShifts_stayBeyondAscii : ∀ s ∈ foldShifts, s.StaysBeyondAscii ∨
    s.first = s.last ∧ s.first ∈ lookalikes.map Char.toNat := by
  decide +kernel

/-- A shift that leaves ASCII alone takes no covered code point to an ASCII character. -/
theorem CaseShift.StaysBeyondAscii.not_isAscii {s : CaseShift} (h : s.StaysBeyondAscii) {n : Nat}
    (hn : s.covers n = true) : ¬ IsAscii (Char.ofNat (Int.ofNat n + s.offset).toNat) := by
  simp only [CaseShift.covers, Bool.and_eq_true, decide_eq_true_eq] at hn
  obtain ⟨⟨hfirst, hlast⟩, -⟩ := hn
  obtain ⟨hlow, hhigh⟩ := h
  rw [show Int.ofNat n = (n : Int) from rfl]
  have hvalid : ((n : Int) + s.offset).toNat.isValidChar := by
    unfold Nat.isValidChar
    omega
  unfold IsAscii
  rw [Char.ofNat, dif_pos hvalid]
  change ¬ ((n : Int) + s.offset).toNat < 0x80
  omega

/-- Beyond ASCII only the lookalikes fold to ASCII characters. -/
theorem mem_lookalikes_of_isAscii_fold {c : Char} (hc : ¬ IsAscii c) (h : IsAscii (fold c)) :
    c ∈ lookalikes := by
  rw [fold, if_neg (show ¬ c.toNat < 0x80 from hc), shifted] at h
  split at h
  · next s hs =>
    have hcovers := List.find?_some hs
    rcases foldShifts_stayBeyondAscii s (List.mem_of_find?_eq_some hs) with hstays | ⟨hone, hmem⟩
    · exact absurd h (hstays.not_isAscii hcovers)
    · -- the shift covers the one code point
      simp only [CaseShift.covers, Bool.and_eq_true, decide_eq_true_eq] at hcovers
      have hcode : s.first = c.toNat := by omega
      rw [hcode] at hmem
      obtain ⟨d, hd, hdc⟩ := List.mem_map.1 hmem
      rwa [← Char.ofNat_toNat c, ← hdc, Char.ofNat_toNat]
  · rw [Char.ofNat_toNat] at h
    exact absurd h hc

/-! ## Folded characters -/

/-- An ASCII character is folded to its small form. -/
theorem fold_of_isAscii {c : Char} (hc : IsAscii c) : fold c = c.toLower := if_pos hc

theorem isAscii_fold {c : Char} (hc : IsAscii c) : IsAscii (fold c) := by
  rw [fold_of_isAscii hc]
  exact forall_ascii (P := fun c => IsAscii c.toLower) (by decide +kernel) hc

theorem isAscii_fold_of_mem_lookalikes : ∀ c ∈ lookalikes, IsAscii (fold c) :=
  List.forall_iff_forall_mem.1 (by decide +kernel)

/-- The ASCII characters and the two lookalikes fold to ASCII characters. -/
theorem isAscii_fold_iff {c : Char} : IsAscii (fold c) ↔ IsAscii c ∨ c ∈ lookalikes := by
  constructor
  · intro h
    by_cases hc : IsAscii c
    · exact .inl hc
    · exact .inr (mem_lookalikes_of_isAscii_fold hc h)
  · rintro (hc | hc)
    · exact isAscii_fold hc
    · exact isAscii_fold_of_mem_lookalikes c hc

theorem isFoldedAlphanum_of_mem_lookalikes : ∀ c ∈ lookalikes, isFoldedAlphanum c = true :=
  List.forall_iff_forall_mem.1 (by decide +kernel)

/-- An ASCII character folds to a letter or digit exactly when it is one. -/
theorem isFoldedAlphanum_of_isAscii {c : Char} (hc : IsAscii c) :
    isFoldedAlphanum c = c.isAlphanum := by
  rw [isFoldedAlphanum, fold_of_isAscii hc]
  exact forall_ascii (P := fun c => c.toLower.isAlphanum = c.isAlphanum) (by decide +kernel) hc

/-- The ASCII letters and digits and the two lookalikes fold to letters and digits. -/
theorem isFoldedAlphanum_iff {c : Char} :
    isFoldedAlphanum c = true ↔ c.isAlphanum = true ∨ c ∈ lookalikes := by
  constructor
  · intro h
    rcases isAscii_fold_iff.1 (isAscii_of_isAlphanum h) with hc | hc
    · exact .inl (isFoldedAlphanum_of_isAscii hc ▸ h)
    · exact .inr hc
  · rintro (h | h)
    · rwa [isFoldedAlphanum_of_isAscii (isAscii_of_isAlphanum h)]
    · exact isFoldedAlphanum_of_mem_lookalikes c h

/-- A character that folds to ASCII is a blank exactly when what it folds to is one. -/
theorem isBlank_fold {c : Char} (h : IsAscii (fold c)) : isBlank (fold c) = isBlank c := by
  rcases isAscii_fold_iff.1 h with hc | hc
  · rw [fold_of_isAscii hc, isBlank_toLower hc]
  · have hboth : ∀ c ∈ lookalikes, isBlank (fold c) = isBlank c :=
      List.forall_iff_forall_mem.1 (by decide +kernel)
    exact hboth c hc

/-- An ASCII character that is neither a letter nor a digit is folded to by itself alone. -/
theorem eq_of_fold_eq {c d : Char} (hd : IsAscii d) (hplain : d.isAlphanum = false)
    (h : fold c = fold d) : c = d := by
  -- an ASCII character whose small form is no letter or digit is that form
  have hself : ∀ {e : Char}, IsAscii e → (fold e).isAlphanum = false → fold e = e := by
    intro e he hfold
    rw [fold_of_isAscii he] at hfold ⊢
    exact forall_ascii (P := fun e => e.toLower.isAlphanum = false → e.toLower = e)
      (by decide +kernel) he hfold
  have hsign : (fold d).isAlphanum = false := by
    rw [← hplain]
    exact isFoldedAlphanum_of_isAscii hd
  rcases isAscii_fold_iff.1 (h ▸ isAscii_fold hd) with hc | hc
  · rw [← hself hc (h ▸ hsign), h, hself hd hsign]
  · have hletter : (fold c).isAlphanum = true := isFoldedAlphanum_of_mem_lookalikes c hc
    rw [h, hsign] at hletter
    exact Bool.noConfusion hletter

/-- Characters with one capital are folded alike. -/
theorem fold_eq_of_toUpper_eq {c d : Char} (h : c.toUpper = d.toUpper) : fold c = fold d := by
  by_cases hc : IsAscii c
  · have hd : IsAscii d := isAscii_toUpper.1 (h ▸ isAscii_toUpper.2 hc)
    rw [fold_of_isAscii hc, fold_of_isAscii hd, toUpper_eq_iff.1 h]
  · have hd : ¬ IsAscii d := fun hd => hc (isAscii_toUpper.1 (h ▸ isAscii_toUpper.2 hd))
    rw [← toUpper_eq_self hc, h, toUpper_eq_self hd]

/-! ## Folded texts -/

/-- A literal is read in the same places in any case of its ASCII letters. -/
theorem dropFolded?_congr {literal literal' : List Char} (h : upper literal = upper literal')
    (text : List Char) : dropFolded? literal text = dropFolded? literal' text := by
  induction literal generalizing literal' text with
  | nil =>
    cases literal' with
    | nil => rfl
    | cons l literal' => simp at h
  | cons l literal ih =>
    cases literal' with
    | nil => simp at h
    | cons l' literal' =>
      rw [upper_cons, upper_cons] at h
      obtain ⟨hl, hrest⟩ := List.cons.inj h
      cases text with
      | nil => rfl
      | cons c text => rw [dropFolded?, dropFolded?, fold_eq_of_toUpper_eq hl, ih hrest]

/-- ASCII texts fold to one text exactly when they have the same capitals. -/
theorem map_fold_eq_iff {a b : List Char} (ha : ∀ c ∈ a, IsAscii c) (hb : ∀ c ∈ b, IsAscii c) :
    a.map fold = b.map fold ↔ upper a = upper b := by
  have hlower : ∀ {cs : List Char}, (∀ c ∈ cs, IsAscii c) →
      cs.map fold = (upper cs).map Char.toLower ∧ upper cs = (cs.map fold).map Char.toUpper := by
    intro cs hcs
    have hfold : cs.map fold = cs.map Char.toLower :=
      List.map_congr_left fun c hc => fold_of_isAscii (hcs c hc)
    rw [hfold, upper, List.map_map, List.map_map]
    exact ⟨List.map_congr_left fun c _ => (toLower_toUpper c).symm,
      List.map_congr_left fun c _ => (toUpper_toLower c).symm⟩
  constructor
  · intro h
    rw [(hlower ha).2, (hlower hb).2, h]
  · intro h
    rw [(hlower ha).1, (hlower hb).1, h]

/-- A text folds like an ASCII literal in capitals without `S` and `K`, to whose small forms the
lookalikes fold, exactly when it is the literal in any case. -/
theorem map_fold_eq_literal_iff {literal text : List Char} (hcapital : upper literal = literal)
    (hascii : ∀ c ∈ literal, IsAscii c) (hplain : ∀ c ∈ lookalikes, fold c ∉ literal.map fold) :
    text.map fold = literal.map fold ↔ upper text = literal := by
  constructor
  · intro h
    refine ((map_fold_eq_iff (fun c hc => ?_) hascii).1 h).trans hcapital
    have hmem : fold c ∈ literal.map fold := h ▸ List.mem_map_of_mem hc
    obtain ⟨l, hl, hfold⟩ := List.mem_map.1 hmem
    rcases isAscii_fold_iff.1 (hfold ▸ isAscii_fold (hascii l hl)) with hc | hc
    · exact hc
    · exact absurd hmem (hplain c hc)
  · intro h
    have htext : ∀ c ∈ text, IsAscii c := by
      rwa [← forall_isAscii_upper, h]
    exact (map_fold_eq_iff htext hascii).2 (h.trans hcapital.symm)

/-- A literal is read exactly where the text starts with what folds as it does. -/
theorem dropFolded?_eq_some_iff {literal text rest : List Char} :
    dropFolded? literal text = some rest ↔
      ∃ read, text = read ++ rest ∧ read.map fold = literal.map fold := by
  induction literal generalizing text with
  | nil =>
    constructor
    · intro h
      exact ⟨[], Option.some.inj h, rfl⟩
    · rintro ⟨read, rfl, hread⟩
      rw [List.map_eq_nil_iff.1 hread]
      rfl
  | cons l literal ih =>
    cases text with
    | nil =>
      constructor
      · intro h
        simp [dropFolded?] at h
      · rintro ⟨read, htext, hread⟩
        rw [(List.append_eq_nil_iff.1 htext.symm).1] at hread
        simp at hread
    | cons c text =>
      rw [dropFolded?]
      constructor
      · intro h
        split at h
        · next hfold =>
          obtain ⟨read, rfl, hread⟩ := ih.1 h
          refine ⟨c :: read, rfl, ?_⟩
          rw [List.map_cons, List.map_cons, hread, beq_iff_eq.1 hfold]
        · simp at h
      · rintro ⟨read, htext, hread⟩
        cases read with
        | nil => simp at hread
        | cons d read =>
          obtain ⟨rfl, rfl⟩ := List.cons.inj htext
          obtain ⟨hfold, hread⟩ := List.cons.inj hread
          rw [if_pos (beq_iff_eq.2 hfold.symm)]
          exact ih.2 ⟨read, rfl, hread⟩

end ProcedureCatalog.Text
