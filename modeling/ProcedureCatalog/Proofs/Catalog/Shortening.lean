/-
# Which descriptions are shortened

Shortening preselects rows. The preselection skips spaces only and reads up to a null character only,
where the normal form skips every blank and counts all characters, so a description that is not in
normal form can be missed.

* `looksDecorated_eq_true_iff` : what is preselected.
* `isMissed_iff` : `IsMissed` says exactly when a text that is not normal is not preselected.
* `shorten_misses_exactly` : shortening brings all other descriptions into normal form, and all of
  them exactly when none is missed.
* `dash_behind_tab_is_missed` : a description that is missed.
-/
import Mathlib.Data.List.Forall2
import ProcedureCatalog.Proofs.Catalog.Answers
import ProcedureCatalog.Proofs.Catalog.ShorteningPass
import ProcedureCatalog.Proofs.Catalog.UnchangedSource

namespace ProcedureCatalog

open Description Text

namespace Catalog

/-! ## The preselection -/

/-- Skipping the spaces at the start skips all blanks there, or it stops at another blank. -/
theorem dropWhile_space_cases (cs : List Char) :
    (cs.dropWhile (· == ' ') = trimStart cs ∧ ∀ c ∈ cs.takeWhile isBlank, c = ' ') ∨
      ∃ c rest, cs.dropWhile (· == ' ') = c :: rest ∧ isBlank c = true ∧
        ¬ ∀ c ∈ cs.takeWhile isBlank, c = ' ' := by
  induction cs with
  | nil => exact .inl ⟨rfl, by simp⟩
  | cons c cs ih =>
    rw [trimStart] at ih ⊢
    simp only [List.dropWhile_cons, List.takeWhile_cons, beq_iff_eq]
    by_cases hspace : c = ' '
    · subst hspace
      rcases ih with ⟨hskip, hspaces⟩ | ⟨d, rest, hskip, hblank, hother⟩
      · exact .inl ⟨hskip, by simpa [isBlank] using hspaces⟩
      · exact .inr ⟨d, rest, hskip, hblank, by simpa [isBlank] using hother⟩
    · rw [if_neg hspace]
      by_cases hblank : isBlank c = true
      · exact .inr ⟨c, cs, rfl, hblank, by simp [hblank, hspace]⟩
      · exact .inl ⟨by rw [if_neg hblank], by simp [hblank]⟩

/-- Preselected are the texts that are decorated behind spaces alone, and those that are too long
before their first null character. -/
theorem looksDecorated_eq_true_iff {cs : List Char} : looksDecorated cs = true ↔
    (isDecorated cs = true ∧ ∀ c ∈ cs.takeWhile isBlank, c = ' ') ∨
      limit < (Like.visible cs).length := by
  unfold looksDecorated
  rw [Bool.or_eq_true, decide_eq_true_eq]
  refine or_congr_left ?_
  rcases dropWhile_space_cases cs with ⟨hskip, hspaces⟩ | ⟨c, rest, hskip, hblank, hother⟩
  · rw [hskip, ← isDecorated_eq, and_iff_left hspaces]
  · refine iff_of_false ?_ fun h => hother h.2
    -- no blank is a dash or a slash
    have hdash : c ≠ '-' := by
      rintro rfl
      exact absurd hblank (by decide)
    have hslash : c ≠ '/' := by
      rintro rfl
      exact absurd hblank (by decide)
    rw [hskip]
    simp [List.isPrefixOf, hdash.symm, hslash.symm]

/-! ## Missed descriptions -/

/-- Shortening misses the text: it is decorated behind a blank other than a space, or its null
characters hide that it is too long. -/
def IsMissed (text : String) : Prop :=
  (Like.visible text.toList).length ≤ limit ∧
    ((isDecorated text.toList = true ∧ ∃ c ∈ text.toList.takeWhile isBlank, c ≠ ' ') ∨
      (isDecorated text.toList = false ∧ limit < text.toList.length))

instance (text : String) : Decidable (IsMissed text) :=
  -- over the blanks of the text, not over all characters
  have : Decidable (∃ c ∈ text.toList.takeWhile isBlank, c ≠ ' ') := List.decidableBEx _ _
  inferInstanceAs (Decidable (_ ∧ (_ ∨ _)))

/-- Missed are the texts that are not normal and not preselected. -/
theorem isMissed_iff {text : String} :
    IsMissed text ↔ Description.normalize text ≠ text ∧ looksDecorated text.toList = false := by
  have hnormal : Description.normalize text = text ↔
      isDecorated text.toList = false ∧ text.toList.length ≤ limit := by
    rw [← String.toList_inj, toList_normalize, normalizeChars_eq_self_iff]
  rw [IsMissed, ne_eq, hnormal, ← Bool.not_eq_true (looksDecorated _),
    looksDecorated_eq_true_iff]
  cases isDecorated text.toList with
  | true => simp [and_comm]
  | false => simp [and_comm]

end Catalog

/-! ## Rows -/

namespace StoredProcedure

/-- The description, if there is one, is in normal form. -/
def hasNormalText (r : StoredProcedure) : Bool :=
  r.description.all fun text => Description.normalize text == text

/-- There is a description, and shortening misses it. -/
def hasMissedText (r : StoredProcedure) : Bool :=
  r.description.any fun text => Catalog.IsMissed text

variable {r : StoredProcedure}

/-- A missed description is not in normal form. -/
theorem hasNormalText_of_hasMissedText (h : r.hasMissedText = true) : r.hasNormalText = false := by
  obtain ⟨text, htext, hmissed⟩ := (Option.any_eq_true _ _).1 h
  rw [hasNormalText, htext, Option.all_some, beq_eq_false_iff_ne]
  exact (Catalog.isMissed_iff.1 (of_decide_eq_true hmissed)).1

end StoredProcedure

namespace Catalog

variable {r : StoredProcedure} {now : String}

/-- The row `after` is `before` with its description shortened, unless that is normal or missed. -/
structure Shortens (now : String) (before after : StoredProcedure) : Prop where
  /-- A description that is neither normal nor missed is replaced by its normal form, or removed
  when that is empty. -/
  shortened : ∀ text, before.description = some text → Description.normalize text ≠ text →
    ¬ IsMissed text → after = replaceText (Description.normalize text) now before
  /-- Every other row is as before. -/
  kept : before.hasNormalText = true ∨ before.hasMissedText = true → after = before

/-- There is a shorter text exactly when the description is neither normal nor missed. -/
theorem isSome_shorterText? (r : StoredProcedure) :
    (shorterText? r).isSome = (!r.hasNormalText && !r.hasMissedText) := by
  unfold shorterText? StoredProcedure.hasNormalText StoredProcedure.hasMissedText
  cases r.description with
  | none => rfl
  | some text =>
    simp only [Option.all_some, Option.any_some, isMissed_iff]
    by_cases hnormal : Description.normalize text = text
    · simp [hnormal]
    · cases looksDecorated text.toList <;> simp [hnormal, bne]

theorem shortens_shortenRow (now : String) (r : StoredProcedure) :
    Shortens now r (shortenRow now r) where
  shortened := by
    intro text htext hnormal hmissed
    have hlooks : looksDecorated text.toList = true := by
      simpa [isMissed_iff, hnormal] using hmissed
    rw [shortenRow, shorterText?, htext]
    simp [hlooks, hnormal]
  kept := by
    intro hkept
    have hnone : shorterText? r = none := by
      rw [← Option.not_isSome_iff_eq_none, isSome_shorterText?]
      rcases hkept with h | h <;> simp [h]
    rw [shortenRow, hnone]

/-- After shortening, the description is in normal form exactly when it was not missed. -/
theorem hasNormalText_shortenRow (now : String) (r : StoredProcedure) :
    (shortenRow now r).hasNormalText = !r.hasMissedText := by
  cases hmissed : r.hasMissedText with
  | true =>
    rw [(shortens_shortenRow now r).kept (.inr hmissed),
      StoredProcedure.hasNormalText_of_hasMissedText hmissed]
    rfl
  | false =>
    cases hnormal : r.hasNormalText with
    | true =>
      rw [(shortens_shortenRow now r).kept (.inl hnormal), hnormal]
      rfl
    | false =>
      obtain ⟨text, htext⟩ : ∃ text, shorterText? r = some text := by
        rw [← Option.isSome_iff_exists, isSome_shorterText?, hnormal, hmissed]
        rfl
      obtain ⟨old, -, rfl, -⟩ := shorterText?_eq_some htext
      rw [shortenRow, htext]
      simp only [replaceText, StoredProcedure.hasNormalText]
      split
      · rfl
      · simp [normalize_normalize]

/-! ## Counts -/

/-- The number of rows with a description that is neither normal nor missed. -/
def countShortened (rows : List StoredProcedure) : Nat :=
  rows.countP fun r => !r.hasNormalText && !r.hasMissedText

/-- A description that is not in normal form is shortened or missed. -/
theorem countShortened_add (rows : List StoredProcedure) :
    rows.countP (·.hasMissedText) + countShortened rows = rows.countP (!·.hasNormalText) := by
  rw [List.countP_eq_countP_filter_add rows (!·.hasNormalText) (·.hasMissedText),
    List.countP_filter, List.countP_filter]
  congr 1
  · refine List.countP_congr fun r _ => ?_
    cases hmissed : r.hasMissedText with
    | true => simp [StoredProcedure.hasNormalText_of_hasMissedText hmissed]
    | false => simp

/-- All descriptions that are not in normal form are shortened exactly when none is missed. -/
theorem countShortened_eq_iff {rows : List StoredProcedure} :
    countShortened rows = rows.countP (!·.hasNormalText) ↔
      ∀ r ∈ rows, r.hasMissedText = false := by
  have hnone : rows.countP (·.hasMissedText) = 0 ↔ ∀ r ∈ rows, r.hasMissedText = false := by
    simp [List.countP_eq_zero]
  rw [← countShortened_add, ← hnone]
  omega

variable {c : Catalog}

/-- Shortening all rows of a catalog with known sources. -/
theorem shorten_eq_ok (h : ∀ r ∈ c.procedures, hasKnownSource r = true) (now : String) :
    c.shorten none now =
      .ok ({ c with procedures := c.procedures.map (shortenRow now) },
        countShortened c.procedures) := by
  have hrefused : ¬ c.HasRefused (isCovered none) := by
    rintro ⟨r, hr, -, hrow⟩
    rw [isRefused, h r hr, Bool.not_true, Bool.and_false] at hrow
    exact Bool.false_ne_true hrow
  have hcount : c.countShorter (isCovered none) = countShortened c.procedures := by
    refine List.countP_congr fun r _ => ?_
    rw [isSome_shorterText?]
    rfl
  rw [shorten_eq_shortenWhere, shortenWhere, if_neg hrefused, hcount]
  rfl

end Catalog

/-! ## In a database -/

namespace Database

variable {db : Database} {p : TablePrefix} {c : Catalog}

/-- **What shortening all descriptions misses.** On a catalog whose descriptions have known sources
it succeeds, replaces the descriptions that are neither normal nor missed, and counts them. Of the two,
that all descriptions are in normal form afterwards and that those that were not before are all
counted, each holds exactly when no description is missed. -/
theorem shorten_misses_exactly (hc : ∀ first, db.catalog p first = .ok c)
    (hknown : ∀ r ∈ c.procedures, Catalog.hasKnownSource r = true) (now : String) :
    let count := Catalog.countShortened c.procedures
    ∃ db' c', db.shortenDescriptions p none now = .ok (db', count) ∧
      (∀ first, db'.catalog p first = .ok c') ∧
      c'.programs = c.programs ∧
      List.Forall₂ (Catalog.Shortens now) c.procedures c'.procedures ∧
      ((∀ r ∈ c'.procedures, r.hasNormalText = true) ↔
        ∀ r ∈ c.procedures, r.hasMissedText = false) ∧
      (count = c.procedures.countP (!·.hasNormalText) ↔
        ∀ r ∈ c.procedures, r.hasMissedText = false) := by
  intro count
  obtain ⟨db', hshort, hc'⟩ := exists_write_eq_ok (fun c => c.shorten none now) (hc .procedures)
    (Catalog.shorten_eq_ok hknown now)
  refine ⟨db', _, hshort, hc', rfl, ?_, ?_, Catalog.countShortened_eq_iff⟩
  · refine List.forall₂_map_right_iff.2 (List.forall₂_same.2 fun r _ => ?_)
    exact Catalog.shortens_shortenRow now r
  · simp only [List.forall_mem_map, Catalog.hasNormalText_shortenRow, Bool.not_eq_true']

/-- Of two decorated descriptions, one is behind a tab. -/
theorem shorten_misses_one_of_two :
    let db := empty.run [⟨.standard, .up, ""⟩,
      ⟨.standard, .change (.sync "AXA" "SPV" ["X_\t-A", "X_-B"]), "1"⟩,
      ⟨.standard, .change (.fillFromNames "AXA" "SPV" false), "2"⟩]
    ∃ db' c', db.shortenDescriptions .standard none "3" = .ok (db', 1) ∧
      (∀ first, db'.catalog .standard first = .ok c') ∧
      ¬ ∀ r ∈ c'.procedures, r.hasNormalText = true := by
  intro db
  have hc : ∀ first, db.catalog .standard first =
      .ok ⟨[{ ServiceProgram.new "AXA" "SPV" with updatedAt := some "1" }],
        [⟨"AXA", "SPV", "X_\t-A", some "\t-a", some "name_inference", "2"⟩,
          ⟨"AXA", "SPV", "X_-B", some "-b", some "name_inference", "2"⟩]⟩ := by
    intro first
    cases first <;> decide +kernel
  obtain ⟨db', c', hshort, hc', -, -, hnormal, -⟩ :=
    shorten_misses_exactly hc (by decide) "3"
  refine ⟨db', c', hshort.trans (congrArg (Except.ok ∘ Prod.mk db') ?_), hc', ?_⟩
  · decide +kernel
  · rw [hnormal]
    decide +kernel

/-- A description with a dash behind a tab, inferred from an exported name, is not in normal form. It
stays, and it is not counted. -/
theorem dash_behind_tab_is_missed :
    let db := empty.run [⟨.standard, .up, ""⟩,
      ⟨.standard, .change (.sync "AXA" "SPV" ["X_\t-A"]), "1"⟩,
      ⟨.standard, .change (.fillFromNames "AXA" "SPV" false), "2"⟩]
    let result := db.shortenDescriptions .standard none "3"
    db.contentOfRows .standard =
        .ok [(["AXA", "SPV", "X_\t-A"], some "\t-a", some "name_inference")] ∧
      result.map (·.1.contentOfRows .standard) =
        .ok (.ok [(["AXA", "SPV", "X_\t-A"], some "\t-a", some "name_inference")]) ∧
      result.map (·.2) = .ok 0 ∧ Description.normalize "\t-a" = "a" := by
  decide +kernel

end Database

end ProcedureCatalog
