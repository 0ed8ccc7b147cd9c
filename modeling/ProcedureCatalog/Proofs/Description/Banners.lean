/-
# Banners

A banner `NAME(): text // …` has its text between the mark `):` and the next double slash. That text
is found when it holds no slash; a text with a single slash in it is passed over, and so is its
mark.

* `bannerBody_eq_some_iff`, `banner_append` : what the first mark of a text gives.
* `normalize_of_first_mark` : what normalization makes of a text with a mark.
* `slash_keeps_the_name` : a banner that is not reduced to its text.
-/
import Mathlib.Data.List.Infix
import ProcedureCatalog.Proofs.Description.RealText

namespace ProcedureCatalog.Description

open Text

/-! ## Up to a double slash -/

/-- The text up to its first double slash, or to its end. -/
def upToSlashes : List Char → List Char
  | '/' :: '/' :: _ => []
  | c :: cs => c :: upToSlashes cs
  | [] => []

/-- A single slash does not end the text. -/
theorem upToSlashes_cons {c : Char} {cs : List Char} (h : ¬ (c = '/' ∧ cs.head? = some '/')) :
    upToSlashes (c :: cs) = c :: upToSlashes cs := by
  rw [upToSlashes]
  rintro rest rfl rfl
  exact h ⟨rfl, rfl⟩

/-- Characters other than slashes do not end the text. -/
theorem upToSlashes_append {cs : List Char} (h : '/' ∉ cs) (rest : List Char) :
    upToSlashes (cs ++ rest) = cs ++ upToSlashes rest := by
  induction cs with
  | nil => rfl
  | cons c cs ih =>
    rw [List.mem_cons, not_or] at h
    rw [List.cons_append, upToSlashes_cons fun hslash => h.1 hslash.1.symm, ih h.2]
    rfl

/-! ## The first mark -/

/-- Behind a mark the text up to the next double slash is taken, unless it is empty or holds a
slash. -/
theorem bannerBody_eq_some_iff {cs body : List Char} :
    bannerBody cs = some body ↔ upToSlashes cs = body ∧ body ≠ [] ∧ '/' ∉ body := by
  obtain ⟨start, hstart⟩ : ∃ start, start = cs.takeWhile (· != '/') := ⟨_, rfl⟩
  obtain ⟨rest, hrest⟩ : ∃ rest, rest = cs.dropWhile (· != '/') := ⟨_, rfl⟩
  have hslash : '/' ∉ start := by
    intro hmem
    rw [hstart] at hmem
    have := List.mem_takeWhile_imp hmem
    simp at this
  have hup : upToSlashes cs = start ++ upToSlashes rest := by
    rw [← upToSlashes_append hslash, hstart, hrest, List.takeWhile_append_dropWhile]
  have htaken : (if start.isEmpty then none else some start) = some body ↔
      start = body ∧ body ≠ [] ∧ '/' ∉ body := by
    constructor
    · intro h
      split at h
      · simp at h
      · next hne =>
        obtain rfl := Option.some.inj h
        exact ⟨rfl, by simpa using hne, hslash⟩
    · rintro ⟨rfl, hne, -⟩
      rw [if_neg (by simpa using hne)]
  unfold bannerBody
  dsimp only
  rw [← hstart, ← hrest, hup]
  split
  · rw [upToSlashes, List.append_nil]
    exact htaken
  · rw [upToSlashes, List.append_nil]
    exact htaken
  · next hnil hdouble =>
    -- the rest starts with a single slash, which ends no text
    obtain ⟨c, rest', hcons⟩ := List.exists_cons_of_ne_nil hnil
    have hc : c = '/' := by
      have := head?_dropWhile_eq_false (p := (· != '/')) cs c (by rw [← hrest, hcons]; rfl)
      simpa using this
    subst hc
    have hsingle : ¬ ('/' = '/' ∧ rest'.head? = some '/') := by
      rintro ⟨-, hhead⟩
      obtain ⟨tail, htail⟩ := List.head?_eq_some_iff.1 hhead
      exact hdouble tail (by rw [hcons, htail])
    refine iff_of_false (by simp) ?_
    rintro ⟨rfl, -, hnone⟩
    rw [hcons, upToSlashes_cons hsingle] at hnone
    simp at hnone

/-- The text of a banner is not empty and holds no slash. -/
theorem slash_notMem_of_banner {cs body : List Char} (h : banner cs = some body) :
    body ≠ [] ∧ '/' ∉ body := by
  fun_induction banner cs with
  | case1 rest text hbody =>
    obtain rfl := Option.some.inj h
    exact (bannerBody_eq_some_iff.1 hbody).2
  | case2 rest hnone ih => exact ih h
  | case3 c rest _ ih => exact ih h
  | case4 => simp at h

/-- A mark gives its text, or else what the marks behind it give. -/
theorem banner_mark (rest : List Char) :
    banner (')' :: ':' :: rest) = (bannerBody rest).or (banner rest) := by
  rw [banner]
  cases bannerBody rest <;> rfl

/-- What stands before the first mark gives nothing. -/
theorem banner_append {before : List Char} (h : ¬ [')', ':'] <:+: before ++ [')'])
    (after : List Char) :
    banner (before ++ [')', ':'] ++ after) = (bannerBody after).or (banner after) := by
  induction before with
  | nil => exact banner_mark after
  | cons c before ih =>
    rw [List.cons_append, List.infix_cons_iff, not_or] at h
    have hstart : [c] ++ (before ++ [')']) <+: c :: (before ++ [')', ':'] ++ after) := by
      refine ⟨':' :: after, ?_⟩
      simp
    have hmark : ¬ [')', ':'] <+: c :: (before ++ [')', ':'] ++ after) := fun hmark =>
      h.1 (List.prefix_of_prefix_length_le hmark hstart (by simp))
    rw [List.cons_append, List.cons_append, banner, ih h.2]
    rintro rest rfl hrest
    exact hmark ⟨rest, by rw [hrest]; rfl⟩

/-! ## Reduced banners -/

/-- The text of a banner collapsed, without decoration at its start, and cut to the limit. -/
def bannerForm (text : List Char) : List Char :=
  trimEnd ((undecorate (Text.collapse text)).take limit)

/-- Condensing takes the text of a banner, or else the first segment. -/
theorem condense_eq (cs : List Char) : condense cs =
    match banner (dropMarkers cs) with
    | some text => bannerForm text
    | none => abridge (undecorate (firstSegment (dropMarkers cs))) :=
  rfl

/-- A text that is decorated or long is condensed. -/
theorem normalizeChars_of_decorated_or_long {cs : List Char}
    (h : isDecorated cs = true ∨ limit < cs.length) : normalizeChars cs = condense cs := by
  rw [normalizeChars, if_neg]
  rcases h with h | h
  · simp [h]
  · simp [Nat.not_le.2 h]

/-- **What normalization makes of a text with a mark `):`.** The text up to the next double slash is
what stays, exactly when it holds no slash; otherwise the mark is passed over, and a mark behind it
or the first segment gives the description. -/
theorem normalize_of_first_mark {text : String} {before after : List Char}
    (hkind : isDecorated text.toList = true ∨ 280 < text.toList.length)
    (hmark : dropMarkers text.toList = before ++ [')', ':'] ++ after)
    (hfirst : ¬ [')', ':'] <:+: before ++ [')']) (htext : HasText (upToSlashes after)) :
    (normalize text).toList =
      if '/' ∈ upToSlashes after then
        match banner after with
        | some later => bannerForm later
        | none => abridge (undecorate (firstSegment (dropMarkers text.toList)))
      else bannerForm (upToSlashes after) := by
  have hbanner : banner (dropMarkers text.toList) = (bannerBody after).or (banner after) := by
    rw [hmark, banner_append hfirst]
  rw [toList_normalize, normalizeChars_of_decorated_or_long hkind, condense_eq, hbanner]
  by_cases hslash : '/' ∈ upToSlashes after
  · have hnone : bannerBody after = none := by
      refine Option.eq_none_iff_forall_ne_some.2 fun body hbody => ?_
      obtain ⟨rfl, -, hnot⟩ := bannerBody_eq_some_iff.1 hbody
      exact hnot hslash
    rw [if_pos hslash, hnone, Option.none_or]
  · have hsome : bannerBody after = some (upToSlashes after) :=
      bannerBody_eq_some_iff.2 ⟨rfl, htext.ne_nil, hslash⟩
    rw [if_neg hslash, hsome, Option.some_or]

/-- A banner whose text starts with dashes is reduced to the text behind them. -/
theorem normalize_of_first_mark_dashes :
    let after := " -- hace  algo // v1".toList
    (isDecorated "-- x(): -- hace  algo // v1".toList = true ∧
      dropMarkers "-- x(): -- hace  algo // v1".toList = "x(".toList ++ [')', ':'] ++ after ∧
      ¬ [')', ':'] <:+: "x(".toList ++ [')'] ∧ HasText (upToSlashes after)) ∧
    (normalize "-- x(): -- hace  algo // v1").toList = "hace algo".toList := by
  intro after
  have hkind : isDecorated "-- x(): -- hace  algo // v1".toList = true := by decide
  have hmark : dropMarkers "-- x(): -- hace  algo // v1".toList =
      "x(".toList ++ [')', ':'] ++ after := by decide
  have hfirst : ¬ [')', ':'] <:+: "x(".toList ++ [')'] := by decide
  have htext : HasText (upToSlashes after) := by decide
  refine ⟨⟨hkind, hmark, hfirst, htext⟩, ?_⟩
  rw [normalize_of_first_mark (.inl hkind) hmark hfirst htext]
  decide +kernel

/-- A banner with a slash in its text is not reduced: its name stays. -/
theorem slash_keeps_the_name :
    (normalize "-- x(): a/b // v2").toList = "x(): a/b".toList ∧
    ¬ ∀ (text : String) (before after : List Char),
      (isDecorated text.toList = true ∨ 280 < text.toList.length) →
      dropMarkers text.toList = before ++ [')', ':'] ++ after →
      ¬ [')', ':'] <:+: before ++ [')'] → HasText (upToSlashes after) →
      (normalize text).toList = bannerForm (upToSlashes after) := by
  have hkept : (normalize "-- x(): a/b // v2").toList = "x(): a/b".toList := by decide +kernel
  refine ⟨hkept, ?_⟩
  intro h
  have hreduced := h "-- x(): a/b // v2" "x(".toList " a/b // v2".toList (.inl (by decide))
    (by decide) (by decide) (by decide)
  rw [hkept] at hreduced
  exact absurd hreduced (by decide +kernel)

end ProcedureCatalog.Description
