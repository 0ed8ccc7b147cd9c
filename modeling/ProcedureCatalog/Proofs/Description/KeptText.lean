/-
# Text that normalization keeps

Condensing takes one piece of a text: the text of a banner, or the first segment that is more than
dashes and blanks. The real text of that piece stays. When the piece has none, the real text
elsewhere in the description is lost with it.

* `hasText_bannerForm`, `hasText_abridge` : what stays of a piece.
* `exists_firstSegment` : a text with real text has a first segment.
* `normalize_keeps_text_iff` : exactly which texts lose all their real text, and which become empty.
* `blank_banner_erases_text` : descriptions that lose it.
-/
import ProcedureCatalog.Proofs.Description.Banners
import ProcedureCatalog.Proofs.Description.CollapsedForm

namespace ProcedureCatalog.Description

open Text

/-! ## Segments hold no double slash -/

/-- No two slashes stand in a row. -/
def NoDoubleSlash (cs : List Char) : Prop := cs.IsChain fun c d => ¬ (c = '/' ∧ d = '/')

/-- What stands before the first double slash starts like the text. -/
theorem head?_upToSlashes {cs : List Char} : ∀ c ∈ (upToSlashes cs).head?, c ∈ cs.head? := by
  fun_cases upToSlashes cs with
  | case1 => simp
  | case2 => simp
  | case3 => simp

theorem noDoubleSlash_upToSlashes (cs : List Char) : NoDoubleSlash (upToSlashes cs) := by
  fun_induction upToSlashes cs with
  | case1 => exact .nil
  | case2 c cs hdouble ih =>
    refine List.isChain_cons.2 ⟨?_, ih⟩
    rintro d hd ⟨rfl, rfl⟩
    obtain ⟨tail, rfl⟩ := List.head?_eq_some_iff.1 (head?_upToSlashes '/' hd)
    exact hdouble tail rfl rfl
  | case3 => exact .nil

/-- The first segment is what stands before the first double slash. -/
theorem head?_segments (cs : List Char) : (segments cs).head? = some (upToSlashes cs) := by
  fun_induction segments cs with
  | case1 rest => rfl
  | case2 c rest hdouble hs ih =>
    rw [hs] at ih
    simp at ih
  | case3 c rest hdouble piece pieces hs ih =>
    rw [hs] at ih
    rw [upToSlashes, ← Option.some.inj ih]
    · rfl
    · exact hdouble
  | case4 => rfl

/-- A segment is what stands before the first double slash of some end of the text. -/
theorem exists_of_mem_segments {cs segment : List Char} (h : segment ∈ segments cs) :
    ∃ rest, rest <:+ cs ∧ segment = upToSlashes rest := by
  fun_induction segments cs with
  | case1 rest ih =>
    rcases List.mem_cons.1 h with rfl | h
    · exact ⟨_, List.suffix_rfl, by rw [upToSlashes]⟩
    · obtain ⟨tail, htail, heq⟩ := ih h
      exact ⟨tail, (htail.trans (List.suffix_cons _ _)).trans (List.suffix_cons _ _), heq⟩
  | case2 c rest hdouble hs ih =>
    have hhead := head?_segments rest
    rw [hs] at hhead
    simp at hhead
  | case3 c rest hdouble piece pieces hs ih =>
    rcases List.mem_cons.1 h with rfl | h
    · have hhead := head?_segments rest
      rw [hs] at hhead
      refine ⟨_, List.suffix_rfl, ?_⟩
      rw [upToSlashes, ← Option.some.inj hhead]
      exact hdouble
    · obtain ⟨tail, htail, heq⟩ := ih (by rw [hs]; exact List.mem_cons_of_mem _ h)
      exact ⟨tail, htail.trans (List.suffix_cons _ _), heq⟩
  | case4 => exact ⟨[], List.suffix_rfl, List.mem_singleton.1 h⟩

/-! ## Cleaned segments start plainly -/

/-- Without dashes and double slashes a collapsed text starts plainly. -/
theorem startsPlain_collapse {cs : List Char} (hdash : '-' ∉ cs) (hslash : NoDoubleSlash cs) :
    StartsPlain (Text.collapse cs) := by
  rw [Text.collapse]
  cases hw : words cs with
  | nil => trivial
  | cons word rest =>
    have hmem : word ∈ words cs := by rw [hw]; exact List.mem_cons_self
    have hword : NoDoubleSlash word := List.IsChain.infix hslash (isInfix_of_mem_words hmem)
    obtain ⟨c, tail, rfl⟩ := List.exists_cons_of_ne_nil (ne_nil_of_mem_words hmem)
    obtain ⟨hin, hblank⟩ := mem_of_mem_words hmem List.mem_cons_self
    -- the word goes on without a slash, or a space or nothing follows it
    have hnext : ¬ (c = '/' ∧ tail.head? = some '/') := by
      rintro ⟨rfl, htail⟩
      exact (List.isChain_cons.1 hword).1 '/' htail ⟨rfl, rfl⟩
    have hplain : ∀ more : List Char, (∀ d ∈ more.head?, d = ' ') →
        StartsPlain (c :: tail ++ more) := by
      intro more hmore
      refine ⟨hblank, fun h => hdash (h ▸ hin), ?_⟩
      rintro ⟨rfl, hhead⟩
      change (tail ++ more).head? = some '/' at hhead
      cases tail with
      | nil => exact absurd (hmore '/' hhead) (by decide)
      | cons d tail => exact hnext ⟨rfl, hhead⟩
    cases rest with
    | nil =>
      have hword := hplain [] (by simp)
      rwa [List.append_nil] at hword
    | cons second rest =>
      rw [joinWith_cons_cons, List.append_assoc]
      exact hplain _ (by simp)

/-- Nothing is dropped at the start of a text that starts plainly. -/
theorem dropDecoration_eq_self {cs : List Char} (h : StartsPlain cs) : dropDecoration cs = cs := by
  cases cs with
  | nil => rfl
  | cons c cs =>
    obtain ⟨hblank, hdash, hslash⟩ := h
    rw [dropDecoration, if_neg (by simp [hblank, hdash])]
    rintro rest rfl rfl
    exact hslash ⟨rfl, rfl⟩

/-- Turning dashes into blanks leaves every other character as it is, and no dash. -/
theorem eq_and_ne_dash_of_blanked {c d : Char} (h : (if c == '-' then ' ' else c) = d)
    (hd : d ≠ ' ') : c = d ∧ c ≠ '-' := by
  split at h
  · exact absurd h.symm hd
  · next hc => exact ⟨h, by simpa using hc⟩

/-- A cleaned segment has no decoration at its start. -/
theorem undecorate_cleanSegment {cs segment : List Char} (h : segment ∈ segments cs) :
    undecorate (cleanSegment segment) = cleanSegment segment := by
  obtain ⟨rest, -, rfl⟩ := exists_of_mem_segments h
  have hdash : '-' ∉ (upToSlashes rest).map fun c => if c == '-' then ' ' else c := by
    intro hmem
    obtain ⟨c, -, hc⟩ := List.mem_map.1 hmem
    obtain ⟨heq, hne⟩ := eq_and_ne_dash_of_blanked hc (by decide)
    exact hne heq
  have hslash : NoDoubleSlash ((upToSlashes rest).map fun c => if c == '-' then ' ' else c) := by
    refine (List.isChain_map _).2 ((noDoubleSlash_upToSlashes rest).imp ?_)
    rintro c d hcd ⟨hc, hd⟩
    exact hcd ⟨(eq_and_ne_dash_of_blanked hc (by decide)).1,
      (eq_and_ne_dash_of_blanked hd (by decide)).1⟩
  rw [undecorate, cleanSegment, (isCollapsed_collapse _).trimEnd_eq_self,
    dropDecoration_eq_self (startsPlain_collapse hdash hslash)]

/-- A text with real text has a first segment that is more than dashes and blanks. -/
theorem exists_firstSegment {cs : List Char} (h : HasText cs) :
    ∃ segment ∈ segments cs, firstSegment cs = cleanSegment segment ∧
      cleanSegment segment ≠ [] := by
  unfold firstSegment
  cases hfind : ((segments cs).map cleanSegment).find? (!·.isEmpty) with
  | some cleaned =>
    obtain ⟨segment, hmem, rfl⟩ := List.mem_map.1 (List.mem_of_find?_eq_some hfind)
    refine ⟨segment, hmem, rfl, ?_⟩
    simpa using List.find?_some hfind
  | none =>
    -- then the whole text is decoration
    have hclean : ∀ segment ∈ segments cs, cleanSegment segment = [] := by
      intro segment hmem
      simpa using List.find?_eq_none.1 hfind (cleanSegment segment) (List.mem_map_of_mem hmem)
    have hdrop := (hasText_dropDecoration cs).2 h
    rw [dropDecoration_eq_nil hclean] at hdrop
    exact absurd hdrop not_hasText_nil

/-! ## What stays of a piece -/

/-- Of the text of a banner some real text stays, or else nothing. -/
theorem hasText_bannerForm {body : List Char} (hslash : '/' ∉ body) :
    (HasText (bannerForm body) ↔ HasText body) ∧ (bannerForm body = [] ↔ ¬ HasText body) := by
  have hplain : StartsPlain (undecorate (Text.collapse body)) := startsPlain_dropDecoration _
  have hkept : '/' ∉ undecorate (Text.collapse body) := fun hmem =>
    hslash ((mem_collapse_iff (by decide)).1 (mem_of_mem_undecorate hmem))
  have hsame : HasText (undecorate (Text.collapse body)) ↔ HasText body := by
    rw [hasText_undecorate, hasText_collapse]
  rw [bannerForm, hasText_trimEnd]
  by_cases hbody : HasText body
  · have hcut : HasText ((undecorate (Text.collapse body)).take limit) :=
      hasText_take_of_startsPlain hplain (hsame.2 hbody).ne_nil hkept (by decide)
    refine ⟨iff_of_true hcut hbody, iff_of_false ?_ (not_not_intro hbody)⟩
    exact ((hasText_trimEnd _).2 hcut).ne_nil
  · -- a text that starts plainly, without slashes, has real text unless it is empty
    have hnil : undecorate (Text.collapse body) = [] := by
      by_contra hne
      obtain ⟨c, hc, htext⟩ := hasText_take_of_startsPlain hplain hne hkept Nat.one_pos
      exact hbody (hsame.1 ⟨c, List.mem_of_mem_take hc, htext⟩)
    rw [hnil]
    exact ⟨iff_of_false not_hasText_nil hbody, iff_of_true rfl hbody⟩

/-- An abridged text keeps its real text, and the ellipsis counts as such. -/
theorem hasText_abridge (cs : List Char) :
    HasText (abridge cs) ↔ HasText cs ∨ limit < cs.length := by
  unfold abridge
  split
  · next hlong =>
    have hdots : HasText ellipsis := by decide
    exact iff_of_true (hasText_append.2 (.inr hdots)) (.inr hlong)
  · next hshort => exact (or_iff_left hshort).symm

theorem abridge_ne_nil {cs : List Char} (h : cs ≠ []) : abridge cs ≠ [] := by
  unfold abridge
  split
  · exact List.append_ne_nil_of_right_ne_nil _ (List.cons_ne_nil _ _)
  · exact h

/-! ## What stays of a description -/

/-- The piece that is taken of a text without its markers has no real text, nor is it so long that
an ellipsis marks it. -/
def TakesNoText (cs : List Char) : Prop :=
  match banner cs with
  | some body => ¬ HasText body
  | none => ¬ HasText (firstSegment cs) ∧ (firstSegment cs).length ≤ limit

instance (cs : List Char) : Decidable (TakesNoText cs) :=
  match h : banner cs with
  | some body => decidable_of_iff (¬ HasText body) (by rw [TakesNoText, h])
  | none =>
    decidable_of_iff (¬ HasText (firstSegment cs) ∧ (firstSegment cs).length ≤ limit)
      (by rw [TakesNoText, h])

/-- What condensing leaves of a text with real text. -/
theorem hasText_condense {cs : List Char} (h : HasText cs) :
    (HasText (condense cs) ↔ ¬ TakesNoText (dropMarkers cs)) ∧
      (condense cs = [] ↔ ∃ body, banner (dropMarkers cs) = some body ∧ ¬ HasText body) := by
  rw [condense_eq]
  unfold TakesNoText
  cases hbanner : banner (dropMarkers cs) with
  | some body =>
    obtain ⟨htext, hnil⟩ := hasText_bannerForm (slash_notMem_of_banner hbanner).2
    refine ⟨htext.trans not_not.symm, hnil.trans ?_⟩
    simp
  | none =>
    obtain ⟨segment, hmem, hfirst, hne⟩ := exists_firstSegment ((hasText_dropMarkers cs).2 h)
    have hself : undecorate (firstSegment (dropMarkers cs)) = firstSegment (dropMarkers cs) := by
      rw [hfirst, undecorate_cleanSegment hmem]
    dsimp only
    rw [hself, hasText_abridge, not_and_or, not_not, not_le]
    refine ⟨Iff.rfl, iff_of_false ?_ (by simp)⟩
    rw [hfirst]
    exact abridge_ne_nil hne

/-- **Exactly which descriptions lose their text.** All real text is lost when a decorated or long
text is condensed to a piece without any, and nothing at all is left when that piece is the text of
a banner. -/
theorem normalize_keeps_text_iff {text : String} (h : HasText text.toList) :
    (HasText (normalize text).toList ↔
      ¬ ((isDecorated text.toList = true ∨ 280 < text.toList.length) ∧
        TakesNoText (dropMarkers text.toList))) ∧
    (normalize text = "" ↔ (isDecorated text.toList = true ∨ 280 < text.toList.length) ∧
      ∃ body, banner (dropMarkers text.toList) = some body ∧ ¬ HasText body) := by
  rw [← String.toList_eq_nil_iff, toList_normalize]
  by_cases hkind : isDecorated text.toList = true ∨ 280 < text.toList.length
  · obtain ⟨htext, hnil⟩ := hasText_condense h
    rw [normalizeChars_of_decorated_or_long hkind, htext, hnil, and_iff_right hkind,
      and_iff_right hkind]
    exact ⟨Iff.rfl, Iff.rfl⟩
  · rw [not_or, Bool.not_eq_true, Nat.not_lt] at hkind
    rw [normalizeChars_of_plain hkind.1 hkind.2]
    refine ⟨iff_of_true h ?_, iff_of_false h.ne_nil ?_⟩
    all_goals
      rintro ⟨hdecorated | hlong, -⟩
      · rw [hkind.1] at hdecorated
        contradiction
      · exact Nat.not_lt.2 hkind.2 hlong

/-- The name of a banner is lost, and its text stays. -/
theorem normalize_keeps_text_iff_banner :
    HasText "-- x(): a // v2".toList ∧ HasText (normalize "-- x(): a // v2").toList ∧
      normalize "-- x(): a // v2" ≠ "" := by
  have htext : HasText "-- x(): a // v2".toList := by decide
  obtain ⟨hkept, hempty⟩ := normalize_keeps_text_iff htext
  have hbanner : banner (dropMarkers "-- x(): a // v2".toList) = some " a ".toList := by decide
  refine ⟨htext, hkept.2 ?_, ?_⟩
  · rintro ⟨-, hnone⟩
    rw [TakesNoText, hbanner] at hnone
    exact hnone (by decide)
  · intro hnil
    obtain ⟨-, body, hbody, hnone⟩ := hempty.1 hnil
    rw [hbanner] at hbody
    obtain rfl := Option.some.inj hbody
    exact hnone (by decide)

/-- Nothing is left of a banner with a blank between its mark and a double slash, and of a segment
that starts with a slash of its own only that slash. -/
theorem blank_banner_erases_text :
    (normalize "-- x(): // foo" = "" ∧ normalize "-- / // foo" = "/") ∧
      ¬ ∀ text : String, HasText text.toList → HasText (normalize text).toList := by
  have hempty : normalize "-- x(): // foo" = "" := by decide +kernel
  refine ⟨⟨hempty, by decide +kernel⟩, fun h => ?_⟩
  have hkept := h "-- x(): // foo" (by decide)
  rw [hempty] at hkept
  exact not_hasText_nil hkept

end ProcedureCatalog.Description
