/-
# Patterns of searches

What fits a pattern, by the rules for its characters alone: `%` is any run, `_` is any character,
and every other character is itself up to the case of ASCII letters. Reading a pattern beside the
list of what may be left of the text decides that.

* `Matches` : the rules.
* `any_foldl_step_iff`, `fits_iff` : the reader follows them, up to the first null characters.
* `matches_append_iff` : patterns one behind the other.
* `matches_of_toLower_eq` : every text fits itself as a pattern.
* `matches_iff_of_plain` : nothing else does if the pattern has no `%` and no `_`.
* `fits_containing_iff` : what a search for a text finds.
-/
import Mathlib.Data.List.Infix
import Mathlib.Data.List.TakeWhile
import ProcedureCatalog.Catalog.Like

namespace ProcedureCatalog.Like

/-! ## The rules -/

/-- The text fits the pattern. -/
inductive Matches : List Char → List Char → Prop
  /-- Nothing is left of both. -/
  | nil : Matches [] []
  /-- A run takes what stands before a suffix of the text. -/
  | run {pattern rest text : List Char} :
    rest <:+ text → Matches pattern rest → Matches ('%' :: pattern) text
  /-- An underscore takes one character. -/
  | any {c : Char} {pattern text : List Char} :
    Matches pattern text → Matches ('_' :: pattern) (c :: text)
  /-- Another character takes itself, up to the case of ASCII letters. -/
  | letter {p c : Char} {pattern text : List Char} :
    p ≠ '%' → p ≠ '_' → p.toLower = c.toLower → Matches pattern text →
    Matches (p :: pattern) (c :: text)

section

variable {p : Char} {pattern text : List Char}

@[simp] theorem matches_nil_iff : Matches [] text ↔ text = [] := by
  constructor
  · intro h
    cases h
    rfl
  · rintro rfl
    exact .nil

theorem matches_run_iff :
    Matches ('%' :: pattern) text ↔ ∃ rest, rest <:+ text ∧ Matches pattern rest := by
  constructor
  · intro h
    generalize hp : '%' :: pattern = whole at h
    cases h with
    | nil => simp at hp
    | run hrest h =>
      obtain ⟨-, rfl⟩ := List.cons.inj hp
      exact ⟨_, hrest, h⟩
    | any => simp at hp
    | letter hrun => exact absurd (List.cons.inj hp).1.symm hrun
  · rintro ⟨rest, hrest, h⟩
    exact .run hrest h

/-- A character of a pattern that is not a run takes the character. -/
def Takes (p c : Char) : Prop := p = '_' ∨ p.toLower = c.toLower

theorem matches_cons_iff (hp : p ≠ '%') : Matches (p :: pattern) text ↔
    ∃ c rest, text = c :: rest ∧ Takes p c ∧ Matches pattern rest := by
  constructor
  · intro h
    cases h with
    | run => exact absurd rfl hp
    | any h => exact ⟨_, _, rfl, .inl rfl, h⟩
    | letter _ _ hletter h => exact ⟨_, _, rfl, .inr hletter, h⟩
  · rintro ⟨c, rest, rfl, htakes, h⟩
    by_cases hany : p = '_'
    · subst hany
      exact .any h
    · exact .letter hp hany (htakes.resolve_left hany) h

end

/-! ## The reader -/

/-- What may be left of the text, the longest first, each a suffix of those before it. -/
def IsChain (rests : List (List Char)) : Prop :=
  rests.Pairwise fun longer shorter => shorter <:+ longer

section

variable {p : Char} {pattern text rest : List Char} {rests : List (List Char)}

theorem mem_suffixes_iff : rest ∈ suffixes text ↔ rest <:+ text := by
  induction text with
  | nil => simp [suffixes]
  | cons c text ih => rw [suffixes, List.mem_cons, ih, List.suffix_cons_iff]

theorem isChain_suffixes (text : List Char) : IsChain (suffixes text) := by
  induction text with
  | nil => exact List.pairwise_singleton _ _
  | cons c text ih =>
    refine List.Pairwise.cons (fun rest hrest => ?_) ih
    exact (mem_suffixes_iff.1 hrest).trans (List.suffix_cons c text)

theorem afterOne?_eq_some_iff :
    afterOne? p text = some rest ↔ ∃ c, text = c :: rest ∧ Takes p c := by
  cases text with
  | nil => simp [afterOne?]
  | cons c text =>
    simp only [afterOne?, Takes, Bool.or_eq_true, beq_iff_eq, Option.ite_none_right_eq_some,
      Option.some.injEq, List.cons.injEq]
    constructor
    · rintro ⟨htakes, rfl⟩
      exact ⟨c, ⟨rfl, rfl⟩, htakes⟩
    · rintro ⟨_, ⟨rfl, rfl⟩, htakes⟩
      exact ⟨htakes, rfl⟩

/-- What is left after one character keeps its order. -/
theorem suffix_of_afterOne? {longer shorter longer' shorter' : List Char} (h : shorter <:+ longer)
    (hlonger : afterOne? p longer = some longer') (hshorter : afterOne? p shorter = some shorter') :
    shorter' <:+ longer' := by
  obtain ⟨c, rfl, -⟩ := afterOne?_eq_some_iff.1 hlonger
  obtain ⟨d, rfl, -⟩ := afterOne?_eq_some_iff.1 hshorter
  rcases List.suffix_cons_iff.1 h with heq | hsuffix
  · obtain ⟨-, rfl⟩ := List.cons.inj heq
    exact List.suffix_rfl
  · exact (List.suffix_cons d shorter').trans hsuffix

/-- One more character keeps the order. -/
theorem IsChain.step (h : IsChain rests) (p : Char) : IsChain (step rests p) := by
  unfold Like.step
  split
  · cases rests with
    | nil => exact List.Pairwise.nil
    | cons longest rests => exact isChain_suffixes longest
  · refine List.Pairwise.filterMap _ ?_ h
    intro longer shorter hsuffix longer' hlonger shorter' hshorter
    exact suffix_of_afterOne? hsuffix hlonger hshorter

/-- Something of what may be left fits a pattern when something of what is left after its first
character fits the others. -/
theorem exists_mem_step_iff (h : IsChain rests) :
    (∃ rest ∈ step rests p, Matches pattern rest) ↔
      ∃ rest ∈ rests, Matches (p :: pattern) rest := by
  unfold step
  by_cases hp : p = '%'
  · subst hp
    simp only [beq_self_eq_true, if_true, matches_run_iff]
    cases rests with
    | nil => simp
    | cons longest rests =>
      -- a suffix of any text of the chain is one of the longest
      have hlongest : ∀ rest ∈ longest :: rests, rest <:+ longest := by
        intro rest hrest
        rcases List.mem_cons.1 hrest with rfl | hrest
        · exact List.suffix_rfl
        · exact (List.pairwise_cons.1 h).1 rest hrest
      constructor
      · rintro ⟨rest, hrest, hmatch⟩
        exact ⟨longest, List.mem_cons_self, rest, mem_suffixes_iff.1 hrest, hmatch⟩
      · rintro ⟨text, htext, rest, hrest, hmatch⟩
        exact ⟨rest, mem_suffixes_iff.2 (hrest.trans (hlongest text htext)), hmatch⟩
  · simp only [beq_eq_false_iff_ne.2 hp, Bool.false_eq_true, if_false, matches_cons_iff hp,
      List.mem_filterMap, afterOne?_eq_some_iff]
    constructor
    · rintro ⟨rest, ⟨_, htext, c, rfl, htakes⟩, hmatch⟩
      exact ⟨_, htext, c, rest, rfl, htakes, hmatch⟩
    · rintro ⟨_, htext, c, rest, rfl, htakes, hmatch⟩
      exact ⟨rest, ⟨_, htext, c, rfl, htakes⟩, hmatch⟩

/-- **The reader follows the rules.** Nothing is left of one of the texts after reading the pattern
exactly when one of them fits it. -/
theorem any_foldl_step_iff (h : IsChain rests) :
    (pattern.foldl step rests).any (·.isEmpty) = true ↔ ∃ rest ∈ rests, Matches pattern rest := by
  induction pattern generalizing rests with
  | nil => simp
  | cons p pattern ih => rw [List.foldl_cons, ih (h.step p), exists_mem_step_iff h]

/-- What is visible of the text fits what is visible of the pattern. -/
theorem fits_iff : fits pattern text = true ↔ Matches (visible pattern) (visible text) := by
  unfold fits
  rw [any_foldl_step_iff (List.pairwise_singleton _ _)]
  simp

end

/-! ## Patterns one behind the other -/

section

variable {first second pattern text part : List Char}

/-- A text fits two patterns in a row when a first part fits the first and the rest the second. -/
theorem matches_append_iff : Matches (first ++ second) text ↔
    ∃ before after, text = before ++ after ∧ Matches first before ∧ Matches second after := by
  induction first generalizing text with
  | nil => simp
  | cons p first ih =>
    rw [List.cons_append]
    by_cases hp : p = '%'
    · subst hp
      simp only [matches_run_iff, ih]
      constructor
      · rintro ⟨_, ⟨taken, rfl⟩, before, after, rfl, hbefore, hafter⟩
        exact ⟨taken ++ before, after, (List.append_assoc _ _ _).symm,
          ⟨before, List.suffix_append taken before, hbefore⟩, hafter⟩
      · rintro ⟨_, after, rfl, ⟨before, ⟨taken, rfl⟩, hbefore⟩, hafter⟩
        exact ⟨before ++ after, ⟨taken, (List.append_assoc _ _ _).symm⟩, before, after, rfl,
          hbefore, hafter⟩
    · simp only [matches_cons_iff hp, ih]
      constructor
      · rintro ⟨c, _, rfl, htakes, before, after, rfl, hbefore, hafter⟩
        exact ⟨c :: before, after, rfl, ⟨c, before, rfl, htakes, hbefore⟩, hafter⟩
      · rintro ⟨_, after, rfl, ⟨c, before, rfl, htakes, hbefore⟩, hafter⟩
        exact ⟨c, before ++ after, rfl, htakes, before, after, rfl, hbefore, hafter⟩

/-- A text of which a part fits the pattern fits the pattern between two runs. -/
theorem matches_containing_iff :
    Matches (containing pattern) text ↔ ∃ part, part <:+: text ∧ Matches pattern part := by
  unfold containing
  simp only [List.cons_append, matches_run_iff, matches_append_iff]
  constructor
  · rintro ⟨_, ⟨before, rfl⟩, part, after, rfl, hpart, -⟩
    exact ⟨part, ⟨before, after, List.append_assoc _ _ _⟩, hpart⟩
  · rintro ⟨part, ⟨before, after, rfl⟩, hpart⟩
    exact ⟨part ++ after, ⟨before, (List.append_assoc _ _ _).symm⟩, part, after, rfl, hpart, [],
      List.nil_suffix, .nil⟩

end

/-! ## Texts as patterns -/

section

variable {pattern text : List Char}

/-- A text fits every pattern of the same characters up to case, also if these have a meaning. -/
theorem matches_of_toLower_eq (h : text.map Char.toLower = pattern.map Char.toLower) :
    Matches pattern text := by
  induction pattern generalizing text with
  | nil => simpa using h
  | cons p pattern ih =>
    obtain ⟨c, rest, rfl, hc, hrest⟩ := List.map_eq_cons_iff.1 h
    by_cases hp : p = '%'
    · subst hp
      exact .run (List.suffix_cons c rest) (ih hrest)
    · exact (matches_cons_iff hp).2 ⟨c, rest, rfl, .inr hc.symm, ih hrest⟩

/-- Without `%` and `_`, nothing else fits. -/
theorem matches_iff_of_plain (hrun : '%' ∉ pattern) (hany : '_' ∉ pattern) :
    Matches pattern text ↔ text.map Char.toLower = pattern.map Char.toLower := by
  refine ⟨fun h => ?_, matches_of_toLower_eq⟩
  induction h with
  | nil => rfl
  | run => exact absurd List.mem_cons_self hrun
  | any => exact absurd List.mem_cons_self hany
  | letter _ _ hletter _ ih =>
    rw [List.map_cons, List.map_cons, hletter, ih (fun hmem => hrun (List.mem_cons_of_mem _ hmem))
      fun hmem => hany (List.mem_cons_of_mem _ hmem)]

end

/-! ## Searches -/

/-- The text contains the other one, up to the case of ASCII letters. -/
def Contains (text sought : List Char) : Prop :=
  sought.map Char.toLower <:+: text.map Char.toLower

instance (text sought : List Char) : Decidable (Contains text sought) :=
  inferInstanceAs (Decidable (_ <:+: _))

/-- A search for the one text finds the other: a part of what is visible of the other fits what is
visible of the first. A null character in the first hides the run at the end of the pattern, so the
part is the end. -/
def Finds (sought text : List Char) : Prop :=
  ∃ part, Matches (visible sought) part ∧
    if '\x00' ∈ sought then part <:+ visible text else part <:+: visible text

section

variable {sought text : List Char}

theorem visible_eq_self (h : '\x00' ∉ text) : visible text = text := by
  rw [visible, List.takeWhile_eq_self_iff]
  exact fun c hc => bne_iff_ne.2 fun heq => h (heq ▸ hc)

/-- Behind a null character nothing is visible. -/
theorem visible_append_of_mem (h : '\x00' ∈ text) (more : List Char) :
    visible (text ++ more) = visible text := by
  unfold visible
  induction text with
  | nil => simp at h
  | cons c text ih =>
    by_cases hc : c = '\x00'
    · simp [hc]
    · have hrest : '\x00' ∈ text := (List.mem_cons.1 h).resolve_left (Ne.symm hc)
      rw [List.cons_append, List.takeWhile_cons, List.takeWhile_cons, ih hrest]

/-- What a search for a text finds. -/
theorem fits_containing_iff : fits (containing sought) text = true ↔ Finds sought text := by
  rw [fits_iff, Finds]
  by_cases hnull : '\x00' ∈ sought
  · have hcut : visible (containing sought) = '%' :: visible sought :=
      congrArg (List.cons '%') (visible_append_of_mem hnull ['%'])
    simp only [hcut, matches_run_iff, if_pos hnull, and_comm]
  · have hwhole : visible (containing sought) = containing sought :=
      visible_eq_self (by simp [containing, hnull])
    simp only [hwhole, matches_containing_iff, if_neg hnull, visible_eq_self hnull, and_comm]

theorem contains_iff : Contains text sought ↔
    ∃ part, part <:+: text ∧ part.map Char.toLower = sought.map Char.toLower := by
  rw [Contains, List.infix_map_iff]
  exact exists_congr fun part => and_congr_right fun _ => eq_comm

/-- A text without null characters is found where it is contained in what is visible, also if its
characters have a meaning in patterns. -/
theorem finds_of_contains (hnull : '\x00' ∉ sought) (h : Contains (visible text) sought) :
    Finds sought text := by
  obtain ⟨part, hpart, hlower⟩ := contains_iff.1 h
  refine ⟨part, ?_, ?_⟩
  · rw [visible_eq_self hnull]
    exact matches_of_toLower_eq hlower
  · rwa [if_neg hnull]

/-- If none of its characters has a meaning, it is found nowhere else. -/
theorem finds_iff_contains (hnull : '\x00' ∉ sought) (hrun : '%' ∉ sought) (hany : '_' ∉ sought) :
    Finds sought text ↔ Contains (visible text) sought := by
  simp only [Finds, contains_iff, visible_eq_self hnull, matches_iff_of_plain hrun hany,
    if_neg hnull, and_comm]

end

end ProcedureCatalog.Like
