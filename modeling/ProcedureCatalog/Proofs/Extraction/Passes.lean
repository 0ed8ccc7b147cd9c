/-
# Passes over a source

Both passes over a source go through its lines once, from top to bottom, and remember the names
they have found. What a line gives is a new name, found on that line.

* `scan` is the walk that both passes are: `Label.collectFrom_eq_scan`,
  `Declaration.collectFrom_eq_scan`.
* `Label.candidate?_eq_some`, `Declaration.candidate?_eq_some` : all that a line can give.
* `pairwise_scan` : the candidates of a pass have rising lines and different names.
* `mem_scan_iff` : which candidates a pass finds when only the lines decide.
* `isFirst_iff_isFirstSaid` : they are the first descriptions of their names.
-/
import Mathlib.Data.List.Basic
import Mathlib.Data.Nat.Find
import ProcedureCatalog.Extraction

namespace ProcedureCatalog

open SourceLine

/-- The position of a candidate's line in the source. -/
def Candidate.index (c : Candidate) : Nat := c.line.getD 0 - 1

/-! ## What a line gives -/

namespace Label

/-- A label that is matched belongs to an expected name outside `resolved`. -/
theorem match?_eq_some {expected : ExpectedNames} {resolved : List String} {content : List Char}
    {name : String} {own : List Char} (h : match? expected resolved content = some (name, own)) :
    name ∈ expected.names ∧ name ∉ resolved ∧ textOf? name content = some own := by
  obtain ⟨other, hother, hmatch⟩ := List.exists_of_findSome?_eq_some h
  obtain ⟨hmem, hnew⟩ := List.mem_filter.1 hother
  obtain ⟨text, htext, heq⟩ := Option.map_eq_some_iff.1 hmatch
  obtain ⟨rfl, rfl⟩ := Prod.mk.inj heq
  refine ⟨hmem, ?_, htext⟩
  simpa using hnew

/-- All that a line can give to the pass over the labels. -/
theorem candidate?_eq_some {expected : ExpectedNames} {lines : List (List Char)}
    {resolved : List String} {index : Nat} {line : List Char} {c : Candidate}
    (h : candidate? expected lines resolved index line = some c) :
    ∃ content own, classify line = .comment content ∧
      match? expected resolved content = some (c.name, own) ∧ c.description ≠ "" ∧
      c = ⟨c.name, describe expected lines own (index + 1), some (index + 1), .inlineLabel⟩ := by
  unfold candidate? at h
  split at h
  · simp at h
  · next first rest hcontent =>
    -- only a comment has content
    have hcomment : classify line = .comment (first :: rest) := by
      cases hclass : classify line with
      | comment content =>
        rw [hclass] at hcontent
        rw [← hcontent]
        rfl
      | blank => simp [hclass, LineClass.content] at hcontent
      | code => simp [hclass, LineClass.content] at hcontent
    split at h
    · simp at h
    · next name own hmatch =>
      dsimp only at h
      split at h
      · simp at h
      · next hne =>
        obtain rfl := Option.some.inj h
        exact ⟨_, own, hcomment, hmatch, by simpa using hne, rfl⟩

end Label

namespace Declaration

/-- All that a line can give to the pass over the declarations. -/
theorem candidate?_eq_some {expected : ExpectedNames} {lines : List (List Char)}
    {resolved : List String} {index : Nat} {line : List Char} {c : Candidate}
    (h : candidate? expected lines resolved index line = some c) :
    declared? expected line = some c.name ∧ c.name ∉ resolved ∧ c.description ≠ "" ∧
      c = ⟨c.name, describe lines index, some (index + 1), .blockHeader⟩ := by
  unfold candidate? at h
  split at h
  · simp at h
  · next name hdeclared =>
    split at h
    · simp at h
    · next hnew =>
      dsimp only at h
      split at h
      · simp at h
      · next hne =>
        obtain rfl := Option.some.inj h
        exact ⟨hdeclared, by simpa using hnew, by simpa using hne, rfl⟩

end Declaration

/-! ## The walk over the lines -/

/-- How a pass finds a candidate on a line, given the names found before and the position. -/
abbrev Finder := (resolved : List String) → (index : Nat) → (line : List Char) → Option Candidate

/-- The candidates on the lines from `index` on. -/
def scan (find : Finder) :
    (resolved : List String) → (index : Nat) → (remaining : List (List Char)) → List Candidate
  | _, _, [] => []
  | resolved, index, line :: remaining =>
    match find resolved index line with
    | some candidate => candidate :: scan find (candidate.name :: resolved) (index + 1) remaining
    | none => scan find resolved (index + 1) remaining

/-- A walk that takes the same steps gives the same candidates. -/
theorem eq_scan {find : Finder} {walk : List String → Nat → List (List Char) → List Candidate}
    (hnil : ∀ resolved index, walk resolved index [] = [])
    (hcons : ∀ resolved index line remaining, walk resolved index (line :: remaining) =
      match find resolved index line with
      | some candidate => candidate :: walk (candidate.name :: resolved) (index + 1) remaining
      | none => walk resolved (index + 1) remaining)
    (resolved : List String) (index : Nat) (remaining : List (List Char)) :
    walk resolved index remaining = scan find resolved index remaining := by
  induction remaining generalizing resolved index with
  | nil => exact hnil _ _
  | cons line remaining ih =>
    rw [hcons, scan]
    cases find resolved index line with
    | none => exact ih _ _
    | some c => exact congrArg (c :: ·) (ih _ _)

theorem Label.collectFrom_eq_scan (expected : ExpectedNames) (lines : List (List Char)) :
    collectFrom expected lines = scan (candidate? expected lines) := by
  funext resolved index remaining
  exact eq_scan (fun _ _ => rfl) (fun _ _ _ _ => rfl) resolved index remaining

theorem Declaration.collectFrom_eq_scan (expected : ExpectedNames) (lines : List (List Char)) :
    collectFrom expected lines = scan (candidate? expected lines) := by
  funext resolved index remaining
  exact eq_scan (fun _ _ => rfl) (fun _ _ _ _ => rfl) resolved index remaining

/-- A candidate is found on one of the lines, by a pass that knows at least the given names. -/
theorem mem_scan {find : Finder} {resolved : List String} {index : Nat}
    {remaining : List (List Char)} {c : Candidate} (h : c ∈ scan find resolved index remaining) :
    ∃ offset line known, remaining[offset]? = some line ∧
      find known (index + offset) line = some c ∧ resolved ⊆ known := by
  fun_induction scan find resolved index remaining with
  | case1 => simp at h
  | case2 resolved index line remaining candidate hfind ih =>
    rcases List.mem_cons.1 h with rfl | h
    · exact ⟨0, line, resolved, rfl, hfind, fun _ hname => hname⟩
    · obtain ⟨offset, other, known, hline, hother, hknown⟩ := ih h
      refine ⟨offset + 1, other, known, hline, ?_, ?_⟩
      · rw [show index + (offset + 1) = index + 1 + offset by omega]
        exact hother
      · exact fun name hname => hknown (List.mem_cons_of_mem _ hname)
  | case3 resolved index line remaining hfind ih =>
    obtain ⟨offset, other, known, hline, hother, hknown⟩ := ih h
    refine ⟨offset + 1, other, known, hline, ?_, hknown⟩
    rw [show index + (offset + 1) = index + 1 + offset by omega]
    exact hother

/-- What a line gives is a new name, found on that line. -/
def Finder.IsSound (find : Finder) : Prop :=
  ∀ resolved index line c, find resolved index line = some c →
    c.name ∉ resolved ∧ c.line = some (index + 1)

theorem Label.isSound_candidate? (expected : ExpectedNames) (lines : List (List Char)) :
    Finder.IsSound (candidate? expected lines) := by
  intro resolved index line c h
  obtain ⟨content, own, -, hmatch, -, hc⟩ := candidate?_eq_some h
  refine ⟨(match?_eq_some hmatch).2.1, ?_⟩
  rw [hc]

theorem Declaration.isSound_candidate? (expected : ExpectedNames) (lines : List (List Char)) :
    Finder.IsSound (candidate? expected lines) := by
  intro resolved index line c h
  obtain ⟨-, hnew, -, hc⟩ := candidate?_eq_some h
  refine ⟨hnew, ?_⟩
  rw [hc]

/-- A candidate found on a line has its position. -/
theorem Finder.IsSound.index_eq {find : Finder} (hsound : find.IsSound) {resolved : List String}
    {index : Nat} {line : List Char} {c : Candidate} (h : find resolved index line = some c) :
    c.index = index := by
  rw [Candidate.index, (hsound _ _ _ _ h).2]
  rfl

/-- The candidates of a pass stand on rising lines and have different names. -/
theorem pairwise_scan {find : Finder} (hsound : find.IsSound) (resolved : List String)
    (index : Nat) (remaining : List (List Char)) :
    (scan find resolved index remaining).Pairwise fun c d =>
      c.index < d.index ∧ c.name ≠ d.name := by
  fun_induction scan find resolved index remaining with
  | case1 => exact List.Pairwise.nil
  | case2 resolved index line remaining candidate hfind ih =>
    refine List.Pairwise.cons ?_ ih
    intro d hd
    obtain ⟨offset, other, known, -, hother, hknown⟩ := mem_scan hd
    have hname : d.name ∉ known := (hsound _ _ _ _ hother).1
    constructor
    · rw [hsound.index_eq hfind, hsound.index_eq hother]
      omega
    · -- the later part of the pass knows the name of the candidate
      intro heq
      apply hname
      rw [← heq]
      exact hknown List.mem_cons_self
  | case3 resolved index line remaining hfind ih => exact ih

/-! ## The first candidate of each name -/

/-- Of the lines, the one that gives the candidate is the first that gives its name anything;
`index` is the position of the first line. -/
def IsFirst (Gives : Nat → List Char → Candidate → Prop) (index : Nat)
    (lines : List (List Char)) (c : Candidate) : Prop :=
  ∃ offset line, lines[offset]? = some line ∧ Gives (index + offset) line c ∧
    ∀ earlier < offset, ∀ other d, lines[earlier]? = some other →
      Gives (index + earlier) other d → d.name ≠ c.name

/-- The first line gives the candidate, or else nothing of that name, and a line below does. -/
theorem isFirst_cons {Gives : Nat → List Char → Candidate → Prop} {index : Nat}
    {line : List Char} {lines : List (List Char)} {c : Candidate} :
    IsFirst Gives index (line :: lines) c ↔ Gives index line c ∨
      (∀ d, Gives index line d → d.name ≠ c.name) ∧ IsFirst Gives (index + 1) lines c := by
  have hindex : ∀ offset, index + 1 + offset = index + (offset + 1) := by omega
  constructor
  · rintro ⟨offset, other, hother, hgives, hearlier⟩
    cases offset with
    | zero =>
      obtain rfl := Option.some.inj hother
      exact .inl hgives
    | succ offset =>
      have hline : ∀ d, Gives index line d → d.name ≠ c.name := fun d =>
        hearlier 0 (Nat.succ_pos offset) line d rfl
      refine .inr ⟨hline, offset, other, hother, by rwa [hindex], ?_⟩
      intro earlier hlt above d habove hd
      rw [hindex] at hd
      exact hearlier (earlier + 1) (Nat.succ_lt_succ hlt) above d habove hd
  · rintro (hgives | ⟨hfirst, offset, other, hother, hgives, hearlier⟩)
    · exact ⟨0, line, rfl, hgives, fun earlier hlt => absurd hlt (Nat.not_lt_zero earlier)⟩
    · refine ⟨offset + 1, other, hother, by rwa [← hindex], ?_⟩
      intro earlier hlt above d habove hd
      cases earlier with
      | zero =>
        obtain rfl := Option.some.inj habove
        exact hfirst d hd
      | succ earlier =>
        rw [← hindex] at hd
        exact hearlier earlier (Nat.lt_of_succ_lt_succ hlt) above d habove hd

/-- What a line gives is settled by the line and its position; of the names found before, none is
given again. -/
def Finder.IsGivenBy (find : Finder) (Gives : Nat → List Char → Candidate → Prop) : Prop :=
  ∀ resolved index line c, find resolved index line = some c ↔
    c.name ∉ resolved ∧ Gives index line c

/-- A pass finds for each new name what the first line gives that gives it anything, when the names
found before settle nothing else. -/
theorem mem_scan_iff {find : Finder} {Gives : Nat → List Char → Candidate → Prop}
    (h : find.IsGivenBy Gives) {resolved : List String} {index : Nat}
    {remaining : List (List Char)} {c : Candidate} :
    c ∈ scan find resolved index remaining ↔
      c.name ∉ resolved ∧ IsFirst Gives index remaining c := by
  induction remaining generalizing resolved index with
  | nil => simp [scan, IsFirst]
  | cons line remaining ih =>
    rw [scan, isFirst_cons]
    cases hfind : find resolved index line with
    | none =>
      -- the line gives nothing but names found before
      have hknown : ∀ d, Gives index line d → d.name ∈ resolved := by
        intro d hd
        by_contra hnew
        rw [(h _ _ _ _).2 ⟨hnew, hd⟩] at hfind
        contradiction
      refine ih.trans (and_congr_right fun hnew => ⟨?_, ?_⟩)
      · intro hfirst
        exact .inr ⟨fun d hd heq => hnew (heq ▸ hknown d hd), hfirst⟩
      · rintro (hgives | ⟨-, hfirst⟩)
        · exact absurd (hknown c hgives) hnew
        · exact hfirst
    | some d =>
      obtain ⟨hnew, hd⟩ := (h _ _ _ _).1 hfind
      have hone : ∀ e, Gives index line e → e = d := by
        intro e he
        have hfree : ∀ e, Gives index line e → find [] index line = some e := fun e he =>
          (h _ _ _ _).2 ⟨List.not_mem_nil, he⟩
        exact Option.some.inj ((hfree e he).symm.trans (hfree d hd))
      rw [List.mem_cons, ih, List.mem_cons, not_or]
      constructor
      · rintro (rfl | ⟨⟨hne, hnew'⟩, hfirst⟩)
        · exact ⟨hnew, .inl hd⟩
        · exact ⟨hnew', .inr ⟨fun e he => hone e he ▸ Ne.symm hne, hfirst⟩⟩
      · rintro ⟨hnew', hgives | ⟨hother, hfirst⟩⟩
        · exact .inl (hone c hgives)
        · exact .inr ⟨⟨(hother d hd).symm, hnew'⟩, hfirst⟩

/-! ## The first description of each name -/

/-- Of all that is said about its name line by line, the candidate carries the first description
that is not empty. -/
structure IsFirstSaid (Says : (name : String) → (index : Nat) → (description : String) → Prop)
    (s : Strategy) (c : Candidate) : Prop where
  strategy_eq : c.strategy = s
  ne_empty : c.description ≠ ""
  first : ∃ index, c.line = some (index + 1) ∧ Says c.name index c.description ∧
    ∀ earlier < index, ∀ description, Says c.name earlier description → description = ""

section Said

variable {Says : String → Nat → String → Prop} {s : Strategy}

/-- When a line gives what it says about a name, unless that is empty, the first candidate of a
name is the first description of it. -/
theorem isFirst_iff_isFirstSaid {Gives : Nat → List Char → Candidate → Prop}
    {lines : List (List Char)}
    (hline : ∀ name index description, Says name index description →
      ∃ line, lines[index]? = some line)
    (hgives : ∀ index line c, lines[index]? = some line → (Gives index line c ↔
      c.strategy = s ∧ c.description ≠ "" ∧ c.line = some (index + 1) ∧
        Says c.name index c.description))
    {c : Candidate} : IsFirst Gives 0 lines c ↔ IsFirstSaid Says s c := by
  constructor
  · rintro ⟨index, line, hat, hc, hearlier⟩
    rw [Nat.zero_add] at hc
    obtain ⟨hstrategy, hne, hindex, hsaid⟩ := (hgives index line c hat).1 hc
    refine ⟨hstrategy, hne, index, hindex, hsaid, ?_⟩
    intro earlier hlt description hbefore
    by_contra hdescription
    obtain ⟨other, hother⟩ := hline _ _ _ hbefore
    apply hearlier earlier hlt other ⟨c.name, description, some (earlier + 1), s⟩ hother
    · rw [Nat.zero_add]
      exact (hgives earlier other _ hother).2 ⟨rfl, hdescription, rfl, hbefore⟩
    · rfl
  · rintro ⟨hstrategy, hne, index, hindex, hsaid, hearlier⟩
    obtain ⟨line, hat⟩ := hline _ _ _ hsaid
    refine ⟨index, line, hat, ?_, ?_⟩
    · rw [Nat.zero_add]
      exact (hgives index line c hat).2 ⟨hstrategy, hne, hindex, hsaid⟩
    · intro earlier hlt other d hother hd hname
      rw [Nat.zero_add] at hd
      obtain ⟨-, hdescription, -, hbefore⟩ := (hgives earlier other d hother).1 hd
      rw [hname] at hbefore
      exact hdescription (hearlier earlier hlt _ hbefore)

/-- A name has a first description exactly when it has one at all. -/
theorem exists_isFirstSaid_iff {name : String} : (∃ c, IsFirstSaid Says s c ∧ c.name = name) ↔
    ∃ index description, Says name index description ∧ description ≠ "" := by
  constructor
  · rintro ⟨c, ⟨-, hne, index, -, hsaid, -⟩, rfl⟩
    exact ⟨index, c.description, hsaid, hne⟩
  · intro hsome
    classical
    obtain ⟨description, hsaid, hne⟩ := Nat.find_spec hsome
    refine ⟨⟨name, description, some (Nat.find hsome + 1), s⟩, ?_, rfl⟩
    refine ⟨rfl, hne, Nat.find hsome, rfl, hsaid, ?_⟩
    intro earlier hlt other hother
    by_contra hdescription
    exact Nat.find_min hsome hlt ⟨other, hother, hdescription⟩

end Said

end ProcedureCatalog
