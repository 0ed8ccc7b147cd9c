/-
# The walk down behind a label

The text of a label goes on over the comment lines below it. A walk looks at one line after the
other and stops at the first position without a line, with a line that is no comment, or with a
comment that opens a label of an expected name. Of some comments trimming leaves nothing: the walk
goes over them, and they give no text.

* `endsAt_iff` : the positions where the walk stops.
* `mem_followedTexts_iff` : the texts of lines, character by character.
* `walkDown_eq` : the walk collects the continuation behind the text that it has already.
* `IsContinuation` : the continuation described without the walk; there is one from each position.
* `walk_collects_the_lines_below` : the walk finds it.
-/
import Mathlib.Order.Bounds.Basic
import ProcedureCatalog.Proofs.Extraction.CommentTexts
import ProcedureCatalog.Proofs.Extraction.LabelMatchers
import ProcedureCatalog.Proofs.Extraction.Spans

namespace ProcedureCatalog.Label

open Text SourceLine

variable {expected : ExpectedNames} {lines : List (List Char)}

/-! ## Where a continuation ends -/

/-- No label goes on with the line at the position: there is no line, or it is no comment, or its
text without decoration opens a label of an expected name. -/
inductive EndsAt (expected : ExpectedNames) (lines : List (List Char)) (index : Nat) : Prop
  | noLine (h : lines[index]? = none)
  | notComment {line : List Char} (hline : lines[index]? = some line)
      (h : ∀ content, classify line ≠ .comment content)
  | label {line content rest : List Char} {name : String} (hline : lines[index]? = some line)
      (hclass : classify line = .comment content) (hne : trimDecoration content ≠ [])
      (hname : name ∈ expected.names) (hopens : Opens name.toList (trimDecoration content) rest)

/-- The text of a comment without its decoration is a header when it opens a label. -/
theorem isHeader_trimDecoration_iff {content : List Char} :
    isHeader expected (trimDecoration content) = true ↔
      ∃ name ∈ expected.names, ∃ rest, Opens name.toList (trimDecoration content) rest :=
  isHeader_iff (trim_trim _)

/-- The fragment of a comment is its text without decoration. -/
theorem fragment?_of_comment {line content : List Char} (h : classify line = .comment content) :
    fragment? expected line =
      if trimDecoration content ≠ [] ∧ isHeader expected (trimDecoration content) = true then none
      else some (trimDecoration content) := by
  rw [fragment?, h]
  simp

/-- Lines of other kinds give no fragment. -/
theorem fragment?_of_not_comment {line : List Char}
    (h : ∀ content, classify line ≠ .comment content) :
    fragment? expected line = none := by
  unfold fragment?
  split
  · next content hclass => exact absurd hclass (h content)
  · rfl

/-- A continuation ends where there is no line that gives a fragment. -/
theorem endsAt_iff {index : Nat} : EndsAt expected lines index ↔
    ∀ line, lines[index]? = some line → fragment? expected line = none := by
  constructor
  · rintro (h | ⟨hline, h⟩ | ⟨hline, hclass, hne, hname, hopens⟩) line' hline'
    · rw [h] at hline'
      simp at hline'
    · obtain rfl := Option.some.inj (hline.symm.trans hline')
      exact fragment?_of_not_comment h
    · obtain rfl := Option.some.inj (hline.symm.trans hline')
      have hheader := isHeader_trimDecoration_iff.2 ⟨_, hname, _, hopens⟩
      rw [fragment?_of_comment hclass, if_pos ⟨hne, hheader⟩]
  · intro h
    cases hline : lines[index]? with
    | none => exact .noLine hline
    | some line =>
      by_cases hcomment : ∃ content, classify line = .comment content
      · obtain ⟨content, hclass⟩ := hcomment
        have hnone := h line hline
        rw [fragment?_of_comment hclass, ite_eq_left_iff] at hnone
        have hends : trimDecoration content ≠ [] ∧
            isHeader expected (trimDecoration content) = true := by
          by_contra hno
          exact absurd (hnone hno) (Option.some_ne_none _)
        obtain ⟨name, hname, rest, hopens⟩ := isHeader_trimDecoration_iff.1 hends.2
        exact .label hline hclass hends.1 hname hopens
      · exact .notComment hline fun content hclass => hcomment ⟨content, hclass⟩

/-! ## The continuation without the walk -/

/-- The texts of lines: those of their comments without decoration, as far as any is left. -/
def followedTexts (block : List (List Char)) : List (List Char) :=
  (block.map fun line => trimDecoration (classify line).content).filter (!·.isEmpty)

/-- A text of lines is not empty, and it is what stands in a comment of them before all the stars
at its end, trimmed. -/
theorem mem_followedTexts_iff {block : List (List Char)} {text : List Char} :
    text ∈ followedTexts block ↔ text ≠ [] ∧
      ∃ line ∈ block, ∃ body stars, (classify line).content = body ++ stars ∧
        (∀ c ∈ stars, c = '*') ∧ (∀ c ∈ body.getLast?, c ≠ '*') ∧ trim body = text := by
  rw [followedTexts, List.mem_filter, List.mem_map, Bool.not_eq_true', List.isEmpty_eq_false_iff,
    and_comm]
  apply and_congr_right
  intro _
  constructor
  · rintro ⟨line, hline, htext⟩
    exact ⟨line, hline, trimDecoration_content_eq_iff.1 htext⟩
  · rintro ⟨line, hline, htext⟩
    exact ⟨line, hline, trimDecoration_content_eq_iff.2 htext⟩

/-- The continuation from a position: it goes up to the first position where a continuation ends,
and it holds the texts of the lines before that, with a space between each two. -/
structure IsContinuation (expected : ExpectedNames) (lines : List (List Char)) (start : Nat)
    (c : Continuation) : Prop where
  isLeast_stop : IsLeast {index | start ≤ index ∧ EndsAt expected lines index} c.stop
  text_eq : c.text = joinWith [' '] (followedTexts ((lines.take c.stop).drop start))

/-- The text of a continuation is made of the texts of the lines that continue the label. -/
theorem text_continuation (expected : ExpectedNames) (lines : List (List Char)) (start : Nat) :
    (continuation expected lines start).text =
      joinWith [' '] (followedTexts (continuing expected (lines.drop start))) := by
  rw [followedTexts, ← fragments_eq]
  rfl

/-- A continuation ends at its stop. -/
theorem endsAt_stop (expected : ExpectedNames) (lines : List (List Char)) (start : Nat) :
    EndsAt expected lines (continuation expected lines start).stop := by
  rw [endsAt_iff]
  intro line hline
  let rest := (lines.drop start).dropWhile fun line => (fragment? expected line).isSome
  have hsplit : continuing expected (lines.drop start) ++ rest = lines.drop start :=
    List.takeWhile_append_dropWhile
  have hbehind : (continuing expected (lines.drop start) ++ rest)[
      (continuing expected (lines.drop start)).length]? = rest.head? := by
    rw [List.getElem?_append_right (Nat.le_refl _), Nat.sub_self, List.head?_eq_getElem?]
  -- the line at the stop is the first one that does not continue the label
  have hhead : rest.head? = some line := by
    rw [← hbehind, hsplit, List.getElem?_drop, ← hline, stop_continuation]
  have hends := List.head?_dropWhile_not (fun line => (fragment? expected line).isSome)
    (lines.drop start)
  rw [show _ = some line from hhead] at hends
  exact Option.not_isSome_iff_eq_none.1 (by rw [hends]; exact Bool.false_ne_true)

/-- No position before the stop ends a continuation. -/
theorem stop_le {start index : Nat} (hstart : start ≤ index) (h : EndsAt expected lines index) :
    (continuation expected lines start).stop ≤ index := by
  rw [stop_continuation]
  have hlength : (continuing expected (lines.drop start)).length ≤ lines.length - start := by
    rw [← List.length_drop]
    exact (List.takeWhile_prefix _).length_le
  cases hline : lines[index]? with
  | none =>
    have hpast := List.getElem?_eq_none_iff.1 hline
    omega
  | some line =>
    have hat : (lines.drop start)[index - start]? = some line := by
      rw [List.getElem?_drop, Nat.add_sub_cancel' hstart, hline]
    have hnone : (fragment? expected line).isSome = false := by
      rw [endsAt_iff.1 h line hline]
      rfl
    have hbefore : (continuing expected (lines.drop start)).length ≤ index - start :=
      length_takeWhile_le_of_false hat hnone
    omega

/-- What is collected is the continuation. -/
theorem isContinuation_continuation (expected : ExpectedNames) (lines : List (List Char))
    (start : Nat) : IsContinuation expected lines start (continuation expected lines start) := by
  refine ⟨⟨⟨?_, endsAt_stop expected lines start⟩, fun index h => stop_le h.1 h.2⟩, ?_⟩
  · rw [stop_continuation]
    exact Nat.le_add_right _ _
  · rw [drop_take_stop, text_continuation]

/-- There is one continuation from each position. -/
theorem IsContinuation.unique {start : Nat} {c c' : Continuation}
    (h : IsContinuation expected lines start c) (h' : IsContinuation expected lines start c') :
    c = c' := by
  have hstop : c.stop = c'.stop := h.isLeast_stop.unique h'.isLeast_stop
  have htext : c.text = c'.text := by rw [h.text_eq, h'.text_eq, hstop]
  cases c
  cases c'
  cases hstop
  cases htext
  rfl

/-! ## The walk -/

/-- The text of a label with one more fragment behind it. -/
def addFragment (text fragment : List Char) : List Char :=
  if text = [] then fragment else text ++ ' ' :: fragment

/-- The walk down from line `index`, with the text of the lines it has gone over. -/
def walkDown (expected : ExpectedNames) (lines : List (List Char)) (index : Nat)
    (text : List Char) : Continuation :=
  if h : index < lines.length then
    match classify lines[index] with
    | .comment content =>
      if trimDecoration content = [] then walkDown expected lines (index + 1) text
      else if isHeader expected (trimDecoration content) then ⟨text, index⟩
      else walkDown expected lines (index + 1) (addFragment text (trimDecoration content))
    | _ => ⟨text, index⟩
  else ⟨text, index⟩
termination_by lines.length - index

/-- The parts of a text that are not empty, with a space between each two. -/
def joinParts (parts : List (List Char)) : List Char := joinWith [' '] (parts.filter (!·.isEmpty))

theorem joinParts_singleton (text : List Char) : joinParts [text] = text := by
  cases text <;> rfl

/-- Empty parts do not show. -/
theorem joinParts_empty (text : List Char) (parts : List (List Char)) :
    joinParts (text :: [] :: parts) = joinParts (text :: parts) := by
  cases text <;> rfl

/-- A fragment behind the text is the next part. -/
theorem joinParts_addFragment {fragment : List Char} (h : fragment ≠ []) (text : List Char)
    (parts : List (List Char)) :
    joinParts (addFragment text fragment :: parts) = joinParts (text :: fragment :: parts) := by
  obtain ⟨d, fragment, rfl⟩ := List.exists_cons_of_ne_nil h
  cases text with
  | nil => rfl
  | cons c text =>
    change joinWith [' '] ((c :: text ++ ' ' :: d :: fragment) :: parts.filter _) =
      joinWith [' '] ((c :: text) :: (d :: fragment) :: parts.filter _)
    cases parts.filter (!·.isEmpty) with
    | nil => rw [joinWith_cons_cons, joinWith, joinWith, List.append_assoc, List.singleton_append]
    | cons next parts =>
      rw [joinWith_cons_cons, joinWith_cons_cons, joinWith_cons_cons]
      simp only [List.append_assoc, List.cons_append, List.nil_append]

/-- A line that gives a fragment gives the first of the fragments from its position on. -/
theorem fragments_drop_of_fragment {index : Nat} {fragment : List Char}
    (h : index < lines.length) (hfragment : fragment? expected lines[index] = some fragment) :
    fragments expected (lines.drop index) =
      fragment :: fragments expected (lines.drop (index + 1)) := by
  rw [List.drop_eq_getElem_cons h, fragments, hfragment]

/-- From where a continuation ends there are no fragments. -/
theorem fragments_drop_of_endsAt {index : Nat} (h : EndsAt expected lines index) :
    fragments expected (lines.drop index) = [] := by
  cases hdrop : lines.drop index with
  | nil => rfl
  | cons line rest =>
    have hline : lines[index]? = some line := by
      rw [← List.head?_drop, hdrop, List.head?_cons]
    rw [fragments, endsAt_iff.1 h line hline]

/-- The walk down from a line collects the fragments behind the text that it has already, up to
where the continuation stops. -/
theorem walkDown_eq (expected : ExpectedNames) (lines : List (List Char)) (index : Nat)
    (text : List Char) : walkDown expected lines index text =
      ⟨joinParts (text :: fragments expected (lines.drop index)),
        index + (fragments expected (lines.drop index)).length⟩ := by
  have hends : ∀ {index text}, EndsAt expected lines index → Continuation.mk text index =
      ⟨joinParts (text :: fragments expected (lines.drop index)),
        index + (fragments expected (lines.drop index)).length⟩ := by
    intro index text h
    rw [fragments_drop_of_endsAt h, joinParts_singleton, List.length_nil, Nat.add_zero]
  fun_induction walkDown expected lines index text with
  | case1 index text h content hclass hempty ih =>
    have hfragment : fragment? expected lines[index] = some [] := by
      rw [fragment?_of_comment hclass, if_neg fun hends => hends.1 hempty, hempty]
    rw [ih, fragments_drop_of_fragment h hfragment, joinParts_empty, List.length_cons,
      Nat.add_right_comm, Nat.add_assoc index]
  | case2 index text h content hclass hne hheader =>
    obtain ⟨name, hname, rest, hopens⟩ := isHeader_trimDecoration_iff.1 hheader
    exact hends (.label (List.getElem?_eq_getElem h) hclass hne hname hopens)
  | case3 index text h content hclass hne hheader ih =>
    have hfragment : fragment? expected lines[index] = some (trimDecoration content) := by
      rw [fragment?_of_comment hclass, if_neg fun hends => hheader hends.2]
    rw [ih, fragments_drop_of_fragment h hfragment, joinParts_addFragment hne, List.length_cons,
      Nat.add_right_comm, Nat.add_assoc index]
  | case4 index text h hclass =>
    exact hends (.notComment (List.getElem?_eq_getElem h) fun content => hclass content)
  | case5 index text h =>
    exact hends (.noLine (List.getElem?_eq_none_iff.2 (Nat.le_of_not_lt h)))

/-- **The walk collects the lines below a label.** From every position, also one behind the last
line, the walk down arrives. It stops at the first position from there on where no line goes on
with the label: there is none, it is no comment, or its text without decoration opens a label of an
expected name. What it collects is the texts of all lines before that without their decoration, in
their order, as far as anything is left of them, with a space between each two. No other
continuation is like this. -/
theorem walk_collects_the_lines_below (expected : ExpectedNames) (lines : List (List Char))
    (start : Nat) :
    walkDown expected lines start [] = continuation expected lines start ∧
      ∀ c, continuation expected lines start = c ↔ IsContinuation expected lines start c := by
  constructor
  · rw [walkDown_eq]
    rfl
  · intro c
    constructor
    · rintro rfl
      exact isContinuation_continuation expected lines start
    · exact (isContinuation_continuation expected lines start).unique

/-- Stars and an empty comment leave nothing, and the label of another name ends the text. -/
example : continuation (ExpectedNames.ofList ["A", "B"])
    ["// A : a".toList, "// b ***".toList, "//".toList, "** c".toList, "// b(): d".toList] 1 =
      ⟨"b c".toList, 4⟩ := by
  decide +kernel

end ProcedureCatalog.Label
