/-
# Descriptions do not bleed into each other

Each candidate of a pass is read from a run of lines: a label from its own line up to the first
line that does not continue it, a declaration from the start of the comment block above it down to
its own line. Within a pass no two candidates share a line.

* `isSeparate_scan` : a pass keeps its candidates apart when every line that gives one ends the
  runs before it.
* `Label.isSeparate_collect`, `Declaration.isSeparate_collect` : both passes are like this.
* `passes_do_not_bleed` : the two together, for every source.
-/
import Mathlib.Order.Interval.Finset.Nat
import ProcedureCatalog.Proofs.Extraction.Headers

namespace ProcedureCatalog

open Text SourceLine

/-! ## Runs of lines -/

/-- A run of lines: from the one at `first` up to the one before `past`. -/
structure Span where
  first : Nat
  past : Nat
  deriving DecidableEq, Repr

namespace Span

/-- The positions of the lines in the run. -/
def positions (s : Span) : Finset Nat := Finset.Ico s.first s.past

theorem mem_positions {s : Span} {n : Nat} : n ∈ s.positions ↔ s.first ≤ n ∧ n < s.past :=
  Finset.mem_Ico

/-- The lines of the run. -/
def cut (s : Span) (lines : List (List Char)) : List (List Char) := (lines.take s.past).drop s.first

/-- Two runs share no line when one ends before the other starts. -/
theorem disjoint_of_le {s t : Span} (h : s.past ≤ t.first) :
    Disjoint s.positions t.positions := by
  rw [Finset.disjoint_left]
  intro n hs ht
  have hs := mem_positions.1 hs
  have ht := mem_positions.1 ht
  omega

end Span

/-- A run of lines that all satisfy a condition ends at the latest at one that does not. -/
theorem length_takeWhile_le_of_false {p : List Char → Bool} {lines : List (List Char)} {k : Nat}
    {line : List Char} (hline : lines[k]? = some line) (hp : p line = false) :
    (lines.takeWhile p).length ≤ k := by
  induction lines generalizing k with
  | nil => simp at hline
  | cons first lines ih =>
    rw [List.takeWhile_cons]
    cases k with
    | zero =>
      obtain rfl : first = line := by simpa using hline
      rw [hp]
      exact Nat.le_refl _
    | succ k =>
      split
      · exact Nat.succ_le_succ (ih hline)
      · exact Nat.zero_le _

/-! ## Candidates that stand apart -/

/-- The candidates of a pass stand apart: each on its own line within its run, on rising lines,
with different names, and no two runs share a line. What `Gives` says is that the lines of the run
alone give the candidate its description. -/
structure IsSeparate (lines : List (List Char)) (span : Nat → Span)
    (Gives : List (List Char) → Candidate → Prop) (candidates : List Candidate) : Prop where
  located : ∀ c ∈ candidates, c.line = some (c.index + 1) ∧
    c.index ∈ (span c.index).positions ∧ (span c.index).past ≤ lines.length
  rising : candidates.Pairwise fun c d => c.index < d.index
  distinct : candidates.Pairwise fun c d => c.name ≠ d.name
  disjoint : candidates.Pairwise fun c d =>
    Disjoint (span c.index).positions (span d.index).positions
  fed : ∀ c ∈ candidates, Gives ((span c.index).cut lines) c

/-- The pass finds the candidate on the line at the given position. -/
def Finder.Finds (find : Finder) (lines : List (List Char)) (index : Nat) (line : List Char)
    (c : Candidate) : Prop :=
  lines[index]? = some line ∧ ∃ known, find known index line = some c

/-- A pass keeps its candidates apart, when a line that gives a candidate lies in the run of that
candidate and behind the runs of all candidates above it. -/
theorem isSeparate_scan {find : Finder} (hsound : find.IsSound) {lines : List (List Char)}
    {span : Nat → Span} {Gives : List (List Char) → Candidate → Prop}
    (hspan : ∀ i line c, find.Finds lines i line c →
      i ∈ (span i).positions ∧ (span i).past ≤ lines.length)
    (hends : ∀ i j line line' c d, find.Finds lines i line c → find.Finds lines j line' d →
      i < j → (span i).past ≤ (span j).first)
    (hgives : ∀ i line c, find.Finds lines i line c → Gives ((span i).cut lines) c) :
    IsSeparate lines span Gives (scan find [] 0 lines) := by
  have hfound : ∀ c ∈ scan find [] 0 lines, ∃ line, find.Finds lines c.index line c := by
    intro c hc
    obtain ⟨offset, line, known, hline, hfind, -⟩ := mem_scan hc
    rw [Nat.zero_add] at hfind
    rw [hsound.index_eq hfind]
    exact ⟨line, hline, known, hfind⟩
  have hpairs := pairwise_scan hsound [] 0 lines
  refine ⟨?_, hpairs.imp fun h => h.1, hpairs.imp fun h => h.2, ?_, ?_⟩
  · intro c hc
    obtain ⟨line, hfinds⟩ := hfound c hc
    obtain ⟨known, hfind⟩ := hfinds.2
    exact ⟨(hsound _ _ _ _ hfind).2, hspan _ _ _ hfinds⟩
  · refine hpairs.imp_of_mem ?_
    intro c d hc hd h
    obtain ⟨line, hfinds⟩ := hfound c hc
    obtain ⟨line', hfinds'⟩ := hfound d hd
    exact Span.disjoint_of_le (hends _ _ _ _ _ _ hfinds hfinds' h.1)
  · intro c hc
    obtain ⟨line, hfinds⟩ := hfound c hc
    exact hgives _ _ _ hfinds

/-! ## The run of a label -/

namespace Label

/-- The run of the label on line `index`: its own line and those that continue it. -/
def span (expected : ExpectedNames) (lines : List (List Char)) (index : Nat) : Span :=
  ⟨index, (continuation expected lines (index + 1)).stop⟩

@[simp] theorem first_span (expected : ExpectedNames) (lines : List (List Char)) (index : Nat) :
    (span expected lines index).first = index := rfl

@[simp] theorem past_span (expected : ExpectedNames) (lines : List (List Char)) (index : Nat) :
    (span expected lines index).past =
      index + 1 + (fragments expected (lines.drop (index + 1))).length := rfl

/-- The lines are one with a label of the candidate's name, and others that continue it; together
they give the description. -/
def Gives (expected : ExpectedNames) (lines : List (List Char)) (c : Candidate) : Prop :=
  ∃ line rest own, lines = line :: rest ∧ textOf? c.name (classify line).content = some own ∧
    c.description = describe expected lines own 1

/-- The lines that continue a label, given those behind its own. -/
def continuing (expected : ExpectedNames) (lines : List (List Char)) : List (List Char) :=
  lines.takeWhile fun line => (fragment? expected line).isSome

/-- The fragment that a line gives is the text of its comment without decoration. -/
theorem eq_of_fragment? {expected : ExpectedNames} {line fragment : List Char}
    (h : fragment? expected line = some fragment) :
    fragment = trimDecoration (classify line).content := by
  unfold fragment? at h
  split at h
  · next content hclass =>
    rw [hclass]
    dsimp only at h
    split at h
    · simp at h
    · exact (Option.some.inj h).symm
  · simp at h

/-- The fragments are the texts of the lines that continue a label. -/
theorem fragments_eq (expected : ExpectedNames) (lines : List (List Char)) :
    fragments expected lines =
      (continuing expected lines).map fun line => trimDecoration (classify line).content := by
  induction lines with
  | nil => rfl
  | cons line lines ih =>
    rw [fragments, continuing, List.takeWhile_cons]
    cases hline : fragment? expected line with
    | none => rfl
    | some fragment =>
      rw [Option.isSome_some, if_pos rfl, List.map_cons, ← eq_of_fragment? hline]
      exact congrArg (fragment :: ·) ih

/-- Each line that continues a label gives one fragment. -/
theorem length_fragments (expected : ExpectedNames) (lines : List (List Char)) :
    (fragments expected lines).length = (continuing expected lines).length := by
  rw [fragments_eq, List.length_map]

/-- The lines that continue a label continue it also when no others follow. -/
theorem fragments_continuing (expected : ExpectedNames) (lines : List (List Char)) :
    fragments expected (continuing expected lines) = fragments expected lines := by
  have hagain : continuing expected (continuing expected lines) = continuing expected lines :=
    List.takeWhile_idem
  rw [fragments_eq, fragments_eq, hagain]

/-- A continuation stops behind the lines that continue a label. -/
theorem stop_continuation (expected : ExpectedNames) (lines : List (List Char)) (start : Nat) :
    (continuation expected lines start).stop =
      start + (continuing expected (lines.drop start)).length :=
  congrArg (start + ·) (length_fragments expected _)

/-- The lines that continue a label are those up to the stop. -/
theorem drop_take_stop (expected : ExpectedNames) (lines : List (List Char)) (start : Nat) :
    (lines.take (continuation expected lines start).stop).drop start =
      continuing expected (lines.drop start) := by
  have htaken : continuing expected (lines.drop start) <+: lines.drop start :=
    List.takeWhile_prefix _
  rw [stop_continuation, List.drop_take, Nat.add_sub_cancel_left]
  exact (List.prefix_iff_eq_take.1 htaken).symm

/-- The lines behind the first one of a label's run are those that continue it. -/
theorem drop_cut_span (expected : ExpectedNames) (lines : List (List Char)) (index : Nat) :
    ((span expected lines index).cut lines).drop 1 =
      continuing expected (lines.drop (index + 1)) := by
  rw [Span.cut, List.drop_drop]
  exact drop_take_stop expected lines (index + 1)

/-- The run of a label alone describes it. -/
theorem describe_cut_span (expected : ExpectedNames) (lines : List (List Char))
    (own : List Char) (index : Nat) :
    describe expected ((span expected lines index).cut lines) own 1 =
      describe expected lines own (index + 1) := by
  rw [describe, describe, continuation, drop_cut_span, fragments_continuing,
    continuation]

/-- **The labels of a source stand apart.** -/
theorem isSeparate_collect (expected : ExpectedNames) (lines : List (List Char)) :
    IsSeparate lines (span expected lines) (Gives expected) (collect expected lines) := by
  rw [collect, collectFrom_eq_scan]
  refine isSeparate_scan (isSound_candidate? expected lines) ?_ ?_ ?_
  · intro i line c hfinds
    obtain ⟨hi, -⟩ := List.getElem?_eq_some_iff.1 hfinds.1
    have htaken : (continuing expected (lines.drop (i + 1))).length ≤ lines.length - (i + 1) := by
      rw [← List.length_drop]
      exact (List.takeWhile_prefix _).length_le
    rw [Span.mem_positions, first_span, past_span, length_fragments]
    omega
  · intro i j line line' c d _ hfinds' hij
    obtain ⟨hline', known', hfind'⟩ := hfinds'
    -- the later label's line is no continuation, so the earlier label ends above it
    have hline : (lines.drop (i + 1))[j - (i + 1)]? = some line' := by
      rw [List.getElem?_drop, show i + 1 + (j - (i + 1)) = j by omega]
      exact hline'
    have hends : (fragment? expected line').isSome = false := by
      rw [fragment?_of_candidate? hfind']
      rfl
    have htaken : (continuing expected (lines.drop (i + 1))).length ≤ j - (i + 1) :=
      length_takeWhile_le_of_false hline hends
    rw [past_span, first_span, length_fragments]
    omega
  · intro i line c hfinds
    obtain ⟨hline, known, hfind⟩ := hfinds
    obtain ⟨hi, hget⟩ := List.getElem?_eq_some_iff.1 hline
    obtain ⟨content, own, hclass, hmatch, -, hc⟩ := candidate?_eq_some hfind
    have hstop : i < (span expected lines i).past := by
      rw [past_span]
      omega
    refine ⟨line, ((span expected lines i).cut lines).drop 1, own, ?_, ?_, ?_⟩
    · have hlen : i < (lines.take (span expected lines i).past).length := by
        rw [List.length_take]
        omega
      rw [Span.cut, first_span, List.drop_eq_getElem_cons hlen, List.getElem_take, hget]
      rfl
    · rw [hclass]
      exact (match?_eq_some hmatch).2.2
    · rw [describe_cut_span, hc]

end Label

/-! ## The run of a declaration -/

namespace Declaration

/-- The run of the declaration on line `index`: the comment block above it and its own line. -/
def span (lines : List (List Char)) (index : Nat) : Span :=
  ⟨(harvest lines index).start, index + 1⟩

@[simp] theorem first_span (lines : List (List Char)) (index : Nat) :
    (span lines index).first = (harvest lines index).start := rfl

@[simp] theorem past_span (lines : List (List Char)) (index : Nat) :
    (span lines index).past = index + 1 := rfl

/-- The last of the lines declares the candidate's name, and those above it give the
description. -/
def Gives (expected : ExpectedNames) (lines : List (List Char)) (c : Candidate) : Prop :=
  ∃ above line, lines = above ++ [line] ∧ declared? expected line = some c.name ∧
    c.description = describe lines above.length

/-- A line that declares a procedure is code. -/
theorem classify_of_declared? {expected : ExpectedNames} {line : List Char} {name : String}
    (h : declared? expected line = some name) : classify line = .code := by
  unfold declared? at h
  split at h
  · assumption
  · simp at h

/-- Where the block above a line of the source starts. -/
theorem start_harvest {lines : List (List Char)} {index : Nat} (h : index ≤ lines.length) :
    (harvest lines index).start =
      index - (blockLines (lines.take index).reverse).length := by
  rw [harvest, Nat.min_eq_left h]

/-- The lines from the start of a block down to its declaration are the block. -/
theorem reverse_drop_take {lines : List (List Char)} {index : Nat} (h : index ≤ lines.length) :
    ((lines.take index).drop (harvest lines index).start).reverse =
      blockLines (lines.take index).reverse := by
  have hblock : blockLines (lines.take index).reverse <+: (lines.take index).reverse :=
    List.takeWhile_prefix _
  rw [ List.prefix_iff_eq_take.1 hblock, List.take_reverse, start_harvest h, List.length_take,
    Nat.min_eq_left h]

/-- A block is its own block. -/
theorem blockLines_blockLines (above : List (List Char)) :
    blockLines (blockLines above) = blockLines above :=
  List.takeWhile_idem

/-- The run of a declaration alone describes it. -/
theorem describe_cut_span {lines above : List (List Char)} {index : Nat} {line : List Char}
    (h : index ≤ lines.length)
    (habove : above = (lines.take index).drop (harvest lines index).start) :
    describe (above ++ [line]) above.length = describe lines index := by
  have hblock : blockLines above.reverse = blockLines (lines.take index).reverse := by
    rw [habove, reverse_drop_take h, blockLines_blockLines]
  have hstop : min above.length (above ++ [line]).length = above.length := by
    rw [List.length_append]
    omega
  have hfragments : (harvest (above ++ [line]) above.length).fragments =
      (harvest lines index).fragments := by
    rw [harvest, harvest, hstop, List.take_left, hblock, Nat.min_eq_left h]
  rw [describe, describe, hfragments]

/-- **The declarations of a source stand apart.** -/
theorem isSeparate_collect (expected : ExpectedNames) (lines : List (List Char)) :
    IsSeparate lines (span lines) (Gives expected) (collect expected lines) := by
  rw [collect, collectFrom_eq_scan]
  refine isSeparate_scan (isSound_candidate? expected lines) ?_ ?_ ?_
  · intro i line c hfinds
    obtain ⟨hi, -⟩ := List.getElem?_eq_some_iff.1 hfinds.1
    rw [Span.mem_positions, first_span, past_span, start_harvest (Nat.le_of_lt hi)]
    omega
  · intro i j line line' c d hfinds hfinds' hij
    obtain ⟨hline, known, hfind⟩ := hfinds
    obtain ⟨hj, -⟩ := List.getElem?_eq_some_iff.1 hfinds'.1
    have hcode := classify_of_declared? (candidate?_eq_some hfind).1
    -- seen from the later declaration, the earlier one stands `j - 1 - i` lines further up
    have hup : (lines.take j).reverse[j - 1 - i]? = some line := by
      have hlen : (lines.take j).length = j := by
        rw [List.length_take]
        omega
      rw [List.getElem?_reverse (by omega), hlen, show j - 1 - (j - 1 - i) = i by omega,
        List.getElem?_take_of_lt hij]
      exact hline
    have hopaque : (classify line).isTransparent = false := by
      rw [hcode]
      rfl
    have hblock : (blockLines (lines.take j).reverse).length ≤ j - 1 - i :=
      length_takeWhile_le_of_false hup hopaque
    rw [past_span, first_span, start_harvest (Nat.le_of_lt hj)]
    omega
  · intro i line c hfinds
    obtain ⟨hline, known, hfind⟩ := hfinds
    obtain ⟨hi, hget⟩ := List.getElem?_eq_some_iff.1 hline
    obtain ⟨hdeclared, -, -, hc⟩ := candidate?_eq_some hfind
    have hcut : (span lines i).cut lines =
        (lines.take i).drop (harvest lines i).start ++ [line] := by
      have hstart : (harvest lines i).start ≤ (lines.take i).length := by
        rw [start_harvest (Nat.le_of_lt hi), List.length_take]
        omega
      rw [Span.cut, first_span, past_span, List.take_add_one, hline,
        List.drop_append_of_le_length hstart]
      rfl
    rw [hcut]
    refine ⟨_, line, rfl, hdeclared, ?_⟩
    rw [describe_cut_span (Nat.le_of_lt hi) rfl, hc]

end Declaration

/-! ## Both passes -/

/-- **Descriptions do not bleed into each other.** For every source and all expected names, the
candidates of each pass stand on rising lines, have different names and are read from runs of
lines that no two of them share. -/
theorem passes_do_not_bleed (expected : ExpectedNames) (source : String) :
    IsSeparate (Text.lines source.toList) (Label.span expected (Text.lines source.toList))
        (Label.Gives expected) (Label.collect expected (Text.lines source.toList)) ∧
      IsSeparate (Text.lines source.toList) (Declaration.span (Text.lines source.toList))
        (Declaration.Gives expected) (Declaration.collect expected (Text.lines source.toList)) :=
  ⟨Label.isSeparate_collect expected _, Declaration.isSeparate_collect expected _⟩

end ProcedureCatalog
