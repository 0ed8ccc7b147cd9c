/-
# What an extraction sees of a source

An extraction looks at each line through its kind, with the text of a comment, and through the
procedure that it declares. Blanks at the ends of lines, and so the kind of line end, do not show.

* `propose_congr` : what each strategy proposes depends on what is seen of the lines alone.
* `classify_append`, `declared?_append` : blanks at the end of a line are not seen.
* `extraction_depends_on_what_is_seen` : both together, for whole sources.
-/
import Mathlib.Data.List.Basic
import ProcedureCatalog.Proofs.Extraction.Passes
import ProcedureCatalog.Proofs.Text.LineEnds
import ProcedureCatalog.Proofs.Text.Trimming

namespace ProcedureCatalog

open Text SourceLine

/-- What an extraction sees of a line: its kind, with the text of a comment, and the procedure that
it declares. -/
def seen (expected : ExpectedNames) (line : List Char) : LineClass × Option String :=
  (classify line, Declaration.declared? expected line)

/-! ## The walk over the lines -/

/-- Two walks give the same candidates when they go over lines that show the same, and find the same
on lines that show the same. -/
theorem scan_congr {α : Type} {view : List Char → α} {find find' : Finder}
    (h : ∀ resolved index line line', view line = view line' →
      find resolved index line = find' resolved index line')
    (resolved : List String) (index : Nat) {remaining remaining' : List (List Char)}
    (hsame : remaining.map view = remaining'.map view) :
    scan find resolved index remaining = scan find' resolved index remaining' := by
  induction remaining generalizing remaining' resolved index with
  | nil =>
    rw [List.map_nil, eq_comm, List.map_eq_nil_iff] at hsame
    rw [hsame, scan, scan]
  | cons line remaining ih =>
    cases remaining' with
    | nil => simp at hsame
    | cons line' remaining' =>
      obtain ⟨hline, hrest⟩ := List.cons.inj hsame
      rw [scan, scan, h resolved index line line' hline]
      cases find' resolved index line' with
      | none => exact ih _ _ hrest
      | some c => exact congrArg (c :: ·) (ih _ _ hrest)

section Lines

variable {expected : ExpectedNames} {lines lines' : List (List Char)}

theorem map_classify_of_map_seen (h : lines.map (seen expected) = lines'.map (seen expected)) :
    lines.map classify = lines'.map classify := by
  have hfirst := congrArg (List.map Prod.fst) h
  rwa [List.map_map, List.map_map] at hfirst

/-! ## Labels -/

namespace Label

/-- The kinds of the lines decide which of them continue a label, and with what. -/
theorem fragments_congr (h : lines.map classify = lines'.map classify) :
    fragments expected lines = fragments expected lines' := by
  induction lines generalizing lines' with
  | nil =>
    rw [List.map_nil, eq_comm, List.map_eq_nil_iff] at h
    rw [h]
  | cons line lines ih =>
    cases lines' with
    | nil => simp at h
    | cons line' lines' =>
      obtain ⟨hline, hrest⟩ := List.cons.inj h
      have hfragment : fragment? expected line = fragment? expected line' := by
        rw [fragment?, fragment?, hline]
      rw [fragments, fragments, hfragment, ih hrest]

theorem describe_congr (h : lines.map classify = lines'.map classify) (own : List Char)
    (start : Nat) : describe expected lines own start = describe expected lines' own start := by
  have hdrop : (lines.drop start).map classify = (lines'.drop start).map classify := by
    rw [List.map_drop, List.map_drop, h]
  rw [describe, describe, continuation, continuation, fragments_congr hdrop]

/-- The kinds of the lines decide the labels. -/
theorem collect_congr (h : lines.map classify = lines'.map classify) :
    collect expected lines = collect expected lines' := by
  rw [collect, collect, collectFrom_eq_scan, collectFrom_eq_scan]
  refine scan_congr (fun resolved index line line' hline => ?_) [] 0 h
  simp only [candidate?, hline, describe_congr h]

end Label

/-! ## Declarations -/

namespace Declaration

/-- The kind of a line decides whether it belongs to a block. -/
theorem map_blockLines (above : List (List Char)) : (blockLines above).map classify =
    (above.map classify).takeWhile LineClass.isTransparent := by
  rw [List.takeWhile_map]
  rfl

/-- The fragment that a line of some kind gives to a block. -/
def fragmentOfKind? (kind : LineClass) : Option (List Char) :=
  let fragment := dropCommentMarkers kind.content
  if isDecorative fragment then none else some fragment

theorem filterMap_fragment? (block : List (List Char)) :
    block.filterMap fragment? = (block.map classify).filterMap fragmentOfKind? := by
  rw [List.filterMap_map]
  rfl

/-- The kinds of the lines decide the block above a line. -/
theorem harvest_congr (h : lines.map classify = lines'.map classify) (index : Nat) :
    harvest lines index = harvest lines' index := by
  have hlength : lines.length = lines'.length := by
    rw [← List.length_map classify, h, List.length_map]
  have hblock : (blockLines (lines.take (min index lines'.length)).reverse).map classify =
      (blockLines (lines'.take (min index lines'.length)).reverse).map classify := by
    rw [map_blockLines, map_blockLines, List.map_reverse, List.map_reverse, List.map_take,
      List.map_take, h]
  have hcount := congrArg List.length hblock
  rw [List.length_map, List.length_map] at hcount
  rw [harvest, harvest, hlength, filterMap_fragment?, filterMap_fragment?, hblock, hcount]

/-- The kinds of the lines and the procedures they declare decide the described declarations. -/
theorem collect_congr (h : lines.map (seen expected) = lines'.map (seen expected)) :
    collect expected lines = collect expected lines' := by
  have hkinds : lines.map classify = lines'.map classify := map_classify_of_map_seen h
  rw [collect, collect, collectFrom_eq_scan, collectFrom_eq_scan]
  refine scan_congr (fun resolved index line line' hline => ?_) [] 0 h
  have hdeclared : declared? expected line = declared? expected line' := congrArg Prod.snd hline
  have hdescribe : describe lines index = describe lines' index := by
    rw [describe, describe, harvest_congr hkinds]
  rw [candidate?, candidate?, hdeclared, hdescribe]

end Declaration

/-! ## Strategies -/

/-- What a strategy proposes depends on what is seen of the lines alone. -/
theorem propose_congr (h : lines.map (seen expected) = lines'.map (seen expected)) (s : Strategy) :
    s.propose expected lines = s.propose expected lines' := by
  cases s with
  | inlineLabel => exact Label.collect_congr (map_classify_of_map_seen h)
  | blockHeader => exact Declaration.collect_congr h
  | nameInference => rfl

end Lines

/-- What an extraction finds depends on what is seen of the lines alone. -/
theorem extract_congr {expected : ExpectedNames} {source source' : String}
    (h : (lines source.toList).map (seen expected) = (lines source'.toList).map (seen expected))
    (strategies : List Strategy) :
    extract expected strategies source = extract expected strategies source' := by
  simp only [extract, propose_congr h]

/-! ## Blanks at the ends of lines -/

section Blanks

variable {blanks : List Char}

/-- Blanks at the end of a line put no star in its column 7, and stay behind one that is there. -/
theorem SourceLine.fixedComment?_append (h : ∀ c ∈ blanks, isBlank c = true) (line : List Char) :
    fixedComment? (line ++ blanks) = (fixedComment? line).map (· ++ blanks) := by
  unfold fixedComment?
  rw [List.drop_append]
  cases hdrop : line.drop 6 with
  | nil =>
    rw [List.nil_append]
    cases hblanks : blanks.drop (6 - line.length) with
    | nil => rfl
    | cons c rest =>
      have hc : isBlank c = true := h c (List.mem_of_mem_drop (hblanks ▸ List.mem_cons_self))
      split
      · next heq =>
        rw [(List.cons.inj heq).1] at hc
        exact absurd hc (by decide)
      · rfl
  | cons c rest =>
    have hlong : 6 - line.length = 0 := by
      have hlength := congrArg List.length hdrop
      rw [List.length_drop, List.length_cons] at hlength
      omega
    rw [hlong, List.drop_zero, List.cons_append]
    by_cases hc : c = '*'
    · rw [hc]
      rfl
    · split
      · next heq => exact absurd (List.cons.inj heq).1 hc
      · split
        · next heq => exact absurd (List.cons.inj heq).1 hc
        · rfl

/-- Blanks at the end of a line do not change its kind, nor the text of a comment. -/
theorem SourceLine.classify_append (h : ∀ c ∈ blanks, isBlank c = true) (line : List Char) :
    classify (line ++ blanks) = classify line := by
  rw [classify, classify, trim_append h, fixedComment?_append h]
  cases fixedComment? line with
  | none => rfl
  | some rest => simp only [Option.map_some, trim_append h]

/-- Blanks at the end of a line do not change what it declares. -/
theorem Declaration.declared?_append (expected : ExpectedNames)
    (h : ∀ c ∈ blanks, isBlank c = true) (line : List Char) :
    declared? expected (line ++ blanks) = declared? expected line := by
  rw [declared?, declared?, classify_append h, trim_append h]

/-- Blanks at the end of a line are not seen. -/
theorem seen_append (expected : ExpectedNames) (h : ∀ c ∈ blanks, isBlank c = true)
    (line : List Char) : seen expected (line ++ blanks) = seen expected line := by
  rw [seen, seen, classify_append h, Declaration.declared?_append expected h]

end Blanks

theorem seen_trimEnd (expected : ExpectedNames) (line : List Char) :
    seen expected (trimEnd line) = seen expected line := by
  obtain ⟨blanks, hline, hblanks⟩ := exists_dropEndWhile_append_all (p := isBlank) line
  rw [trimEnd]
  conv_rhs => rw [← hline]
  exact (seen_append expected hblanks _).symm

/-- The same is seen of lines that are the same up to blanks at their ends. -/
theorem map_seen_of_map_trimEnd (expected : ExpectedNames) {lines lines' : List (List Char)}
    (h : lines.map trimEnd = lines'.map trimEnd) :
    lines.map (seen expected) = lines'.map (seen expected) := by
  have hseen := congrArg (List.map (seen expected)) h
  have hcomp : seen expected ∘ trimEnd = seen expected := funext (seen_trimEnd expected)
  rwa [List.map_map, List.map_map, hcomp] at hseen

/-- **An extraction depends on the comments and the exported declarations alone.** Two sources whose
lines have, one by one, the same kind and comment text and declare the same procedure give the same
result, whatever the names and the strategies. Blanks at the end of a line do not change these, and
neither does any number of edits of line ends, so that the result is the same after them. -/
theorem extraction_depends_on_what_is_seen (expected : ExpectedNames)
    (strategies : List Strategy) :
    (∀ source source' : String, (lines source.toList).map (seen expected) =
        (lines source'.toList).map (seen expected) →
      extract expected strategies source = extract expected strategies source') ∧
    (∀ line blanks : List Char, (∀ c ∈ blanks, isBlank c = true) →
      seen expected (line ++ blanks) = seen expected line) ∧
    ∀ source source' : String,
      Relation.ReflTransGen LineEndEdit source.toList source'.toList →
        (lines source.toList).map (seen expected) = (lines source'.toList).map (seen expected) ∧
          extract expected strategies source = extract expected strategies source' := by
  refine ⟨fun _ _ h => extract_congr h strategies, fun line _ h => seen_append expected h line, ?_⟩
  intro source source' hedits
  have hseen := map_seen_of_map_trimEnd expected (map_trimEnd_lines_of_edits hedits)
  exact ⟨hseen, extract_congr hseen strategies⟩

/-- Other code, blanks and a carriage return at the ends of lines do not show. -/
theorem extraction_depends_on_what_is_seen_of_edits :
    let expected := ExpectedNames.ofList ["A"]
    let source := "// A : x\ny = 1;\ndcl-proc A export;"
    let recoded := "// A : x\nreturn z;\ndcl-proc A export;"
    let edited := "// A : x \t\r\ny = 1;\ndcl-proc A export; "
    extract expected Strategy.all source = ⟨[("A", ⟨"x", .inlineLabel, some 1⟩)]⟩ ∧
      extract expected Strategy.all source = extract expected Strategy.all recoded ∧
      extract expected Strategy.all source = extract expected Strategy.all edited := by
  intro expected source recoded edited
  obtain ⟨hcongr, -, hedit⟩ := extraction_depends_on_what_is_seen expected Strategy.all
  let rest := "y = 1;\ndcl-proc A export;".toList
  have hsource : source.toList = "// A : x".toList ++ '\n' :: rest := by decide +kernel
  have hedited : edited.toList =
      "// A : x".toList ++ [' ', '\t'] ++ '\r' :: '\n' :: rest ++ [' '] := by decide +kernel
  have hspace : ∀ c ∈ [' '], isBlank c = true ∧ c ≠ '\n' :=
    List.forall_mem_singleton.2 (by decide)
  have htab : ∀ c ∈ [' ', '\t'], isBlank c = true ∧ c ≠ '\n' := by
    rw [List.forall_mem_cons, List.forall_mem_singleton]
    decide
  have hedits : Relation.ReflTransGen LineEndEdit source.toList edited.toList := by
    rw [hsource, hedited]
    exact .tail (.tail (.single (.beforeLineFeed _ [' ', '\t'] _ htab)) (.carriageReturn _ _))
      (.atTheEnd _ [' '] hspace ⟨';', by decide +kernel⟩)
  refine ⟨by decide +kernel, hcongr source recoded (by decide +kernel), ?_⟩
  exact (hedit source edited hedits).2

end ProcedureCatalog
