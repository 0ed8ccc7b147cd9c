/-
# Line ends

The blanks at the ends of lines, the carriage return of a line end among them, decide nothing but
those blanks: edits of line ends leave the lines as they are up to blanks at their ends.

* `lines_append_newline` : the lines of two texts with a line feed between them.
* `exists_lines_append` : the last line of a text is all that a text behind it can change.
* `LineEndEdit.map_trimEnd_lines` : what an edit of a line end leaves.
-/
import Mathlib.Data.List.Induction
import Mathlib.Data.List.TakeWhile
import Mathlib.Logic.Relation
import ProcedureCatalog.Proofs.Text.Trimming
import ProcedureCatalog.Proofs.Text.Words
import ProcedureCatalog.Text.Lines

namespace ProcedureCatalog.Text

/-! ## Blanks at the end -/

variable {blanks : List Char}

/-- Trimming the end removes the blanks there. -/
theorem trimEnd_append (h : ∀ c ∈ blanks, isBlank c = true) (cs : List Char) :
    trimEnd (cs ++ blanks) = trimEnd cs :=
  dropEndWhile_append h cs

/-- Trimming removes the blanks at the end. -/
theorem trim_append (h : ∀ c ∈ blanks, isBlank c = true) (cs : List Char) :
    trim (cs ++ blanks) = trim cs := by
  rw [trim, trimStart, List.dropWhile_append]
  split
  · next hempty =>
    -- a text of blanks only
    have hcs : trimStart cs = [] := List.isEmpty_iff.1 hempty
    have hblanks : blanks.dropWhile isBlank = [] := List.dropWhile_eq_nil_iff.2 h
    rw [hblanks, trim, hcs]
  · rw [trimEnd_append h]
    rfl

/-- A carriage return at the end of a line is a blank there. -/
theorem trimEnd_dropCarriageReturn (line : List Char) :
    trimEnd (dropCarriageReturn line) = trimEnd line := by
  unfold dropCarriageReturn
  split
  · next rest heq =>
    have hline : line = rest.reverse ++ ['\r'] := by
      rw [← List.reverse_reverse line, heq, List.reverse_cons]
    rw [hline, trimEnd_append]
    intro c hc
    rw [List.mem_singleton.1 hc]
    decide
  · rfl

/-! ## Lines of a text -/

/-- The pieces before others end at line feeds. -/
theorem linesOfPieces_append {more : List (List Char)} (h : more ≠ [])
    (pieces : List (List Char)) :
    linesOfPieces (pieces ++ more) = pieces.map dropCarriageReturn ++ linesOfPieces more := by
  induction pieces with
  | nil => rfl
  | cons piece pieces ih =>
    obtain ⟨second, rest, hrest⟩ : ∃ second rest, pieces ++ more = second :: rest :=
      List.exists_cons_of_ne_nil fun hnil => h (List.append_eq_nil_iff.1 hnil).2
    rw [List.cons_append, hrest, linesOfPieces, ← hrest, ih]
    · rfl
    · exact List.cons_ne_nil _ _

/-- The lines of two texts with a line feed between them. -/
theorem lines_append_newline (cs ds : List Char) : lines (cs ++ '\n' :: ds) =
    (splitAtEach (· == '\n') cs).map dropCarriageReturn ++ lines ds := by
  rw [lines, splitAtEach_append (by rfl), linesOfPieces_append (splitAtEach_ne_nil _ _), lines]

/-- A text without line feeds is one piece. -/
theorem splitAtEach_of_notMem {line : List Char} (h : '\n' ∉ line) :
    splitAtEach (· == '\n') line = [line] := by
  induction line with
  | nil => rfl
  | cons c line ih =>
    have hc : c ≠ '\n' := fun heq => h (heq ▸ List.mem_cons_self)
    have hline : '\n' ∉ line := fun hmem => h (List.mem_cons_of_mem c hmem)
    rw [splitAtEach, if_neg (by simpa using hc), ih hline]

/-- The first line of a text, up to its line feed. -/
theorem lines_cons {line : List Char} (h : '\n' ∉ line) (ds : List Char) :
    lines (line ++ '\n' :: ds) = dropCarriageReturn line :: lines ds := by
  rw [lines_append_newline, splitAtEach_of_notMem h]
  rfl

/-- A text without line feeds is one line, unless it is empty. -/
theorem lines_of_notMem {line : List Char} (h : '\n' ∉ line) (hne : line ≠ []) :
    lines line = [line] := by
  rw [lines, splitAtEach_of_notMem h, linesOfPieces, if_neg (by simpa using hne)]

/-- A line holds no line feed. -/
theorem newline_notMem_of_mem_lines {cs line : List Char} (h : line ∈ lines cs) :
    '\n' ∉ line := by
  have hpieces : ∀ pieces : List (List Char), (∀ piece ∈ pieces, '\n' ∉ piece) →
      ∀ line ∈ linesOfPieces pieces, '\n' ∉ line := by
    intro pieces hpieces
    fun_induction linesOfPieces pieces with
    | case1 => simp
    | case2 => simp
    | case3 => simpa using hpieces
    | case4 piece pieces _ ih =>
      rw [List.forall_mem_cons] at hpieces ⊢
      refine ⟨fun hmem => hpieces.1 ?_, ih hpieces.2⟩
      -- without its carriage return the piece has no more characters than before
      unfold dropCarriageReturn at hmem
      split at hmem
      · next rest heq =>
        rw [← List.mem_reverse, heq]
        exact List.mem_cons_of_mem _ (List.mem_reverse.1 hmem)
      · exact hmem
  refine hpieces _ ?_ line h
  intro piece hpiece hmem
  have := (mem_of_mem_splitAtEach hpiece hmem).2
  simp at this

/-- The last line of a text, which may be empty, is all that a text behind it can change. -/
theorem exists_lines_append (cs : List Char) : ∃ before last, '\n' ∉ last ∧
    cs = before ++ last ∧ (∀ c ∈ before.getLast?, c = '\n') ∧
      ∀ more, lines (cs ++ more) = lines before ++ lines (last ++ more) := by
  induction cs using List.reverseRecOn with
  | nil => exact ⟨[], [], List.not_mem_nil, rfl, by simp, fun _ => rfl⟩
  | append_singleton cs c ih =>
    obtain ⟨before, last, hlast, hcs, hends, hlines⟩ := ih
    by_cases hc : c = '\n'
    · subst hc
      refine ⟨cs ++ ['\n'], [], List.not_mem_nil, by rw [List.append_nil], by simp, fun more => ?_⟩
      rw [List.append_assoc, List.singleton_append, lines_append_newline, lines_append_newline,
        List.append_assoc]
      rfl
    · refine ⟨before, last ++ [c], ?_, ?_, hends, fun more => ?_⟩
      · simpa [hlast] using Ne.symm hc
      · rw [hcs, List.append_assoc]
      · rw [List.append_assoc, hlines, List.append_assoc]

/-! ## Edits -/

/-- One edit of a line end: a line feed gets a carriage return, or a line gets more blanks at its
end, before its line feed or its carriage return and line feed, or at the end of the text. -/
inductive LineEndEdit : List Char → List Char → Prop
  | carriageReturn (before after : List Char) :
      LineEndEdit (before ++ '\n' :: after) (before ++ '\r' :: '\n' :: after)
  | beforeLineFeed (before blanks after : List Char)
      (hblanks : ∀ c ∈ blanks, isBlank c = true ∧ c ≠ '\n') :
      LineEndEdit (before ++ '\n' :: after) (before ++ blanks ++ '\n' :: after)
  | beforeCarriageReturn (before blanks after : List Char)
      (hblanks : ∀ c ∈ blanks, isBlank c = true ∧ c ≠ '\n') :
      LineEndEdit (before ++ '\r' :: '\n' :: after) (before ++ blanks ++ '\r' :: '\n' :: after)
  | atTheEnd (before blanks : List Char) (hblanks : ∀ c ∈ blanks, isBlank c = true ∧ c ≠ '\n')
      (hline : ∃ c ∈ before.getLast?, c ≠ '\n') : LineEndEdit before (before ++ blanks)

/-- Blanks before a line feed leave the lines as they are, up to blanks at their ends. -/
theorem map_trimEnd_lines_append_newline (h : ∀ c ∈ blanks, isBlank c = true ∧ c ≠ '\n')
    (before after : List Char) : (lines (before ++ blanks ++ '\n' :: after)).map trimEnd =
      (lines (before ++ '\n' :: after)).map trimEnd := by
  obtain ⟨_, last, hlast, -, -, hlines⟩ := exists_lines_append before
  have hlast' : '\n' ∉ last ++ blanks := by
    simpa [hlast] using fun hmem => (h _ hmem).2 rfl
  rw [List.append_assoc, hlines, hlines, List.map_append, List.map_append, ← List.append_assoc,
    lines_cons hlast, lines_cons hlast', List.map_cons, List.map_cons, trimEnd_dropCarriageReturn,
    trimEnd_dropCarriageReturn, trimEnd_append fun c hc => (h c hc).1]

/-- An edit of a line end leaves the lines as they are, up to blanks at their ends. -/
theorem LineEndEdit.map_trimEnd_lines {text text' : List Char} (h : LineEndEdit text text') :
    (lines text).map trimEnd = (lines text').map trimEnd := by
  have hreturn : ∀ c ∈ ['\r'], isBlank c = true ∧ c ≠ '\n' :=
    List.forall_mem_singleton.2 (by decide)
  cases h with
  | carriageReturn before after =>
    rw [List.append_cons before '\r', map_trimEnd_lines_append_newline hreturn]
  | beforeLineFeed before blanks after hblanks =>
    rw [map_trimEnd_lines_append_newline hblanks]
  | beforeCarriageReturn before blanks after hblanks =>
    -- the blanks and the carriage return are blanks before the line feed
    have hboth : ∀ c ∈ blanks ++ ['\r'], isBlank c = true ∧ c ≠ '\n' :=
      List.forall_mem_append.2 ⟨hblanks, hreturn⟩
    rw [List.append_cons before '\r', List.append_cons (before ++ blanks) '\r',
      List.append_assoc before blanks, map_trimEnd_lines_append_newline hreturn,
      map_trimEnd_lines_append_newline hboth]
  | atTheEnd _ blanks hblanks hline =>
    obtain ⟨before, last, hlast, htext, hends, hlines⟩ := exists_lines_append text
    have hne : last ≠ [] := by
      rintro rfl
      obtain ⟨c, hc, hnewline⟩ := hline
      rw [htext, List.append_nil] at hc
      exact hnewline (hends c hc)
    have hlast' : '\n' ∉ last ++ blanks := by
      simpa [hlast] using fun hmem => (hblanks _ hmem).2 rfl
    have hsame := hlines []
    rw [List.append_nil, List.append_nil] at hsame
    rw [hsame, hlines, List.map_append, List.map_append, lines_of_notMem hlast hne,
      lines_of_notMem hlast' (List.append_ne_nil_of_left_ne_nil hne _), List.map_singleton,
      List.map_singleton, trimEnd_append fun c hc => (hblanks c hc).1]

/-- Any number of edits of line ends leave the lines as they are, up to blanks at their ends. -/
theorem map_trimEnd_lines_of_edits {text text' : List Char}
    (h : Relation.ReflTransGen LineEndEdit text text') :
    (lines text).map trimEnd = (lines text').map trimEnd := by
  induction h with
  | refl => rfl
  | tail _ hedit ih => exact ih.trans hedit.map_trimEnd_lines

end ProcedureCatalog.Text
