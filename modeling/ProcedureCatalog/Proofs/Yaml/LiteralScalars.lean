/-
# Literals read back

A text that is written as a literal block is read as this text: the first line shows how far the
lines are indented, or the header says so, and the header says what becomes of the ends of lines at
the end.

* `emptyLines?_known`, `emptyLines?_shown` : the empty lines before a line, where the indentation
  is known, and where the line shows it.
* `blockLines?_line` : one line, with the empty lines behind it.
* `blockLines?_text` : all lines.
* `block?_literal` : the whole literal.
-/
import ProcedureCatalog.Proofs.Yaml.QuotedScalars

namespace ProcedureCatalog.Yaml

/-! ## Spaces -/

/-- The spaces at the start of a line. -/
theorem length_takeWhile_spaces (n : Nat) (rest : List Char) :
    ((spaces n ++ rest).takeWhile (· == ' ')).length =
      n + (rest.takeWhile (· == ' ')).length := by
  rw [List.takeWhile_append_of_pos, List.length_append, length_spaces]
  intro c hc
  rw [eq_space_of_mem_spaces hc]
  rfl

/-! ## Empty lines -/

/-- The text goes on behind `count` spaces at the start of a line, in a block of lines that are
indented by `indent`: at its indentation, or left of it and behind all spaces. -/
structure Follows (indent count : Nat) (rest : List Char) : Prop where
  count_le : count ≤ indent
  noBreak : ∀ c ∈ rest.head?, isBreak c = false
  noBlank : count < indent → ∀ c ∈ rest.head?, isBlank c = false

/-- As many spaces are passed as the line has, up to the indentation. -/
theorem Follows.min_spaces {indent count : Nat} {rest : List Char} (h : Follows indent count rest) :
    min ((spaces count ++ rest).takeWhile (· == ' ')).length indent = count := by
  rw [length_takeWhile_spaces]
  rcases h.count_le.lt_or_eq with hlt | rfl
  · have hnone : rest.takeWhile (· == ' ') = [] := by
      cases rest with
      | nil => rfl
      | cons c rest =>
        have hblank := h.noBlank hlt c rfl
        rw [isBlank, Bool.or_eq_false_iff] at hblank
        rw [List.takeWhile_cons_of_neg (by rw [hblank.1]; exact Bool.false_ne_true)]
    rw [hnone, List.length_nil, Nat.add_zero, Nat.min_eq_left hlt.le]
  · exact Nat.min_eq_right (Nat.le_add_right _ _)

/-- The empty lines before a line, where the indentation is known. -/
theorem emptyLines?_known {indent count : Nat} {rest : List Char} (h : Follows indent count rest)
    (hindent : indent ≠ 0) {breaks : List Char} (hbreaks : ∀ c ∈ breaks, isBreak c = true)
    {fuel : Nat} (hfuel : breaks.length < fuel) (widest : Nat) {p : Position} (hp : p.column = 0) :
    ∃ widest', emptyLines? indent fuel widest ⟨breaks ++ (spaces count ++ rest), p⟩ =
      some (breaks, widest', ⟨rest, p.behind (breaks ++ spaces count)⟩) := by
  have hknown : (indent == 0) = false := beq_eq_false_iff_ne.2 hindent
  induction fuel generalizing breaks widest p with
  | zero => exact absurd hfuel (Nat.not_lt_zero _)
  | succ fuel ih =>
    cases breaks with
    | nil =>
      have hskip : (Cursor.mk (spaces count ++ rest) p).skip count =
          ⟨rest, p.behind (spaces count)⟩ := by
        have := Cursor.skip_append (spaces count) rest p
        rwa [length_spaces] at this
      have hcolumn : (p.behind (spaces count)).column = count := by
        rw [Position.column_behind (oneLine_spaces count), hp, length_spaces, Nat.zero_add]
      rw [emptyLines?, List.nil_append]
      simp only [hknown, Bool.false_eq_true, if_false, Cursor.column, hp, Nat.sub_zero,
        h.min_spaces, hskip, hcolumn, List.nil_append, Bool.false_or]
      cases rest with
      | nil => exact ⟨_, rfl⟩
      | cons c rest =>
        have htab : (c == '\t' && decide (count < indent)) = false := by
          rw [Bool.and_comm, Bool.and_eq_false_imp, decide_eq_true_eq]
          intro hlt
          have hblank := h.noBlank hlt c rfl
          rw [isBlank, Bool.or_eq_false_iff] at hblank
          exact hblank.2
        simp only [htab, h.noBreak c rfl, Bool.false_eq_true, if_false]
        exact ⟨_, rfl⟩
    | cons b breaks =>
      have hb : isBreak b = true := hbreaks b List.mem_cons_self
      have hspace : (b == ' ') = false ∧ (b == '\t') = false := by
        constructor <;> rw [beq_eq_false_iff_ne] <;> rintro rfl <;> exact absurd hb (by decide)
      obtain ⟨widest', hread⟩ := ih (fun c hc => hbreaks c (List.mem_cons_of_mem b hc))
        (Nat.lt_of_succ_lt_succ hfuel) (max widest 0) (Position.column_past_of_isBreak hb p)
      have hnone : (b :: (breaks ++ (spaces count ++ rest))).takeWhile (· == ' ') = [] := by
        rw [List.takeWhile_cons_of_neg (by rw [hspace.1]; exact Bool.false_ne_true)]
      refine ⟨widest', ?_⟩
      rw [emptyLines?, List.cons_append]
      simp only [hknown, Bool.false_eq_true, if_false, hnone, List.length_nil, Nat.zero_min,
        Cursor.skip, Cursor.column, hp, hspace.2, Bool.false_and, hb, if_true, hread]
      rfl

/-- The first line shows its indentation. -/
theorem emptyLines?_shown (count : Nat) {c : Char} (hgap : isGap c = false) (rest : List Char)
    {p : Position} (hp : p.column = 0) (fuel : Nat) :
    emptyLines? 0 (fuel + 1) 0 ⟨spaces count ++ c :: rest, p⟩ =
      some ([], count, ⟨c :: rest, p.behind (spaces count)⟩) := by
  have hblank : (c == ' ') = false ∧ (c == '\t') = false := by
    have := isBlank_eq_false_of_isGap_eq_false hgap
    rwa [isBlank, Bool.or_eq_false_iff] at this
  have hcount : ((spaces count ++ c :: rest).takeWhile (· == ' ')).length = count := by
    rw [length_takeWhile_spaces,
      List.takeWhile_cons_of_neg (by rw [hblank.1]; exact Bool.false_ne_true), List.length_nil,
      Nat.add_zero]
  have hskip : (Cursor.mk (spaces count ++ c :: rest) p).skip count =
      ⟨c :: rest, p.behind (spaces count)⟩ := by
    have := Cursor.skip_append (spaces count) (c :: rest) p
    rwa [length_spaces] at this
  have hcolumn : (p.behind (spaces count)).column = count := by
    rw [Position.column_behind (oneLine_spaces count), hp, length_spaces, Nat.zero_add]
  rw [emptyLines?]
  simp only [beq_self_eq_true, if_true, hcount, hskip, Cursor.column, hcolumn, Nat.zero_max,
    hblank.2, Bool.false_and, Bool.false_eq_true, if_false,
    isBreak_eq_false_of_isGap_eq_false hgap]

/-! ## Lines -/

/-- The ends of lines behind a last line whose text ends in `ends`: one is added to a last line
without. -/
def lineEnds (ends : List Char) : List Char := if ends.isEmpty then ['\n'] else ends

/-- What becomes of the ends of lines behind a text that ends in `ends`. -/
def chompingOf (ends : List Char) : Chomping :=
  match ends with
  | [] => .strip
  | [_] => .clip
  | _ => .keep

/-- The ends of lines at the end are told from the one that is added. -/
theorem lineEnds_cases (ends : List Char) (hends : ∀ c ∈ ends, isBreak c = true) :
    ∃ b breaks, lineEnds ends = b :: breaks ∧ isBreak b = true ∧
      (∀ c ∈ breaks, isBreak c = true) ∧ chomped (chompingOf ends) [b] breaks = ends := by
  match ends with
  | [] => exact ⟨'\n', [], rfl, by decide, by simp, rfl⟩
  | [b] => exact ⟨b, [], rfl, hends b (by simp), by simp, rfl⟩
  | b :: c :: more =>
    exact ⟨b, c :: more, rfl, hends b (by simp),
      fun d hd => hends d (List.mem_cons_of_mem b hd), rfl⟩

theorem indentLines_breaks {breaks : List Char} (h : ∀ c ∈ breaks, isBreak c = true)
    (indent : Nat) (afterBreak : Bool) (cs : List Char) :
    indentLines indent afterBreak (breaks ++ cs) =
      breaks ++ indentLines indent (afterBreak || !breaks.isEmpty) cs := by
  induction breaks generalizing afterBreak with
  | nil => simp
  | cons b breaks ih =>
    rw [List.cons_append, indentLines, if_pos (h b List.mem_cons_self),
      ih fun c hc => h c (List.mem_cons_of_mem b hc)]
    simp

theorem indentLines_line {line : List Char} (h : OneLine line) (indent : Nat) (cs : List Char) :
    indentLines indent false (line ++ cs) = line ++ indentLines indent false cs := by
  induction line with
  | nil => rfl
  | cons c line ih =>
    rw [oneLine_cons] at h
    rw [List.cons_append, indentLines, h.1, if_neg Bool.false_ne_true, if_neg Bool.false_ne_true,
      ih h.2]
    rfl

/-- A line is indented when it has a character. -/
theorem indentLines_start {c : Char} (h : isBreak c = false) (indent : Nat) (cs : List Char) :
    indentLines indent true (c :: cs) = spaces indent ++ indentLines indent false (c :: cs) := by
  rw [indentLines, indentLines, h]
  simp

section Lines

variable {chomping : Chomping} {indent count fuel : Nat} {lineBreak empty rest : List Char}
  {afterBlank : Bool} {p : Position}

/-- The lines end at the end of the text and before a line with another indentation. -/
theorem blockLines?_end (h : rest = [] ∨ p.column ≠ indent) :
    blockLines? false chomping indent (fuel + 1) lineBreak empty afterBlank ⟨rest, p⟩ =
      some (chomped chomping lineBreak empty, ⟨rest, p⟩) := by
  rw [blockLines?]
  cases rest with
  | nil => rfl
  | cons c rest =>
    have hcolumn : ((Cursor.mk (c :: rest) p).column != indent) = true := by
      rw [bne_iff_ne]
      exact h.resolve_left (List.cons_ne_nil c rest)
    simp only [hcolumn, if_true]

variable (chomping fuel lineBreak empty afterBlank) in
/-- One line, with the empty lines behind it. -/
theorem blockLines?_line {line breaks : List Char} (hline : OneLine line) (hne : line ≠ [])
    {b : Char} (hb : isBreak b = true) (hbreaks : ∀ c ∈ breaks, isBreak c = true)
    (hrest : Follows indent count rest) (hindent : indent ≠ 0) (hp : p.column = indent) :
    ∃ afterBlank', blockLines? false chomping indent (fuel + 1) lineBreak empty afterBlank
        ⟨line ++ b :: (breaks ++ (spaces count ++ rest)), p⟩ =
      (blockLines? false chomping indent fuel [b] breaks afterBlank'
        ⟨rest, p.behind (line ++ b :: (breaks ++ spaces count))⟩).map
          (prepend (lineBreak ++ empty ++ line)) := by
  obtain ⟨c, cs, rfl⟩ := List.exists_cons_of_ne_nil hne
  have hin : ∀ d ∈ c :: cs, (!isBreak d) = true := fun d hd => by rw [hline d hd]; rfl
  have hout : ∀ d ∈ (b :: (breaks ++ (spaces count ++ rest))).head?, (!isBreak d) = false := by
    simpa using hb
  have hspan := Cursor.span_append hin hout p
  have hfuel : breaks.length < (b :: (breaks ++ (spaces count ++ rest))).length + 1 := by
    simp only [List.length_cons, List.length_append]
    omega
  obtain ⟨widest, hempty⟩ := emptyLines?_known hrest hindent hbreaks hfuel 0
    (Position.column_past_of_isBreak hb (p.behind (c :: cs)))
  have hcolumn : ((Cursor.mk (c :: cs ++ b :: (breaks ++ (spaces count ++ rest))) p).column !=
      indent) = false := by
    rw [bne_eq_false_iff_eq]
    exact hp
  refine ⟨isBlank c, ?_⟩
  rw [blockLines?]
  simp only [List.cons_append] at hspan hcolumn ⊢
  simp only [hcolumn, Bool.false_eq_true, if_false, hspan, Cursor.skip, hempty,
    Option.bind_eq_bind, Option.bind_some, List.take_succ_cons, List.take_zero]
  rw [Option.map_eq_bind]
  simp only [Position.behind_append, Position.behind_cons]
  rfl

end Lines

/-- A text that starts and ends with a character of a line. -/
structure IsBody (body : List Char) : Prop where
  ne_nil : body ≠ []
  first : ∀ c ∈ body.head?, isBreak c = false
  last : ∀ c ∈ body.getLast?, isBreak c = false

/-- A text is one line, or a line, ends of lines, and a text again. -/
theorem IsBody.cases {body : List Char} (h : IsBody body) :
    OneLine body ∨ ∃ line b breaks more, body = line ++ b :: (breaks ++ more) ∧ OneLine line ∧
      line ≠ [] ∧ isBreak b = true ∧ (∀ c ∈ breaks, isBreak c = true) ∧ IsBody more := by
  obtain ⟨line, behind, rfl, hline, hbehind⟩ := exists_run (!isBreak ·) body
  have hone : OneLine line := fun c hc => by simpa using hline c hc
  cases behind with
  | nil =>
    rw [List.append_nil]
    exact .inl hone
  | cons b behind =>
    have hb : isBreak b = true := by simpa using hbehind b rfl
    obtain ⟨breaks, more, rfl, hbreaks, hmore⟩ := exists_run isBreak behind
    have hlineNe : line ≠ [] := by
      rintro rfl
      rw [h.first b rfl] at hb
      exact Bool.noConfusion hb
    have hlast : ∀ c ∈ (b :: (breaks ++ more)).getLast?, isBreak c = false := by
      have := h.last
      rwa [List.getLast?_append_of_ne_nil _ (List.cons_ne_nil _ _)] at this
    have hmoreNe : more ≠ [] := by
      rintro rfl
      have hall : ∀ c ∈ b :: (breaks ++ []), isBreak c = true := by
        rw [List.append_nil]
        exact List.forall_mem_cons.2 ⟨hb, hbreaks⟩
      have hlastBreak := hall _ (List.getLast_mem (List.cons_ne_nil _ _))
      rw [hlast _ (List.getLast?_eq_some_getLast (List.cons_ne_nil _ _))] at hlastBreak
      exact Bool.noConfusion hlastBreak
    refine .inr ⟨line, b, breaks, more, rfl, hone, hlineNe, hb, hbreaks, hmoreNe, hmore, ?_⟩
    rwa [← List.cons_append, List.getLast?_append_of_ne_nil _ hmoreNe] at hlast

/-- A text starts as before when its lines are indented behind the first one. -/
theorem IsBody.head?_indentLines {body : List Char} (h : IsBody body) (indent : Nat)
    (rest : List Char) : (indentLines indent false body ++ rest).head? = body.head? := by
  obtain ⟨c, cs, rfl⟩ := List.exists_cons_of_ne_nil h.ne_nil
  rw [indentLines, h.first c rfl]
  rfl

/-- The lines behind the first one are indented. -/
theorem IsBody.indentLines_eq {more : List Char} (h : IsBody more) {line breaks : List Char}
    {b : Char} (hline : OneLine line) (hb : isBreak b = true)
    (hbreaks : ∀ c ∈ breaks, isBreak c = true) (indent : Nat) :
    indentLines indent false (line ++ b :: (breaks ++ more)) =
      line ++ b :: (breaks ++ (spaces indent ++ indentLines indent false more)) := by
  obtain ⟨c, cs, rfl⟩ := List.exists_cons_of_ne_nil h.ne_nil
  rw [indentLines_line hline, ← List.cons_append,
    indentLines_breaks (List.forall_mem_cons.2 ⟨hb, hbreaks⟩), List.isEmpty_cons,
    Bool.not_false, Bool.or_true, indentLines_start (h.first c rfl), List.cons_append]

/-- All lines of a text, and the ends of lines behind them. -/
theorem blockLines?_text {body ends : List Char} (h : IsBody body)
    (hends : ∀ c ∈ ends, isBreak c = true) {indent count fuel : Nat} (hfuel : body.length < fuel)
    {rest : List Char} (hrest : Follows indent count rest) (hend : rest = [] ∨ count < indent)
    (hindent : indent ≠ 0) (lineBreak empty : List Char) (afterBlank : Bool) {p : Position}
    (hp : p.column = indent) :
    blockLines? false (chompingOf ends) indent fuel lineBreak empty afterBlank
        ⟨indentLines indent false body ++ (lineEnds ends ++ (spaces count ++ rest)), p⟩ =
      some (lineBreak ++ empty ++ body ++ ends,
        ⟨rest, p.behind (indentLines indent false body ++ (lineEnds ends ++ spaces count))⟩) := by
  induction fuel generalizing body lineBreak empty afterBlank p with
  | zero => exact absurd hfuel (Nat.not_lt_zero _)
  | succ fuel ih =>
    rcases h.cases with hone | ⟨line, b, breaks, more, rfl, hline, hne, hb, hbreaks, hmore⟩
    · obtain ⟨b, breaks, hlineEnds, hb, hbreaks, hchomped⟩ := lineEnds_cases ends hends
      have hwritten : indentLines indent false body = body := by
        simpa [indentLines] using indentLines_line hone indent []
      obtain ⟨fuel, rfl⟩ : ∃ n, fuel = n + 1 := by
        have hpos := List.length_pos_iff.2 h.ne_nil
        exact ⟨fuel - 1, by omega⟩
      obtain ⟨blank, hread⟩ := blockLines?_line (chompingOf ends) (fuel + 1) lineBreak empty
        afterBlank hone h.ne_nil hb hbreaks hrest hindent hp
      have hcolumn : rest = [] ∨ (p.behind (body ++ b :: (breaks ++ spaces count))).column ≠
          indent := by
        refine hend.imp_right fun hlt => ?_
        rw [Position.column_behind_line body hb hbreaks]
        exact hlt.ne
      rw [hwritten, hlineEnds, List.cons_append, hread, blockLines?_end hcolumn, hchomped]
      simp only [Option.map_some, prepend, List.append_assoc, List.cons_append]
    · have hfollows : Follows indent indent
          (indentLines indent false more ++ (lineEnds ends ++ (spaces count ++ rest))) := by
        refine ⟨le_rfl, ?_, fun hlt => absurd hlt (lt_irrefl _)⟩
        rw [hmore.head?_indentLines]
        exact hmore.first
      obtain ⟨blank, hread⟩ := blockLines?_line (chompingOf ends) fuel lineBreak empty
        afterBlank hline hne hb hbreaks hfollows hindent hp
      have hlength : more.length < fuel := by
        simp only [List.length_append, List.length_cons] at hfuel
        omega
      have hmoreRead := ih hmore hlength [b] breaks blank
        (Position.column_behind_line line hb hbreaks indent p)
      rw [hmore.indentLines_eq hline hb hbreaks]
      simp only [List.append_assoc, List.cons_append] at hread hmoreRead ⊢
      rw [hread, hmoreRead]
      simp only [Option.map_some, prepend, List.append_assoc, List.nil_append,
        Position.behind_append, Position.behind_cons]

/-! ## Headers -/

/-- The sign of an indentation that the first line does not show. -/
def hintMark (hinted : Bool) : List Char := if hinted then ['2'] else []

/-- The sign of what becomes of the ends of lines at the end. -/
def chompingMark : Chomping → List Char
  | .strip => ['-']
  | .clip => []
  | .keep => ['+']

/-- A header is read as what it is written for. -/
theorem blockHeader?_marks (hinted : Bool) (chomping : Chomping) (rest : List Char) :
    blockHeader? (hintMark hinted ++ chompingMark chomping ++ '\n' :: rest) =
      some (chomping, if hinted then some 2 else none,
        (hintMark hinted ++ chompingMark chomping).length) := by
  cases hinted <;> cases chomping <;> rfl

/-- The first character does not show the indentation. -/
def needsHint (cs : List Char) : Bool := cs.head?.any fun c => c == ' ' || isBreak c

/-- The header by the last two characters. -/
theorem literalHeader_eq {cs : List Char} (last : Char) (before : List Char)
    (h : cs.reverse = last :: before) : literalHeader cs = '|' :: (hintMark (needsHint cs) ++
      if !isBreak last then ['-'] else if before.head?.all isBreak then ['+'] else []) := by
  rw [literalHeader, h]
  rfl

/-- The header of a text with a character of a line. -/
theorem literalHeader_body {starts body ends : List Char} (h : IsBody body)
    (hends : ∀ c ∈ ends, isBreak c = true) :
    literalHeader (starts ++ (body ++ ends)) = '|' ::
      (hintMark (needsHint (starts ++ (body ++ ends))) ++ chompingMark (chompingOf ends)) := by
  obtain ⟨before, last, rfl⟩ := (List.eq_nil_or_concat body).resolve_left h.ne_nil
  rw [List.concat_eq_append] at h ⊢
  have hlast : isBreak last = false := h.last last (by simp)
  rcases List.eq_nil_or_concat ends with rfl | ⟨breaks, e, rfl⟩
  · rw [literalHeader_eq last (before.reverse ++ starts.reverse) (by simp), hlast]
    rfl
  · rw [List.concat_eq_append] at hends ⊢
    have he : isBreak e = true := hends e (by simp)
    rcases List.eq_nil_or_concat breaks with rfl | ⟨breaks, d, rfl⟩
    · rw [literalHeader_eq e (last :: (before.reverse ++ starts.reverse)) (by simp), he,
        List.head?_cons, Option.all_some, hlast]
      rfl
    · rw [List.concat_eq_append] at hends ⊢
      have hd : isBreak d = true := hends d (by simp)
      have hkeep : chompingOf (breaks ++ [d] ++ [e]) = .keep := by
        rcases breaks with _ | ⟨a, _ | ⟨b, breaks⟩⟩ <;> rfl
      rw [literalHeader_eq e (d :: (breaks.reverse ++ (last :: (before.reverse ++
        starts.reverse)))) (by simp), he, List.head?_cons, Option.all_some, hd, hkeep]
      rfl

/-- The header of a text of ends of lines. -/
theorem literalHeader_breaks {breaks : List Char} (h : ∀ c ∈ breaks, isBreak c = true)
    (hne : breaks ≠ []) :
    literalHeader breaks = '|' :: (hintMark true ++ chompingMark .keep) := by
  obtain ⟨last, before, hreverse⟩ := List.exists_cons_of_ne_nil (List.reverse_ne_nil_iff.2 hne)
  have hall : ∀ c ∈ last :: before, isBreak c = true := by
    rw [← hreverse]
    exact fun c hc => h c (List.mem_reverse.1 hc)
  have hhint : needsHint breaks = true := by
    obtain ⟨b, more, rfl⟩ := List.exists_cons_of_ne_nil hne
    rw [needsHint, List.head?_cons, Option.any_some, h b List.mem_cons_self, Bool.or_true]
  have hbefore : before.head?.all isBreak = true := by
    cases before with
    | nil => rfl
    | cons c before => exact hall c (by simp)
  rw [literalHeader_eq last before hreverse, hhint, hall last List.mem_cons_self, hbefore]
  rfl

/-- The place of the first line behind a header. -/
def behindHeader (hinted : Bool) (chomping : Chomping) (p : Position) : Position :=
  p.behind ('|' :: (hintMark hinted ++ chompingMark chomping ++ ['\n']))

theorem column_behindHeader (hinted : Bool) (chomping : Chomping) (p : Position) :
    (behindHeader hinted chomping p).column = 0 := by
  rw [behindHeader, ← List.cons_append, Position.behind_append]
  exact Position.column_past_of_isBreak (c := '\n') (by decide) _

/-- A block scalar behind its header. -/
theorem block?_header (margin : Nat) (hinted : Bool) (chomping : Chomping) (lines : List Char)
    (p : Position) : block? margin
      ⟨'|' :: (hintMark hinted ++ chompingMark chomping ++ '\n' :: lines), p⟩ =
    (emptyLines? (if hinted then margin - 1 + 2 else 0) (lines.length + 1) 0
      ⟨lines, behindHeader hinted chomping p⟩).bind
        fun (empty, widest, next) => blockLines? false chomping
          (if hinted then margin - 1 + 2 else max (max widest margin) 1) (next.rest.length + 1) []
          empty false next := by
  have hskip := Cursor.skip_append ('|' :: (hintMark hinted ++ chompingMark chomping))
    ('\n' :: lines) p
  have hfeed : ∀ c ∈ ('\n' :: lines).head?, isBlank c = false := by simp [isBlank]
  have hspan := Cursor.span_append (List.forall_mem_nil _) hfeed
    (p.behind ('|' :: (hintMark hinted ++ chompingMark chomping)))
  rw [List.nil_append, Position.behind_nil] at hspan
  rw [List.length_cons, List.cons_append] at hskip
  have hcomment : (('\n' :: lines).head? == some '#') = false := rfl
  have hend : ('\n' :: lines).head?.any (fun c => !isBreak c) = false := rfl
  have hpast : (p.behind ('|' :: (hintMark hinted ++ chompingMark chomping))).past '\n' =
      behindHeader hinted chomping p :=
    (Position.behind_append p ('|' :: (hintMark hinted ++ chompingMark chomping)) ['\n']).symm
  rw [block?]
  simp only [List.drop_one, List.tail_cons, blockHeader?_marks, Option.bind_eq_bind,
    Option.bind_some, hskip, Cursor.skipWhile, hspan, hcomment, Bool.false_eq_true, if_false, hend]
  simp only [Cursor.skip, hpast]
  cases hinted <;> rfl

/-! ## Literals -/

theorem length_le_length_indentLines (indent : Nat) (afterBreak : Bool) (cs : List Char) :
    cs.length ≤ (indentLines indent afterBreak cs).length := by
  induction cs generalizing afterBreak with
  | nil => exact Nat.zero_le _
  | cons c cs ih =>
    rw [indentLines]
    split
    · exact Nat.succ_le_succ (ih true)
    · have hle := ih false
      simp only [List.length_append, List.length_cons]
      omega

/-- Ends of lines at the end are not indented. -/
theorem indentLines_append_breaks {breaks : List Char} (h : ∀ c ∈ breaks, isBreak c = true)
    (indent : Nat) (afterBreak : Bool) (cs : List Char) :
    indentLines indent afterBreak (cs ++ breaks) = indentLines indent afterBreak cs ++ breaks := by
  induction cs generalizing afterBreak with
  | nil => simpa [indentLines] using indentLines_breaks h indent afterBreak []
  | cons c cs ih =>
    rw [List.cons_append, indentLines, indentLines, ih, ih]
    split
    · rfl
    · rw [List.append_assoc, List.cons_append]

/-- The literal of a text of ends of lines. -/
theorem literal_breaks {breaks : List Char} (h : ∀ c ∈ breaks, isBreak c = true)
    (hne : breaks ≠ []) (indent : Nat) : literal indent breaks =
      '|' :: (hintMark true ++ chompingMark .keep ++ '\n' :: breaks) := by
  have hlast : breaks.getLast?.any isBreak = true := by
    rw [List.getLast?_eq_some_getLast hne, Option.any_some]
    exact h _ (List.getLast_mem hne)
  have hlines : indentLines indent true breaks = breaks := by
    simpa [indentLines] using indentLines_breaks h indent true []
  rw [literal, literalHeader_breaks h hne, hlines, hlast, if_pos rfl]
  simp only [List.append_assoc, List.cons_append, List.nil_append, List.append_nil]

/-- The literal of a text with a character of a line. -/
theorem literal_body {starts body ends : List Char} (hstarts : ∀ c ∈ starts, isBreak c = true)
    (h : IsBody body) (hends : ∀ c ∈ ends, isBreak c = true) (indent : Nat) :
    literal indent (starts ++ (body ++ ends)) = '|' ::
      (hintMark (needsHint (starts ++ (body ++ ends))) ++ chompingMark (chompingOf ends) ++ '\n' ::
        (starts ++ (spaces indent ++ (indentLines indent false body ++ lineEnds ends)))) := by
  have hlines : indentLines indent true (starts ++ (body ++ ends)) =
      starts ++ (spaces indent ++ (indentLines indent false body ++ ends)) := by
    obtain ⟨c, cs, rfl⟩ := List.exists_cons_of_ne_nil h.ne_nil
    rw [indentLines_breaks hstarts, Bool.true_or, List.cons_append,
      indentLines_start (h.first c rfl), ← List.cons_append, indentLines_append_breaks hends]
  have hlast : ends ++ (if (starts ++ (body ++ ends)).getLast?.any isBreak then [] else ['\n']) =
      lineEnds ends := by
    rw [← List.append_assoc]
    cases ends with
    | nil =>
      have hnone : (starts ++ body ++ []).getLast?.any isBreak = false := by
        rw [List.append_nil, List.getLast?_append_of_ne_nil _ h.ne_nil,
          List.getLast?_eq_some_getLast h.ne_nil, Option.any_some]
        exact h.last _ (List.getLast?_eq_some_getLast h.ne_nil)
      rw [hnone]
      rfl
    | cons e ends =>
      rw [List.getLast?_append_of_ne_nil _ (List.cons_ne_nil e ends),
        List.getLast?_eq_some_getLast (List.cons_ne_nil e ends), Option.any_some,
        hends _ (List.getLast_mem _), if_pos rfl, List.append_nil]
      rfl
  rw [literal, literalHeader_body h hends, hlines, ← hlast]
  simp only [List.append_assoc, List.cons_append, List.nil_append]

/-- A text is ends of lines, or has a character of a line. -/
theorem breaks_or_body (cs : List Char) : (∀ c ∈ cs, isBreak c = true) ∨
    ∃ starts body ends, cs = starts ++ (body ++ ends) ∧ (∀ c ∈ starts, isBreak c = true) ∧
      IsBody body ∧ ∀ c ∈ ends, isBreak c = true := by
  obtain ⟨starts, more, rfl, hstarts, hmore⟩ := exists_run isBreak cs
  by_cases hne : more = []
  · subst hne
    rw [List.append_nil]
    exact .inl hstarts
  · obtain ⟨ends, body, hreverse, hends, hbody⟩ := exists_run isBreak more.reverse
    have heq : more = body.reverse ++ ends.reverse := by
      rw [← List.reverse_append, ← hreverse, List.reverse_reverse]
    have hbodyNe : body.reverse ≠ [] := by
      intro hnil
      obtain ⟨c, cs, rfl⟩ := List.exists_cons_of_ne_nil hne
      have hmem : c ∈ ends := by
        rw [hnil, List.nil_append] at heq
        exact List.mem_reverse.1 (heq ▸ List.mem_cons_self)
      have hbreak := hends c hmem
      rw [hmore c rfl] at hbreak
      exact Bool.noConfusion hbreak
    refine .inr ⟨starts, body.reverse, ends.reverse, by rw [heq], hstarts, ⟨hbodyNe, ?_, ?_⟩, ?_⟩
    · rwa [heq, List.head?_append_of_ne_nil _ hbodyNe] at hmore
    · rwa [List.getLast?_reverse]
    · exact fun c hc => hends c (List.mem_reverse.1 hc)

/-- The start of a block scalar up to its first line: the ends of lines there, and the indentation,
which the header gives or the line shows. -/
theorem emptyLines?_first {margin : Nat} (hmargin : margin ≠ 0) {starts lines : List Char}
    (hstarts : ∀ c ∈ starts, isBreak c = true) (hlines : ∀ c ∈ lines.head?, isBreak c = false)
    (hne : lines ≠ []) (htab : lines.head? ≠ some '\t') {fuel : Nat} (hfuel : starts.length < fuel)
    {p : Position} (hp : p.column = 0) :
    ∃ widest, emptyLines? (if needsHint (starts ++ lines) then margin - 1 + 2 else 0) fuel 0
        ⟨starts ++ (spaces (margin + 1) ++ lines), p⟩ =
      some (starts, widest, ⟨lines, p.behind (starts ++ spaces (margin + 1))⟩) ∧
      (if needsHint (starts ++ lines) then margin - 1 + 2 else max (max widest margin) 1) =
        margin + 1 := by
  have hknown : margin - 1 + 2 = margin + 1 := by omega
  rw [hknown]
  cases hhint : needsHint (starts ++ lines) with
  | true =>
    obtain ⟨widest, hread⟩ := emptyLines?_known
      ⟨le_rfl, hlines, fun hlt => absurd hlt (lt_irrefl _)⟩ (Nat.succ_ne_zero margin) hstarts hfuel
      0 hp
    exact ⟨widest, hread, rfl⟩
  | false =>
    -- the text starts with a character that is neither a space nor the end of a line
    have hstartsNil : starts = [] := by
      cases starts with
      | nil => rfl
      | cons b starts =>
        rw [needsHint, List.cons_append, List.head?_cons, Option.any_some,
          hstarts b List.mem_cons_self, Bool.or_true] at hhint
        exact Bool.noConfusion hhint
    subst hstartsNil
    obtain ⟨c, cs, rfl⟩ := List.exists_cons_of_ne_nil hne
    obtain ⟨fuel, rfl⟩ : ∃ n, fuel = n + 1 := ⟨fuel - 1, by omega⟩
    have hgap : isGap c = false := by
      rw [needsHint, List.nil_append, List.head?_cons, Option.any_some, Bool.or_eq_false_iff]
        at hhint
      have hnotTab : (c == '\t') = false := by
        rw [beq_eq_false_iff_ne]
        rintro rfl
        exact htab rfl
      rw [isGap, isBlank, hhint.1, hnotTab, hhint.2]
      rfl
    exact ⟨margin + 1, emptyLines?_shown (margin + 1) hgap cs hp fuel, by
      rw [if_neg Bool.false_ne_true]; omega⟩

section Reading

variable {margin count : Nat} {rest : List Char}

/-- A text of ends of lines is read from its literal. -/
theorem block?_literal_breaks {breaks : List Char} (hbreaks : ∀ c ∈ breaks, isBreak c = true)
    (hne : breaks ≠ []) (hmargin : margin ≠ 0) (hrest : Follows (margin + 1) count rest)
    (hend : rest = [] ∨ count < margin + 1) (p : Position) :
    block? margin ⟨literal (margin + 1) breaks ++ (spaces count ++ rest), p⟩ =
      some (breaks, ⟨rest, p.behind (literal (margin + 1) breaks ++ spaces count)⟩) := by
  have hfuel : breaks.length < (breaks ++ (spaces count ++ rest)).length + 1 := by
    rw [List.length_append]
    omega
  obtain ⟨widest, hempty⟩ := emptyLines?_known hrest (Nat.succ_ne_zero margin) hbreaks hfuel 0
    (column_behindHeader true .keep p)
  have hknown : margin - 1 + 2 = margin + 1 := by omega
  have hcolumn : rest = [] ∨
      ((behindHeader true .keep p).behind (breaks ++ spaces count)).column ≠ margin + 1 := by
    refine hend.imp_right fun hlt => ?_
    rw [Position.column_behind_spaces hbreaks (.inr hne)]
    exact hlt.ne
  rw [literal_breaks hbreaks hne, List.cons_append, List.append_assoc, List.cons_append,
    block?_header, if_pos rfl, hknown, hempty, Option.bind_some]
  simp only [if_true]
  rw [blockLines?_end hcolumn, behindHeader, ← Position.behind_append]
  simp only [chomped, List.nil_append, List.append_assoc, List.cons_append]

/-- A text with a character of a line is read from its literal. -/
theorem block?_literal_body {starts body ends : List Char}
    (hstarts : ∀ c ∈ starts, isBreak c = true) (hbody : IsBody body)
    (hends : ∀ c ∈ ends, isBreak c = true) (htab : body.head? ≠ some '\t') (hmargin : margin ≠ 0)
    (hrest : Follows (margin + 1) count rest) (hend : rest = [] ∨ count < margin + 1)
    (p : Position) :
    block? margin ⟨literal (margin + 1) (starts ++ (body ++ ends)) ++ (spaces count ++ rest), p⟩ =
      some (starts ++ (body ++ ends),
        ⟨rest, p.behind (literal (margin + 1) (starts ++ (body ++ ends)) ++ spaces count)⟩) := by
  -- the lines start with the character that the text starts with
  generalize hlines : indentLines (margin + 1) false body ++
    (lineEnds ends ++ (spaces count ++ rest)) = lines
  have hhead : lines.head? = body.head? := by rw [← hlines, hbody.head?_indentLines]
  have hhint : needsHint (starts ++ (body ++ ends)) = needsHint (starts ++ lines) := by
    rw [needsHint, needsHint, List.head?_append, List.head?_append_of_ne_nil _ hbody.ne_nil,
      List.head?_append, hhead]
  have hlinesNe : lines ≠ [] := by
    rintro rfl
    exact hbody.ne_nil (List.head?_eq_none_iff.1 hhead.symm)
  have hcolumn := column_behindHeader (needsHint (starts ++ lines)) (chompingOf ends) p
  have hstartsFuel : starts.length < (starts ++ (spaces (margin + 1) ++ lines)).length + 1 := by
    rw [List.length_append]
    omega
  obtain ⟨widest, hempty, hwidest⟩ := emptyLines?_first hmargin hstarts
    (by rw [hhead]; exact hbody.first) hlinesNe (by rwa [hhead]) hstartsFuel hcolumn
  have hbodyFuel : body.length < lines.length + 1 := by
    have hle := length_le_length_indentLines (margin + 1) false body
    rw [← hlines, List.length_append]
    omega
  have hread := blockLines?_text hbody hends hbodyFuel hrest hend (Nat.succ_ne_zero margin) []
    starts false (Position.column_behind_spaces hstarts (.inl hcolumn) (margin + 1))
  rw [hlines] at hread
  rw [literal_body hstarts hbody hends, hhint]
  simp only [List.cons_append, List.append_assoc]
  rw [hlines, ← List.append_assoc (hintMark _), block?_header, hempty, Option.bind_some]
  simp only [hwidest]
  rw [hread, behindHeader]
  simp only [List.nil_append, List.append_assoc, List.cons_append, ← Position.behind_append]

/-- A text is read from its literal as this text, up to a line that is indented less. -/
theorem block?_literal (hmargin : margin ≠ 0) {cs : List Char} (hne : cs ≠ []) (htab : '\t' ∉ cs)
    (hrest : Follows (margin + 1) count rest) (hend : rest = [] ∨ count < margin + 1)
    (p : Position) :
    block? margin ⟨literal (margin + 1) cs ++ (spaces count ++ rest), p⟩ =
      some (cs, ⟨rest, p.behind (literal (margin + 1) cs ++ spaces count)⟩) := by
  rcases breaks_or_body cs with hbreaks | ⟨starts, body, ends, rfl, hstarts, hbody, hends⟩
  · exact block?_literal_breaks hbreaks hne hmargin hrest hend p
  · have hbodyTab : body.head? ≠ some '\t' := fun hhead =>
      htab (List.mem_append_right _ (List.mem_append_left _ (List.mem_of_mem_head? hhead)))
    exact block?_literal_body hstarts hbody hends hbodyTab hmargin hrest hend p

end Reading

end ProcedureCatalog.Yaml
