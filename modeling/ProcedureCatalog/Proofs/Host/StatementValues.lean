/-
# Values in statements

Given texts stand in the literals of a statement and nowhere else. A statement is a row of pieces
with a space between each two: constant text, values and numbers. Each piece can be read by itself,
so no value reaches beyond its literal.

* `Piece` : constant text, a value or a number.
* `tokens?_render` : the tokens of a statement are those of its pieces.
* `Statement` : the statements with what they are given.
* `Statement.sql_eq_render` : the pieces of each statement.
* `values_stay_in_literals` : whatever the given texts are, the tokens of a statement are the same
  but for the values of its literals.
-/
import ProcedureCatalog.Host.Statement
import ProcedureCatalog.Proofs.Sql.Reading

namespace ProcedureCatalog.Host

open Sql

/-! ## Pieces -/

/-- Where constant text has its spaces. -/
inductive Spacing where
  | before
  | behind
  | around
  deriving DecidableEq, Repr

/-- The text can be read by itself, has no literals, and has its spaces where they should be. -/
def isCode (text : String) (spacing : Spacing) : Bool :=
  let reader := text.toList.foldl Reader.feed Reader.start
  (reader.finish.any fun tokens => tokens.all (·.value?.isNone)) &&
    (spacing == .before || reader.mode == .between) &&
    (spacing == .behind || text.toList.head? == some ' ')

/-- A piece of a statement: constant text, a value or a number. -/
inductive Piece where
  | code (text : String) (spacing : Spacing) (whole : isCode text spacing = true)
  | value (text : String)
  | number (n : Nat)

namespace Piece

/-- The text of a piece. -/
def text : Piece → String
  | code text _ _ => text
  | value text => literal text
  | number n => toString n

/-- The tokens of a piece. -/
def tokens : Piece → List Token
  | code text _ _ => (tokens? text.toList).getD []
  | value text => [.literal text.toList]
  | number n => [.word (toString n).toList]

/-- The piece with its value left out. -/
def shape : Piece → Piece
  | value _ => value ""
  | piece => piece

/-- The value of a piece. -/
def value? : Piece → Option String
  | value text => some text
  | _ => none

/-- The piece has a space behind. -/
def endsSpaced : Piece → Bool
  | code _ .behind _ => true
  | code _ .around _ => true
  | _ => false

/-- The piece has a space before. -/
def startsSpaced : Piece → Bool
  | code _ .before _ => true
  | code _ .around _ => true
  | _ => false

/-- The tokens of a constant text, none of them with a value. -/
theorem exists_tokens_of_isCode {text : String} {spacing : Spacing}
    (h : isCode text spacing = true) :
    ∃ tokens, tokens? text.toList = some tokens ∧ ∀ token ∈ tokens, token.value? = none := by
  rw [isCode, Bool.and_eq_true, Bool.and_eq_true] at h
  obtain ⟨tokens, htokens, hall⟩ := (Option.any_eq_true _ _).1 h.1.1
  exact ⟨tokens, htokens, by simpa using hall⟩

/-- Behind a space the reader is between tokens. -/
theorem mode_of_endsSpaced {p : Piece} (h : p.endsSpaced = true) :
    (p.text.toList.foldl Reader.feed Reader.start).mode = .between := by
  obtain ⟨text, spacing, whole⟩ | _ | _ := p
  · rw [isCode, Bool.and_eq_true, Bool.and_eq_true, Bool.or_eq_true] at whole
    have hspacing : spacing ≠ .before := by
      rintro rfl
      exact Bool.noConfusion h
    exact eq_of_beq (whole.1.2.resolve_left fun heq => hspacing (eq_of_beq heq))
  all_goals exact Bool.noConfusion h

theorem head?_of_startsSpaced {p : Piece} (h : p.startsSpaced = true) :
    p.text.toList.head? = some ' ' := by
  obtain ⟨text, spacing, whole⟩ | _ | _ := p
  · rw [isCode, Bool.and_eq_true, Bool.or_eq_true] at whole
    have hspacing : spacing ≠ .behind := by
      rintro rfl
      exact Bool.noConfusion h
    exact eq_of_beq (whole.2.resolve_left fun heq => hspacing (eq_of_beq heq))
  all_goals exact Bool.noConfusion h

/-- A space between two pieces separates them. -/
theorem separated_of_spaced {p q : Piece} (h : p.endsSpaced = true ∨ q.startsSpaced = true)
    (rest : List Char) : Separated p.text.toList (q.text.toList ++ rest) := by
  rcases h with h | h
  · exact .inl (mode_of_endsSpaced h)
  · right
    rw [List.head?_append, head?_of_startsSpaced h]
    rfl

theorem toList_literal (text : String) :
    (literal text).toList =
      Char.ofNat 0x27 :: (text.toList.flatMap sqlChar ++ [Char.ofNat 0x27]) := by
  have hquote : "'".toList = [Char.ofNat 0x27] := by decide
  simp [literal, sqlText, replaceChars, hquote]

/-- Each piece can be read by itself. -/
theorem tokens?_text (p : Piece) : tokens? p.text.toList = some p.tokens := by
  cases p with
  | code text spacing whole =>
    obtain ⟨tokens, htokens, -⟩ := exists_tokens_of_isCode whole
    simp only [Piece.text, Piece.tokens, htokens, Option.getD_some]
  | value text =>
    rw [Piece.text, toList_literal]
    exact tokens?_literal _ (by decide)
  | number n =>
    have hdigits : (toString n).toList = Nat.toDigits 10 n := Nat.toList_repr
    rw [Piece.text, Piece.tokens, hdigits]
    refine tokens?_word Nat.toDigits_ne_nil fun c hc => ?_
    have hdigit := Nat.isDigit_of_mem_toDigits (by decide) (by decide) hc
    rw [isWordChar, Char.isAlphanum, hdigit, Bool.or_true, Bool.true_or]

/-- Leaving the value out of a piece leaves it out of the tokens. -/
theorem map_shape_tokens (p : Piece) : p.tokens.map Token.shape = p.shape.tokens := by
  cases p with
  | code text spacing whole =>
    obtain ⟨tokens, htokens, hvalues⟩ := exists_tokens_of_isCode whole
    have hshape : ∀ token ∈ tokens, token.shape = token :=
      fun token htoken => Token.shape_eq_self (hvalues token htoken)
    have hself : shape (code text spacing whole) = code text spacing whole := rfl
    rw [hself, Piece.tokens, htokens]
    exact (List.map_congr_left hshape).trans (List.map_id tokens)
  | value text => rfl
  | number n => rfl

/-- The value of a piece is the only one in its tokens. -/
theorem filterMap_value?_tokens (p : Piece) :
    p.tokens.filterMap Token.value? = (p.value?.map String.toList).toList := by
  cases p with
  | code text spacing whole =>
    obtain ⟨tokens, htokens, hvalues⟩ := exists_tokens_of_isCode whole
    rw [Piece.tokens, htokens]
    exact List.filterMap_eq_nil_iff.2 hvalues
  | value text => rfl
  | number n => rfl

end Piece

/-- The text of pieces. -/
def render : List Piece → String
  | [] => ""
  | p :: pieces => p.text ++ render pieces

/-- There is a space between each two pieces. -/
def isSpaced : List Piece → Bool
  | p :: q :: pieces => (p.endsSpaced || q.startsSpaced) && isSpaced (q :: pieces)
  | _ => true

/-- The tokens of spaced pieces are those of the pieces one by one. -/
theorem tokens?_render (pieces : List Piece) (h : isSpaced pieces = true) :
    tokens? (render pieces).toList = some (pieces.flatMap Piece.tokens) := by
  induction pieces with
  | nil => rfl
  | cons p pieces ih =>
    rw [render, String.toList_append, List.flatMap_cons]
    cases pieces with
    | nil => simp [render, p.tokens?_text]
    | cons q pieces =>
      rw [isSpaced, Bool.and_eq_true, Bool.or_eq_true] at h
      have hseparated : Separated p.text.toList (render (q :: pieces)).toList := by
        rw [render, String.toList_append]
        exact Piece.separated_of_spaced h.1 _
      rw [tokens?_append p.tokens?_text hseparated, ih h.2]
      rfl

/-- Without its values a statement has the tokens of its pieces without theirs. -/
theorem map_shape_flatMap_tokens (pieces : List Piece) :
    (pieces.flatMap Piece.tokens).map Token.shape =
      (pieces.map Piece.shape).flatMap Piece.tokens := by
  rw [List.map_flatMap, List.flatMap_map]
  exact congrArg (pieces.flatMap ·) (funext Piece.map_shape_tokens)

/-- The literals have the values of the pieces. -/
theorem filterMap_value?_flatMap_tokens (pieces : List Piece) :
    (pieces.flatMap Piece.tokens).filterMap Token.value? =
      (pieces.filterMap Piece.value?).map String.toList := by
  induction pieces with
  | nil => rfl
  | cons p pieces ih =>
    rw [List.flatMap_cons, List.filterMap_append, ih, Piece.filterMap_value?_tokens]
    cases hvalue : p.value? <;> simp [hvalue]

/-! ## Statements -/

/-- A statement with what it is given. -/
inductive Statement where
  | describeTable (schema table : String)
  | listTables (schema : String) (limit : Option Nat)
  | findTable (pattern : String) (limit : Option Nat)
  | listExports (library program : String)
  | exportSymbols (library program : String)
  deriving DecidableEq, Repr

/-- The end of a statement about one service program. -/
def programPieces (library program : String) : List Piece :=
  [.code "WHERE PROGRAM_LIBRARY = " .behind (by decide), .value library,
    .code " AND PROGRAM_NAME = " .around (by decide), .value program,
    .code " ORDER BY SYMBOL_NAME" .before (by decide)]

/-- The end of a statement that limits the rows: their order and the limit. -/
def limitPieces (order : String) (whole : isCode order .around = true) (limit : Nat) : List Piece :=
  [.code order .around whole, .number limit, .code " ROWS ONLY" .before (by decide)]

/-- The tokens that limit the rows. -/
def limitTokens (limit : Nat) : List Token :=
  [.word "FETCH".toList, .word "FIRST".toList, .word (toString limit).toList, .word "ROWS".toList,
    .word "ONLY".toList]

/-- Pieces that end with a limit have it at the end of their tokens. -/
theorem limitTokens_suffix {order : String} {whole : isCode order .around = true}
    {earlier : List Token} (pieces : List Piece) (limit : Nat)
    (h : tokens? order.toList = some (earlier ++ [.word "FETCH".toList, .word "FIRST".toList])) :
    limitTokens limit <:+ (pieces ++ limitPieces order whole limit).flatMap Piece.tokens := by
  have hrows : tokens? " ROWS ONLY".toList = some [.word "ROWS".toList, .word "ONLY".toList] := by
    decide
  have hend : (limitPieces order whole limit).flatMap Piece.tokens =
      earlier ++ limitTokens limit := by
    simp only [limitPieces, List.flatMap_cons, List.flatMap_nil, Piece.tokens, h, hrows,
      Option.getD_some, List.append_assoc]
    rfl
  rw [List.flatMap_append, hend, ← List.append_assoc]
  exact List.suffix_append _ _

namespace Statement

/-- The text of a statement. -/
def sql : Statement → String
  | describeTable schema table => describeTableSql schema table
  | listTables schema limit => listTablesSql schema limit
  | findTable pattern limit => findTableSql pattern limit
  | listExports library program => listExportsSql library program
  | exportSymbols library program => exportSymbolsSql library program

/-- The values that a statement compares with. A pattern without `%` may stand anywhere in a
name. -/
def values : Statement → List String
  | describeTable schema table => [schema, table]
  | listTables schema _ => [schema]
  | findTable pattern _ => [if '%' ∈ pattern.toList then pattern else "%" ++ pattern ++ "%"]
  | listExports library program => [library, program]
  | exportSymbols library program => [library, program]

/-- The statement with each given text replaced. -/
def mapTexts (f : String → String) : Statement → Statement
  | describeTable schema table => describeTable (f schema) (f table)
  | listTables schema limit => listTables (f schema) limit
  | findTable pattern limit => findTable (f pattern) limit
  | listExports library program => listExports (f library) (f program)
  | exportSymbols library program => exportSymbols (f library) (f program)

/-- The greatest number of rows that a statement may ask for, if it is limited. -/
def greatestLimit : Statement → Option Nat
  | listTables _ _ => some 5000
  | findTable _ _ => some 1000
  | _ => none

/-- The pieces of a statement. -/
def pieces : Statement → List Piece
  | describeTable schema table =>
    [.code "SELECT COLUMN_NAME, ORDINAL_POSITION, DATA_TYPE, LENGTH, NUMERIC_SCALE " .behind
        (by decide +kernel),
      .code "FROM QSYS2.SYSCOLUMNS WHERE TABLE_SCHEMA = " .behind (by decide +kernel),
      .value schema, .code " AND TABLE_NAME = " .around (by decide +kernel),
      .value table, .code " ORDER BY ORDINAL_POSITION" .before (by decide +kernel)]
  | listTables schema limit =>
    [.code "SELECT TABLE_SCHEMA, TABLE_NAME FROM QSYS2.SYSTABLES WHERE TABLE_SCHEMA = " .behind
        (by decide +kernel),
      .value schema] ++
    limitPieces " ORDER BY TABLE_NAME FETCH FIRST " (by decide +kernel) (tableListLimit limit)
  | findTable pattern limit =>
    [.code "SELECT TABLE_SCHEMA, TABLE_NAME FROM QSYS2.SYSTABLES WHERE TABLE_NAME LIKE " .behind
        (by decide +kernel),
      .value (tablePattern pattern)] ++
    limitPieces " ORDER BY TABLE_SCHEMA, TABLE_NAME FETCH FIRST " (by decide +kernel)
      (tableSearchLimit limit)
  | listExports library program =>
    .code
      "SELECT PROGRAM_LIBRARY, PROGRAM_NAME, OBJECT_TYPE, TRIM(CHAR(SYMBOL_NAME)) AS SYMBOL_NAME, "
        .behind (by decide +kernel) ::
      .code "TRIM(CHAR(SYMBOL_USAGE)) AS SYMBOL_USAGE FROM QSYS2.PROGRAM_EXPORT_IMPORT_INFO "
        .behind (by decide +kernel) ::
      programPieces library program
  | exportSymbols library program =>
    .code "SELECT TRIM(CHAR(SYMBOL_NAME)) AS SYMBOL_NAME FROM QSYS2.PROGRAM_EXPORT_IMPORT_INFO "
        .behind (by decide +kernel) ::
      programPieces library program

/-- A statement is the text of its pieces. -/
theorem sql_eq_render (s : Statement) : s.sql = render s.pieces := by
  cases s <;> simp only [sql, pieces, programPieces, limitPieces, List.cons_append, List.nil_append,
    render, Piece.text, String.append_empty]
  case describeTable => unfold describeTableSql; simp only [String.append_assoc]
  case listTables => unfold listTablesSql; simp only [String.append_assoc]
  case findTable => unfold findTableSql; simp only [String.append_assoc]
  case listExports => unfold listExportsSql programCondition; simp only [String.append_assoc]
  case exportSymbols => unfold exportSymbolsSql programCondition; simp only [String.append_assoc]

theorem isSpaced_pieces (s : Statement) : isSpaced s.pieces = true := by
  cases s <;> rfl

/-- The tokens of a statement. -/
theorem tokens?_sql (s : Statement) :
    tokens? s.sql.toList = some (s.pieces.flatMap Piece.tokens) := by
  rw [sql_eq_render, tokens?_render _ s.isSpaced_pieces]

/-- The pieces are the same but for their values. -/
theorem map_shape_pieces_mapTexts (s : Statement) (f : String → String) :
    (s.mapTexts f).pieces.map Piece.shape = s.pieces.map Piece.shape := by
  cases s <;> rfl

/-- The values of the pieces are those that the statement compares with. -/
theorem filterMap_value?_pieces (s : Statement) : s.pieces.filterMap Piece.value? = s.values := by
  cases s
  case findTable pattern limit =>
    have hvalue : tablePattern pattern =
        if '%' ∈ pattern.toList then pattern else "%" ++ pattern ++ "%" := by simp [tablePattern]
    rw [values, ← hvalue]
    rfl
  all_goals rfl

theorem clampLimit_mem_bounds (limit : Option Nat) (default : Nat) {greatest : Nat}
    (h : 1 ≤ greatest) :
    1 ≤ clampLimit limit default greatest ∧ clampLimit limit default greatest ≤ greatest :=
  ⟨Nat.le_min.2 ⟨h, Nat.le_max_left _ _⟩, Nat.min_le_left _ _⟩

/-- A limited statement ends with its limit, which is in bounds. -/
theorem exists_limitTokens_suffix (s : Statement) :
    ∀ greatest ∈ s.greatestLimit, ∃ n, 1 ≤ n ∧ n ≤ greatest ∧
      limitTokens n <:+ s.pieces.flatMap Piece.tokens := by
  intro greatest hgreatest
  cases s <;>
    simp only [greatestLimit, Option.mem_def, Option.some.injEq, reduceCtorEq] at hgreatest
  case listTables schema limit =>
    subst hgreatest
    obtain ⟨hone, hle⟩ := clampLimit_mem_bounds limit 500 (by decide : 1 ≤ 5000)
    have horder : tokens? " ORDER BY TABLE_NAME FETCH FIRST ".toList =
        some ([.word "ORDER".toList, .word "BY".toList, .word "TABLE_NAME".toList] ++
          [.word "FETCH".toList, .word "FIRST".toList]) := by decide +kernel
    exact ⟨tableListLimit limit, hone, hle, limitTokens_suffix _ _ horder⟩
  case findTable pattern limit =>
    subst hgreatest
    obtain ⟨hone, hle⟩ := clampLimit_mem_bounds limit 100 (by decide : 1 ≤ 1000)
    have horder : tokens? " ORDER BY TABLE_SCHEMA, TABLE_NAME FETCH FIRST ".toList =
        some ([.word "ORDER".toList, .word "BY".toList, .word "TABLE_SCHEMA".toList, .sign ',',
            .word "TABLE_NAME".toList] ++
          [.word "FETCH".toList, .word "FIRST".toList]) := by decide +kernel
    exact ⟨tableSearchLimit limit, hone, hle, limitTokens_suffix _ _ horder⟩

end Statement

/-- **Values stay in their literals.** Whatever texts a statement is given, it is read as the same
tokens as with any other texts in their place, the values of the literals apart. The values are the
given texts, where a pattern without `%` has one on each side. A limited statement ends with a
limit that is in bounds. -/
theorem values_stay_in_literals (s : Statement) (f : String → String) :
    ∃ tokens tokens', tokens? s.sql.toList = some tokens ∧
      tokens? (s.mapTexts f).sql.toList = some tokens' ∧
      tokens.map Token.shape = tokens'.map Token.shape ∧
      tokens.filterMap Token.value? = s.values.map String.toList ∧
      ∀ greatest ∈ s.greatestLimit, ∃ n, 1 ≤ n ∧ n ≤ greatest ∧ limitTokens n <:+ tokens := by
  refine ⟨_, _, s.tokens?_sql, (s.mapTexts f).tokens?_sql, ?_, ?_, s.exists_limitTokens_suffix⟩
  · rw [map_shape_flatMap_tokens, map_shape_flatMap_tokens, s.map_shape_pieces_mapTexts]
  · rw [filterMap_value?_flatMap_tokens, s.filterMap_value?_pieces]

end ProcedureCatalog.Host
