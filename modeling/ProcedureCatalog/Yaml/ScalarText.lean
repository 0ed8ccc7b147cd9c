/-
# The text of scalars

Plain, quoted and block scalars, read from their first character.

* A gap of blanks without a line break is kept in plain and quoted scalars.
* One line break becomes a space; of more, all but the first are kept.
* A block scalar keeps its line breaks, or folds those between lines that do not start with a
  blank; the breaks at its end are dropped, clipped to one or kept.

Reading fails by `none`.
-/
import ProcedureCatalog.Yaml.Cursor
import ProcedureCatalog.Text.Ascii

namespace ProcedureCatalog.Yaml

/-- What the gap between two words stands for. -/
def foldGap (gap : List Char) : List Char :=
  match gap.filter isBreak with
  | [] => gap
  | ['\n'] => [' ']
  | '\n' :: more => more
  | breaks => breaks

/-! ## Plain scalars -/

/-- A word of a plain scalar: up to a gap, a colon before a gap or, in a flow collection, one of
its indicators. There a colon must not touch an indicator. -/
def plainWord? (flow : Bool) : List Char → Option (List Char)
  | [] => some []
  | c :: rest =>
    if isGap c then some []
    else if flow && c == ':' && (rest.head?.any fun d => ('?' :: flowIndicators).contains d) then
      none
    else if c == ':' && atGap rest || flow && flowIndicators.contains c then some []
    else (plainWord? flow rest).map (c :: ·)

/-- After a line break, a tab stands left of the column `margin`. -/
def hasTabInMargin (margin : Nat) : (afterBreak : Bool) → (column : Nat) → List Char → Bool
  | _, _, [] => false
  | afterBreak, column, c :: rest =>
    if isBreak c then hasTabInMargin margin true 0 rest
    else afterBreak && c == '\t' && column < margin ||
      hasTabInMargin margin afterBreak (column + 1) rest

/-- A scalar that has been read. `newLine` says whether a line break follows its last word. -/
structure ScalarRead where
  text : List Char
  newLine : Bool
  after : Cursor

/-- The words of a plain scalar behind a gap. In a block, a word left of `margin` ends it. -/
def plainFrom? (flow : Bool) (margin : Nat) : (fuel : Nat) → (gap : List Char) → Cursor →
    Option ScalarRead
  | 0, _, _ => none
  | fuel + 1, gap, cursor => do
    let stop : ScalarRead := ⟨[], gap.any isBreak, cursor⟩
    if cursor.atDocumentMark || cursor.rest.head? == some '#' then return stop
    let word ← plainWord? flow cursor.rest
    if word.isEmpty then return stop
    let behind := cursor.skip word.length
    let (next, following) := behind.span isGap
    if hasTabInMargin margin false behind.column next then failure
    let text := foldGap gap ++ word
    if next.isEmpty || !flow && following.column < margin then
      return ⟨text, next.any isBreak, following⟩
    let more ← plainFrom? flow margin fuel next following
    return { more with text := text ++ more.text }

/-- A plain scalar. -/
def plain? (flow : Bool) (margin : Nat) (cursor : Cursor) : Option ScalarRead :=
  plainFrom? flow margin (cursor.rest.length + 1) [] cursor

/-! ## Quoted scalars -/

/-- The characters of the escapes of one letter. -/
def namedEscapes : List (Char × Char) :=
  [('0', '\x00'), ('a', '\x07'), ('b', '\x08'), ('t', '\t'), ('\t', '\t'), ('n', '\n'),
    ('v', '\x0b'), ('f', '\x0c'), ('r', '\r'), ('e', '\x1b'), (' ', ' '), ('"', '"'), ('/', '/'),
    ('\\', '\\'), ('N', nextLine), ('_', '\u00A0'), ('L', '\u2028'), ('P', '\u2029')]

/-- The number of hexadecimal digits of the escapes by code point. -/
def codeEscapes : List (Char × Nat) := [('x', 2), ('u', 4), ('U', 8)]

/-- The value of a hexadecimal digit. -/
def hexDigit? (c : Char) : Option Nat :=
  if c.isDigit then some (c.toNat - '0'.toNat)
  else if 'a' ≤ c && c ≤ 'f' then some (c.toNat - 'a'.toNat + 10)
  else if 'A' ≤ c && c ≤ 'F' then some (c.toNat - 'A'.toNat + 10)
  else none

/-- The value of hexadecimal digits. -/
def hexNumber? (digits : List Char) : Option Nat :=
  digits.foldlM (fun n c => (hexDigit? c).map (n * 16 + ·)) 0

/-- The character of a code point. -/
def charOf? (code : Nat) : Option Char :=
  if h : code.isValidChar then some (Char.ofNatAux code h) else none

/-- The character that the escape behind a backslash stands for, and the length of the escape. -/
def escape? : List Char → Option (Char × Nat)
  | [] => none
  | c :: rest =>
    match codeEscapes.lookup c with
    | some count => do
      let digits := rest.take count
      if digits.length < count then failure
      let char ← charOf? (← hexNumber? digits)
      return (char, count + 1)
    | none => (namedEscapes.lookup c).map (·, 1)

/-- A quoted scalar behind its opening quote. -/
def quotedFrom? (quote : Char) : (fuel : Nat) → Cursor → Option (List Char × Cursor)
  | 0, _ => none
  | fuel + 1, cursor =>
    let prepend (text : List Char) (next : Cursor) :=
      (quotedFrom? quote fuel next).map fun (more, after) => (text ++ more, after)
    if cursor.atDocumentMark then none
    else match cursor.rest with
      | [] => none
      | c :: rest =>
        if isGap c then
          let (gap, next) := cursor.span isGap
          prepend (foldGap gap) next
        else if c == quote then
          if quote == '\x27' && rest.head? == some quote then prepend [quote] (cursor.skip 2)
          else some ([], cursor.skip 1)
        else if quote == '"' && c == '\\' then
          if rest.head?.any isBreak then
            let (gap, next) := (cursor.skip 2).span isGap
            prepend (gap.filter isBreak) next
          else
            (escape? rest).bind fun (char, length) => prepend [char] (cursor.skip (length + 1))
        else prepend [c] (cursor.skip 1)

/-- A quoted scalar. -/
def quoted? (quote : Char) (cursor : Cursor) : Option (List Char × Cursor) :=
  quotedFrom? quote (cursor.rest.length + 1) (cursor.skip 1)

/-! ## Block scalars -/

/-- What becomes of the line breaks at the end of a block scalar. -/
inductive Chomping where
  | strip
  | clip
  | keep
  deriving DecidableEq, Repr

/-- How a block scalar ends, when its first character says so. -/
def chomping? : List Char → Option Chomping
  | '-' :: _ => some .strip
  | '+' :: _ => some .keep
  | _ => none

/-- The indentation that a digit gives. Zero gives none and is an error. -/
def increment? : List Char → Option (Option Nat)
  | c :: _ => if c == '0' then none else some (if c.isDigit then hexDigit? c else none)
  | [] => some none

/-- How a block scalar ends, its indentation if given, and the length of these indicators, which
come in either order. -/
def blockHeader? (cs : List Char) : Option (Chomping × Option Nat × Nat) :=
  match chomping? cs with
  | some chomping => do
    let increment ← increment? (cs.drop 1)
    return (chomping, increment, 1 + increment.toList.length)
  | none => do
    match ← increment? cs with
    | none => return (.clip, none, 0)
    | some n =>
      match chomping? (cs.drop 1) with
      | some chomping => return (chomping, some n, 2)
      | none => return (.clip, some n, 1)

/-- The empty lines before a line of a block scalar: their breaks, the widest indentation among
them and that line, and the cursor in that line. `indent` is zero while it is not known. -/
def emptyLines? (indent : Nat) : (fuel : Nat) → (widest : Nat) → Cursor →
    Option (List Char × Nat × Cursor)
  | 0, _, _ => none
  | fuel + 1, widest, cursor =>
    let spaces := (cursor.rest.takeWhile (· == ' ')).length
    let next := cursor.skip (if indent == 0 then spaces else min spaces (indent - cursor.column))
    let widest := max widest next.column
    match next.rest with
    | [] => some ([], widest, next)
    | c :: _ =>
      if c == '\t' && (indent == 0 || next.column < indent) then none
      else if isBreak c then
        (emptyLines? indent fuel widest (next.skip 1)).map fun (breaks, rest) => (c :: breaks, rest)
      else some ([], widest, next)

/-- What stands between two lines of a block scalar: the break of the first, when it is to be
folded as a space or as nothing, and the empty lines. -/
def lineJoint (folding : Bool) (lineBreak empty : List Char) (afterBlank beforeBlank : Bool) :
    List Char :=
  if folding && lineBreak == ['\n'] && !afterBlank && !beforeBlank then
    if empty.isEmpty then [' '] else empty
  else lineBreak ++ empty

/-- The end of a block scalar: the break of its last line and the empty lines behind it. -/
def chomped (chomping : Chomping) (lineBreak empty : List Char) : List Char :=
  match chomping with
  | .strip => []
  | .clip => lineBreak
  | .keep => lineBreak ++ empty

/-- The lines of a block scalar behind a line that ended in `lineBreak` and the lines `empty`. -/
def blockLines? (folding : Bool) (chomping : Chomping) (indent : Nat) : (fuel : Nat) →
    (lineBreak empty : List Char) → (afterBlank : Bool) → Cursor → Option (List Char × Cursor)
  | 0, _, _, _, _ => none
  | fuel + 1, lineBreak, empty, afterBlank, cursor =>
    match cursor.rest with
    | [] => some (chomped chomping lineBreak empty, cursor)
    | c :: _ =>
      if cursor.column != indent then some (chomped chomping lineBreak empty, cursor)
      else do
        let (line, behind) := cursor.span (!isBreak ·)
        let (nextEmpty, _, next) ←
          emptyLines? indent (behind.rest.length + 1) 0 (behind.skip 1)
        let (more, after) ←
          blockLines? folding chomping indent fuel (behind.rest.take 1) nextEmpty (isBlank c) next
        return (lineJoint folding lineBreak empty afterBlank (isBlank c) ++ line ++ more, after)

/-- A block scalar, at its indicator. `margin` is the column right of the block around it. -/
def block? (margin : Nat) (cursor : Cursor) : Option (List Char × Cursor) := do
  let (chomping, increment, length) ← blockHeader? (cursor.rest.drop 1)
  let header := (cursor.skip (length + 1)).skipWhile isBlank
  let header := if header.rest.head? == some '#' then header.skipWhile (!isBreak ·) else header
  if header.rest.head?.any (!isBreak ·) then failure
  let first := header.skip 1
  let known := increment.elim 0 (margin - 1 + ·)
  let (empty, widest, next) ← emptyLines? known (first.rest.length + 1) 0 first
  let indent := if known == 0 then max (max widest margin) 1 else known
  blockLines? (cursor.rest.head? == some '>') chomping indent (next.rest.length + 1) [] empty
    false next

end ProcedureCatalog.Yaml
