/-
# The layout of a document

The tokens of a text. Indentation opens and closes blocks:

* an entry of a sequence, or a key, right of the current block opens a block at its column;
* a token left of the current block closes it;
* inside the brackets of a flow collection the indentation means nothing.

A key is recognised by the colon behind it. So the place where a key may have started is
remembered until the colon comes, or until the key ends: a key stays on one line and is shorter
than 1024 characters.
-/
import ProcedureCatalog.Yaml.TagText

namespace ProcedureCatalog.Yaml

/-- A token that is a key if a colon follows. A `needed` key stands where nothing but a key may
stand. -/
structure PossibleKey where
  needed : Bool
  /-- The number of tokens before it. -/
  before : Nat
  place : Position
  deriving DecidableEq, Repr

/-- A text that has been read up to a cursor. -/
structure Layout where
  cursor : Cursor
  /-- For each open block, innermost first, the column right of its first one. -/
  margins : List Nat
  /-- A key may start here. -/
  keyAllowed : Bool
  /-- The possible key of the innermost collection. -/
  key : Option PossibleKey
  /-- The possible keys of the collections around it, one for each open bracket. -/
  outerKeys : List (Option PossibleKey)
  tokens : Array Token

namespace Layout

/-- Before the first token. -/
def start (cursor : Cursor) : Layout := ⟨cursor, [], true, none, [], #[]⟩

/-- Inside a flow collection. -/
def inFlow (s : Layout) : Bool := !s.outerKeys.isEmpty

/-- The column right of the first one of the current block. -/
def margin (s : Layout) : Nat := s.margins.head?.getD 0

/-- The next character. -/
def head (s : Layout) : Option Char := s.cursor.rest.head?

/-- The layout with one more token. -/
def push (s : Layout) (token : Token) : Layout := { s with tokens := s.tokens.push token }

/-- The layout with tokens put before those from number `n` on. -/
def insert (s : Layout) (n : Nat) (tokens : List Token) : Layout :=
  { s with tokens := s.tokens.extract 0 n ++ tokens.toArray ++ s.tokens.extract n s.tokens.size }

/-- A token of one character. -/
def pushSign (s : Layout) (token : Token) : Layout :=
  { s.push token with cursor := s.cursor.skip 1 }

/-! ## Gaps -/

/-- Behind spaces, comments and line breaks; a break outside brackets allows a key. A tab is no
space where a key may start. -/
def gap (flow : Bool) : (keyAllowed inComment : Bool) → List Char → Position → Bool × Cursor
  | keyAllowed, _, [], place => (keyAllowed, ⟨[], place⟩)
  | keyAllowed, inComment, c :: rest, place =>
    if isBreak c then gap flow (keyAllowed || !flow) false rest (place.past c)
    else if inComment || c == '#' then gap flow keyAllowed true rest (place.past c)
    else if c == ' ' || c == '\t' && (flow || !keyAllowed) then
      gap flow keyAllowed false rest (place.past c)
    else (keyAllowed, ⟨c :: rest, place⟩)

/-- The layout at the next token. -/
def skipGap (s : Layout) : Layout :=
  let (keyAllowed, cursor) := gap s.inFlow s.keyAllowed false s.cursor.rest s.cursor.place
  { s with keyAllowed := keyAllowed, cursor := cursor }

/-! ## Keys -/

/-- The possible key, unless it cannot be one any more; `none` if it was needed. -/
def keepKey? (place : Position) (key : Option PossibleKey) : Option (Option PossibleKey) :=
  match key with
  | none => some none
  | some k =>
    if k.place.line < place.line || k.place.index + 1024 < place.index then
      if k.needed then none else some none
    else some (some k)

/-- The layout without the keys that have ended. -/
def dropEndedKeys (s : Layout) : Option Layout := do
  let key ← keepKey? s.cursor.place s.key
  let outerKeys ← s.outerKeys.mapM (keepKey? s.cursor.place)
  return { s with key := key, outerKeys := outerKeys }

/-- The layout without a possible key. -/
def dropKey (s : Layout) : Option Layout :=
  if s.key.any (·.needed) then none else some { s with key := none }

/-- The next token may be a key. -/
def noteKey (s : Layout) : Option Layout :=
  if s.keyAllowed then do
    let needed := !s.inFlow && s.margin == s.cursor.column + 1
    return { ← s.dropKey with key := some ⟨needed, s.tokens.size, s.cursor.place⟩ }
  else some s

/-- The layout with `keyAllowed` set. -/
def allowKey (s : Layout) (allowed : Bool) : Layout := { s with keyAllowed := allowed }

/-! ## Blocks -/

/-- The layout with a block opened at a column, before the token of number `n`, unless the current
block starts there. -/
def openBlock (s : Layout) (column n : Nat) (token : Token) : Layout :=
  if !s.inFlow && s.margin ≤ column then
    { s.insert n [token] with margins := (column + 1) :: s.margins }
  else s

/-- The layout with the blocks closed whose margin is above `margin`. -/
def closeBlocks (s : Layout) (margin : Nat) : Layout :=
  if s.inFlow then s
  else
    let closed := s.margins.takeWhile (margin < ·)
    { s with
      tokens := s.tokens ++ Array.replicate closed.length .blockEnd
      margins := s.margins.drop closed.length }

/-! ## Tokens -/

/-- The end of the text. -/
def finish (s : Layout) : Option (Array Token) := do
  let s ← (s.closeBlocks 0).dropKey
  return (s.push .streamEnd).tokens

/-- A directive. -/
def takeDirective (s : Layout) : Option Layout := do
  let s ← (s.closeBlocks 0).dropKey
  let (token, after) ← directive? s.cursor
  return { (s.push token).allowKey false with cursor := after }

/-- A mark of a document. -/
def takeDocumentMark (s : Layout) (token : Token) : Option Layout := do
  let s ← (s.closeBlocks 0).dropKey
  return { (s.push token).allowKey false with cursor := s.cursor.skip 3 }

/-- An opening bracket. -/
def takeOpening (s : Layout) (token : Token) : Option Layout := do
  let s ← s.noteKey
  let s := { s with outerKeys := s.key :: s.outerKeys, key := none }
  return (s.allowKey true).pushSign token

/-- A closing bracket. -/
def takeClosing (s : Layout) (token : Token) : Option Layout := do
  let s ← s.dropKey
  let s := match s.outerKeys with
    | [] => s
    | key :: outerKeys => { s with key := key, outerKeys := outerKeys }
  return (s.allowKey false).pushSign token

/-- A comma. -/
def takeComma (s : Layout) : Option Layout := do
  return ((← s.dropKey).allowKey true).pushSign .flowEntry

/-- A dash before an entry. -/
def takeDash (s : Layout) : Option Layout := do
  if !s.inFlow && !s.keyAllowed then failure
  let s ← (s.openBlock s.cursor.column s.tokens.size .blockSequenceStart).dropKey
  return (s.allowKey true).pushSign .blockEntry

/-- A question mark before a key. -/
def takeQuestion (s : Layout) : Option Layout := do
  if !s.inFlow && !s.keyAllowed then failure
  let s ← (s.openBlock s.cursor.column s.tokens.size .blockMappingStart).dropKey
  return (s.allowKey !s.inFlow).pushSign .key

/-- A colon before a value. If there is a possible key, it is one. -/
def takeColon (s : Layout) : Option Layout :=
  match s.key with
  | some key =>
    let s := (s.insert key.before [.key]).openBlock key.place.column key.before .blockMappingStart
    some (({ s with key := none }.allowKey false).pushSign .value)
  | none =>
    if !s.inFlow && !s.keyAllowed then none
    else
      let s := s.openBlock s.cursor.column s.tokens.size .blockMappingStart
      some ((s.allowKey !s.inFlow).pushSign .value)

/-- A token that may be a key, with the cursor behind it. -/
def takeNamed (s : Layout) (read : Cursor → TokenRead) : Option Layout := do
  let s ← s.noteKey
  let (token, after) ← read s.cursor
  return { (s.push token).allowKey false with cursor := after }

/-- A block scalar. -/
def takeBlockScalar (s : Layout) (style : ScalarStyle) : Option Layout := do
  let s ← s.dropKey
  let (text, after) ← block? s.margin s.cursor
  return { (s.push (.scalar style text)).allowKey true with cursor := after }

/-- A plain scalar. Behind a line break a key may start. -/
def takePlain (s : Layout) : Option Layout := do
  let s ← s.noteKey
  let scalar ← plain? s.inFlow s.margin s.cursor
  return { (s.push (.scalar .plain scalar.text)).allowKey scalar.newLine with
    cursor := scalar.after }

/-- The character `c` with `rest` behind it starts a plain scalar. -/
def startsPlain (flow : Bool) (c : Char) (rest : List Char) : Bool :=
  if c == '-' then !rest.head?.any isBlank
  else if c == '?' || c == ':' then !flow && !atGap rest
  else !startIndicators.contains c && !isGap c

/-- The token that starts with `c`, `rest` being behind it. -/
def take (s : Layout) (c : Char) (rest : List Char) : Option Layout :=
  let sign := s.inFlow || atGap rest
  if s.cursor.column == 0 && c == '%' then s.takeDirective
  else if s.cursor.atDocumentMark then
    s.takeDocumentMark (if c == '-' then .documentStart else .documentEnd)
  else if c == '[' then s.takeOpening .flowSequenceStart
  else if c == '\x7b' then s.takeOpening .flowMappingStart
  else if c == ']' then s.takeClosing .flowSequenceEnd
  else if c == '\x7d' then s.takeClosing .flowMappingEnd
  else if c == ',' then s.takeComma
  else if c == '-' && atGap rest then s.takeDash
  else if c == '?' && sign then s.takeQuestion
  else if c == ':' && sign then s.takeColon
  else if c == '*' then s.takeNamed fun cursor =>
    (anchorName? cursor).map fun (name, after) => (.alias name, after)
  else if c == '&' then s.takeNamed fun cursor =>
    (anchorName? cursor).map fun (name, after) => (.anchor name, after)
  else if c == '!' then s.takeNamed (tag? s.inFlow)
  else if c == '|' && !s.inFlow then s.takeBlockScalar .literal
  else if c == '>' && !s.inFlow then s.takeBlockScalar .folded
  else if c == '\x27' then s.takeNamed fun cursor =>
    (quoted? c cursor).map fun (text, after) => (.scalar .singleQuoted text, after)
  else if c == '"' then s.takeNamed fun cursor =>
    (quoted? c cursor).map fun (text, after) => (.scalar .doubleQuoted text, after)
  else if startsPlain s.inFlow c rest then s.takePlain
  else none

/-- The tokens up to the end of the text. -/
def run : (fuel : Nat) → Layout → Option (Array Token)
  | 0, _ => none
  | fuel + 1, s => do
    let s ← s.skipGap.dropEndedKeys
    match s.cursor.rest with
    | [] => s.finish
    | c :: rest => run fuel (← (s.closeBlocks (s.cursor.column + 1)).take c rest)

end Layout

/-- The place where a document starts: behind one byte order mark, and behind a second one, which
counts as a column. -/
def startCursor (text : List Char) : Cursor :=
  let text := if text.head? == some byteOrderMark then text.drop 1 else text
  let cursor : Cursor := ⟨text, ⟨0, 0, 0⟩⟩
  if text.head? == some byteOrderMark then cursor.skip 1 else cursor

/-- The tokens of a text. -/
def tokens? (text : List Char) : Option (List Token) :=
  if text.all isAllowed then
    (Layout.run (text.length + 1) (Layout.start (startCursor (unifyBreaks text)))).map
      Array.toList
  else none

end ProcedureCatalog.Yaml
