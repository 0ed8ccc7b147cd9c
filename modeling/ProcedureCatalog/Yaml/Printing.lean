/-
# Writing a document

Mappings in block form, two spaces for each level. A text is written plainly where it would be
read back as the same text; else in single quotes; in double quotes where it holds characters
that only escapes can give; and as a literal block where it holds line feeds.
-/
import ProcedureCatalog.Text.Blank
import ProcedureCatalog.Yaml.Node
import ProcedureCatalog.Yaml.Number

namespace ProcedureCatalog.Yaml

/-! ## The style of a text -/

/-- A character that needs no escape. -/
def isPrintable (c : Char) : Bool :=
  c == '\n' || ' ' ≤ c && c ≤ '~' ||
    '\u00A0' ≤ c && c ≤ '\uFFFD' && c != byteOrderMark

/-- Two characters in a row of which the first satisfies `p` and the second `q`. -/
def hasPair (p q : Char → Bool) (cs : List Char) : Bool :=
  (cs.zip (cs.drop 1)).any fun (c, d) => p c && q d

/-- A space. -/
def isSpace (c : Char) : Bool := c == ' '

/-- A character that ends a word for the writer. -/
def isWordEnd (c : Char) : Bool := isGap c || c == '\r' || c == nextLine

/-- The text has an indicator where it would mean something else in a block. -/
def hasIndicator (cs : List Char) : Bool :=
  let alone := (cs.drop 1).head?.all isWordEnd
  documentMarks.contains (cs.take 3) ||
    cs.head?.any startIndicators.contains ||
    cs.head?.any ['-', '?', ':'].contains && alone ||
    hasPair (· == ':') isWordEnd cs || cs.getLast? == some ':' ||
    hasPair isWordEnd (· == '#') cs

/-- A break with a space behind it. -/
def hasBreakSpace (cs : List Char) : Bool := hasPair isBreak isSpace cs

/-- The text cannot be written without escapes. -/
def needsEscapes (cs : List Char) : Bool :=
  !cs.all isPrintable || hasPair isSpace isBreak cs

/-- The text can be written plainly in a block. -/
def isPlain (cs : List Char) : Bool :=
  !cs.head?.any isSpace && !cs.getLast?.any isSpace && !cs.any isBreak && !needsEscapes cs &&
    !hasIndicator cs

/-- The style to write a text in. -/
def styleOf (text : String) : ScalarStyle :=
  let cs := text.toList
  if cs.contains '\n' then
    if cs.getLast?.any isSpace || needsEscapes cs then .doubleQuoted else .literal
  else if readsAsText text && isPlain cs then .plain
  else if hasBreakSpace cs || needsEscapes cs then .doubleQuoted
  else .singleQuoted

/-- The node of a text. -/
def Node.ofText (text : String) : Node := .scalar (styleOf text) none text

/-- The node of a number. -/
def Node.ofNumber (n : Nat) : Node := .scalar .plain none (toString n)

/-! ## Scalars -/

/-- Spaces. -/
def spaces (n : Nat) : List Char := List.replicate n ' '

/-- A text in single quotes: a quote is written twice, and the text behind a break is indented. -/
def singleQuotedFrom (indent : Nat) : (afterBreak : Bool) → List Char → List Char
  | afterBreak, [] => (if afterBreak then spaces indent else []) ++ ['\x27']
  | afterBreak, c :: cs =>
    if isBreak c then c :: singleQuotedFrom indent true cs
    else (if afterBreak then spaces indent else []) ++
      (if c == '\x27' then [c, c] else [c]) ++ singleQuotedFrom indent false cs

/-- The hexadecimal digits of a number, at least `width`. -/
def upperHex (width n : Nat) : List Char :=
  let digits := (Nat.toDigits 16 n).map Char.toUpper
  List.replicate (width - digits.length) '0' ++ digits

/-- The letters of the escapes that are written by name. -/
def writtenEscapes : List (Char × Char) :=
  [('\x00', '0'), ('\x07', 'a'), ('\x08', 'b'), ('\t', 't'), ('\n', 'n'), ('\x0b', 'v'),
    ('\x0c', 'f'), ('\r', 'r'), ('\x1b', 'e'), ('"', '"'), ('\\', '\\'), (nextLine, 'N'),
    ('\u00A0', '_'), ('\u2028', 'L'), ('\u2029', 'P')]

/-- A character in double quotes. -/
def doubleQuotedChar (c : Char) : List Char :=
  if isPrintable c && !isBreak c && c != '"' && c != '\\' then [c]
  else match writtenEscapes.lookup c with
    | some letter => ['\\', letter]
    | none =>
      if c.toNat ≤ 0xFF then '\\' :: 'x' :: upperHex 2 c.toNat
      else if c.toNat ≤ 0xFFFF then '\\' :: 'u' :: upperHex 4 c.toNat
      else '\\' :: 'U' :: upperHex 8 c.toNat

/-- The lines of a block scalar: each that is not empty is indented. -/
def indentLines (indent : Nat) : (afterBreak : Bool) → List Char → List Char
  | _, [] => []
  | afterBreak, c :: cs =>
    if isBreak c then c :: indentLines indent true cs
    else (if afterBreak then spaces indent else []) ++ c :: indentLines indent false cs

/-- The indicators of a literal: its indentation if its start does not show it, and what becomes
of the breaks at its end. -/
def literalHeader (cs : List Char) : List Char :=
  let hint := if cs.head?.any fun c => c == ' ' || isBreak c then ['2'] else []
  let chomping :=
    match cs.reverse with
    | [] => ['-']
    | last :: before =>
      if !isBreak last then ['-']
      else if before.head?.all isBreak then ['+']
      else []
  '|' :: hint ++ chomping

/-- A literal, whose lines stand right of `indent`. A break is added to a last line without. -/
def literal (indent : Nat) (cs : List Char) : List Char :=
  literalHeader cs ++ ['\n'] ++ indentLines indent true cs ++
    if cs.getLast?.any isBreak then [] else ['\n']

/-- A scalar with the end of its line. -/
def renderScalar (indent : Nat) (style : ScalarStyle) (text : String) : List Char :=
  let cs := text.toList
  match style with
  | .plain => cs ++ ['\n']
  | .singleQuoted => '\x27' :: singleQuotedFrom indent false cs ++ ['\n']
  | .doubleQuoted => '"' :: cs.flatMap doubleQuotedChar ++ ['"', '\n']
  | .literal => literal indent cs
  | .folded => literal indent cs

/-! ## Mappings -/

/-- The fields of a section: names with scalars. -/
abbrev Fields := List (String × Node)

/-- Fields, one on a line. Only scalars can be fields. -/
def renderFields (fields : Fields) : List Char :=
  fields.flatMap fun (name, node) =>
    match node with
    | .scalar style _ text => spaces 2 ++ name.toList ++ [':', ' '] ++ renderScalar 4 style text
    | _ => []

/-- Sections, each with its fields under it. -/
def render (sections : List (String × Fields)) : String :=
  String.ofList <| sections.flatMap fun (name, fields) =>
    name.toList ++ [':', '\n'] ++ renderFields fields

/-- A mapping of names, which are written plainly. -/
def Node.ofFields (fields : Fields) : Node :=
  .mapping (fields.map fun (name, node) => (.scalar .plain none name, node))

/-- The document of sections. -/
def Document.ofSections (sections : List (String × Fields)) : Document :=
  ⟨.ofFields (sections.map fun (name, fields) => (name, .ofFields fields)), []⟩

end ProcedureCatalog.Yaml
