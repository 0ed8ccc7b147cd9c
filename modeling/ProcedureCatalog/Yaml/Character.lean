/-
# The characters of YAML

The classes that the reader and the writer of YAML documents share, and the beginning of a
document: line breaks of one form, no forbidden characters.
-/

namespace ProcedureCatalog.Yaml

/-- The next-line character. -/
def nextLine : Char := '\u0085'

/-- The byte order mark. -/
def byteOrderMark : Char := '\uFEFF'

/-- A character that ends a line, once `unifyBreaks` has been applied. -/
def isBreak (c : Char) : Bool := c == '\n' || c == '\u2028' || c == '\u2029'

/-- A space or a tab. -/
def isBlank (c : Char) : Bool := c == ' ' || c == '\t'

/-- A character of the space between words. -/
def isGap (c : Char) : Bool := isBlank c || isBreak c

/-- Nothing of a word follows. -/
def atGap : List Char → Bool
  | [] => true
  | c :: _ => isGap c

/-- A character of an anchor and of the handle of a tag. -/
def isNameChar (c : Char) : Bool := c.isAlphanum || c == '_' || c == '-'

/-- A character that a document may hold. -/
def isAllowed (c : Char) : Bool :=
  c == '\t' || c == '\n' || c == '\r' || ' ' ≤ c && c ≤ '~' || c == nextLine ||
    '\u00A0' ≤ c && c ≤ '\uFFFD' || 0x10000 ≤ c.toNat

/-- Every carriage return, with or without a line feed, and every next-line character becomes a
line feed. -/
def unifyBreaks : List Char → List Char
  | [] => []
  | '\r' :: '\n' :: rest => '\n' :: unifyBreaks rest
  | c :: rest => (if c == '\r' || c == nextLine then '\n' else c) :: unifyBreaks rest

/-! ## Indicators -/

/-- The characters that mean something in a flow collection. -/
def flowIndicators : List Char := [',', '[', ']', '\x7b', '\x7d']

/-- The characters that start no plain scalar. -/
def startIndicators : List Char :=
  flowIndicators ++ ['#', '&', '*', '!', '|', '>', '\x27', '"', '%', '@', '\x60']

/-- The marks of the start and the end of a document. -/
def documentMarks : List (List Char) := [['-', '-', '-'], ['.', '.', '.']]

end ProcedureCatalog.Yaml
