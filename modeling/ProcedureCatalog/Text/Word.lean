/-
# Words and word boundaries

A word character is Alphabetic, a Mark, a Decimal_Number, a Connector_Punctuation or a
Join_Control. A boundary lies between a word character and a character that is none, where the
ends of a text count as none.
-/
import ProcedureCatalog.Text.WordTable

namespace ProcedureCatalog.Text

/-- The number lies in one of the ranges. -/
def inRanges (ranges : List (Nat × Nat)) (n : Nat) : Bool :=
  ranges.any fun r => r.1 ≤ n && n ≤ r.2

/-- A letter, mark, digit, connector or joiner. -/
def isWord (c : Char) : Bool :=
  if c.toNat < 0x80 then c.isAlphanum || c == '_' else inRanges wordRanges c.toNat

/-- One of two neighbours is a word character and the other is not; `none` is an end of the text. -/
def isBoundary (before after : Option Char) : Bool :=
  before.any isWord != after.any isWord

/-- A character of an identifier: a word character, `$`, `#` or `@`. -/
def isIdentifier (c : Char) : Bool :=
  isWord c || c == '$' || c == '#' || c == '@'

end ProcedureCatalog.Text
