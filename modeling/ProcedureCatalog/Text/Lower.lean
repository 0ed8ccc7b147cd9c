/-
# Lower-casing

Each character becomes its small form. Two rules go beyond single characters: capital I with a dot
above becomes `i` and a combining dot, and a capital sigma at the end of a word becomes the final
small sigma.
-/
import ProcedureCatalog.Text.Fold
import ProcedureCatalog.Text.Word

namespace ProcedureCatalog.Text

/-- The character has the property Cased. -/
def isCased (c : Char) : Bool :=
  if c.toNat < 0x80 then c.isAlpha else inRanges casedRanges c.toNat

/-- The character has the property Case_Ignorable. -/
def isCaseIgnorable (c : Char) : Bool :=
  if c.toNat < 0x80 then [0x27, 0x2E, 0x3A, 0x5E, 0x60].contains c.toNat
  else inRanges caseIgnorableRanges c.toNat

/-- The first character that is not case-ignorable is cased. -/
def startsCased (cs : List Char) : Bool :=
  ((cs.dropWhile isCaseIgnorable).head?).any isCased

/-- The small form of one character, away from sigma. -/
def lowerChar (c : Char) : List Char :=
  if c.toNat < 0x80 then [c.toLower]
  else if c.toNat == 0x130 then ['i', Char.ofNat 0x307]
  else [Char.ofNat (shifted lowerShifts c.toNat)]

/-- Lower-casing of `cs`, which follows the characters `before`, the nearest first. -/
def lowerAfter (before : List Char) : List Char → List Char
  | [] => []
  | c :: cs =>
    if c.toNat == 0x3A3 then
      let final := startsCased before && !startsCased cs
      Char.ofNat (if final then 0x3C2 else 0x3C3) :: lowerAfter (c :: before) cs
    else lowerChar c ++ lowerAfter (c :: before) cs

/-- The text in small letters. -/
def lower (cs : List Char) : List Char := lowerAfter [] cs

end ProcedureCatalog.Text
