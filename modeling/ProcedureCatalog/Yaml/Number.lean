/-
# Plain scalars that are no text

What a plain scalar is read as when nothing says what it should be: nothing, a truth value, an
integer or a floating-point number. A text that looks like one of these must be quoted.
-/
import ProcedureCatalog.Yaml.ScalarText

namespace ProcedureCatalog.Yaml

/-- The spellings of no value. -/
def nullWords : List String := ["null", "Null", "NULL", "~"]

/-- The spellings of truth values. -/
def truthWords : List String := ["true", "True", "TRUE", "false", "False", "FALSE"]

/-! ## Integers -/

/-- The value of digits in a base up to sixteen; there must be one digit. -/
def digitsIn? (base : Nat) (digits : List Char) : Option Nat :=
  if digits.isEmpty then none
  else digits.foldlM (fun n c => do
    let d ← hexDigit? c
    if d < base then some (n * base + d) else none) 0

/-- The marks of the bases other than ten. -/
def bases : List (List Char × Nat) := [(['0', 'x'], 16), (['0', 'o'], 8), (['0', 'b'], 2)]

/-- The number that follows a sign: decimal, or in the base of its mark. -/
def unsignedDigits? (cs : List Char) : Option Nat :=
  match bases.lookup (cs.take 2) with
  | some base => digitsIn? base (cs.drop 2)
  | none => digitsIn? 10 cs

/-- Without the sign, if there is one. -/
def dropSign (signs : List Char) (cs : List Char) : List Char :=
  if cs.head?.any signs.contains then cs.drop 1 else cs

/-- Digits with a zero in front of them: a text, not a number. -/
def hasLeadingZero (cs : List Char) : Bool :=
  let digits := dropSign ['+', '-'] cs
  1 < digits.length && digits.head? == some '0' && digits.all Char.isDigit

/-- The number that a plain scalar stands for where a number without a sign is wanted. -/
def unsigned? (text : String) : Option Nat :=
  let cs := text.toList
  if hasLeadingZero cs then none else unsignedDigits? (dropSign ['+'] cs)

/-- The first number too large for an integer. -/
def integerLimit : Nat := 1 <<< 128

/-- The first number whose negative is too small for an integer. -/
def negativeLimit : Nat := (1 <<< 127) + 1

/-- The text is read as an integer. -/
def isInteger (text : String) : Bool :=
  (unsigned? text).any (· < integerLimit) ||
    match text.toList with
    | '-' :: cs => !hasLeadingZero cs && (unsignedDigits? cs).any (· < negativeLimit)
    | _ => false

/-! ## Floating-point numbers -/

/-- A decimal number, as its digits without a point and the power of ten to multiply them by. -/
structure Decimal where
  digits : Nat
  exponent : Int
  deriving DecidableEq, Repr

/-- The exponent behind a number. -/
def exponent? : List Char → Option Int
  | [] => some 0
  | c :: cs =>
    if c == 'e' || c == 'E' then
      (digitsIn? 10 (dropSign ['+', '-'] cs)).map fun (n : Nat) =>
        if cs.head? == some '-' then -(n : Int) else n
    else none

/-- The number with an optional point and exponent and without a sign. -/
def decimal? (cs : List Char) : Option Decimal := do
  let whole := cs.takeWhile Char.isDigit
  let rest := cs.drop whole.length
  let fraction := if rest.head? == some '.' then (rest.drop 1).takeWhile Char.isDigit else []
  let rest := if rest.head? == some '.' then rest.drop (1 + fraction.length) else rest
  let digits ← digitsIn? 10 (whole ++ fraction)
  let exponent ← exponent? rest
  return ⟨digits, exponent - fraction.length⟩

/-- The least number that is rounded to infinity, in 64 bits. -/
def overflow : Nat := (1 <<< 1024) - (1 <<< 970)

/-- The number is not rounded to infinity. -/
def Decimal.isFinite (d : Decimal) : Bool :=
  let size := (Nat.toDigits 10 d.digits).length
  if d.digits == 0 || d.exponent + size < 309 then true
  else if 310 < d.exponent + size then false
  else if 0 ≤ d.exponent then d.digits * Nat.pow 10 d.exponent.toNat < overflow
  else d.digits < overflow * Nat.pow 10 d.exponent.natAbs

/-- The spellings of infinity and of what is no number. -/
def specialNumbers : List String :=
  [".inf", ".Inf", ".INF", "+.inf", "+.Inf", "+.INF", "-.inf", "-.Inf", "-.INF", ".nan", ".NaN",
    ".NAN"]

/-- The text is read as a floating-point number. -/
def isFloat (text : String) : Bool :=
  specialNumbers.contains text ||
    !hasLeadingZero text.toList &&
      (decimal? (dropSign ['+', '-'] text.toList)).any Decimal.isFinite

/-! ## Texts -/

/-- The text, written plainly, is read as a text. -/
def readsAsText (text : String) : Bool :=
  !(text.isEmpty || nullWords.contains text || truthWords.contains text || isInteger text ||
    hasLeadingZero text.toList || isFloat text)

end ProcedureCatalog.Yaml
