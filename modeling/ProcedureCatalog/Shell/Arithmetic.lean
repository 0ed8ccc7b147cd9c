/-
# Arithmetic of the shell

Expressions over whole numbers: comparisons and conditions are one or zero, division goes toward
zero, and a name stands for its value.
-/

namespace ProcedureCatalog.Shell

/-! ## Numbers -/

/-- The number of hexadecimal digits. -/
def hexadecimal? (digits : List Char) : Option Nat :=
  if digits.isEmpty then none
  else digits.foldlM (fun n c =>
    if c.isDigit then some (n * 16 + (c.toNat - 48))
    else if 'a' ≤ c.toLower && c.toLower ≤ 'f' then some (n * 16 + (c.toLower.toNat - 87))
    else none) 0

/-- The number of digits below a base of at most ten. -/
def digitsIn? (base : Nat) (digits : List Char) : Option Nat :=
  if digits.isEmpty then none
  else digits.foldlM (fun n c =>
    if c.isDigit && c.toNat - 48 < base then some (n * base + (c.toNat - 48)) else none) 0

/-- The number of a text: hexadecimal behind `0x`, octal behind a zero, else decimal. -/
def natural? (text : List Char) : Option Nat :=
  match text with
  | '0' :: 'x' :: digits => hexadecimal? digits
  | '0' :: 'X' :: digits => hexadecimal? digits
  | '0' :: c :: digits => digitsIn? 8 (c :: digits)
  | digits => digitsIn? 10 digits

/-- The decimal number of a text with spaces around it and a sign perhaps. -/
def decimal? (text : List Char) : Option Int :=
  let blank (c : Char) := c == ' ' || c == '\t' || c == '\n'
  let text := ((text.dropWhile blank).reverse.dropWhile blank).reverse
  match text with
  | '-' :: digits => (digitsIn? 10 digits).map fun n => -Int.ofNat n
  | '+' :: digits => (digitsIn? 10 digits).map Int.ofNat
  | digits => (digitsIn? 10 digits).map Int.ofNat

/-! ## Symbols -/

/-- A symbol of an expression. -/
inductive Symbol where
  | number (n : Nat)
  | name (text : List Char)
  | sign (text : List Char)
  deriving DecidableEq, Repr

/-- The signs of two characters. -/
def longSigns : List (List Char) :=
  [['|', '|'], ['&', '&'], ['=', '='], ['!', '='], ['<', '='], ['>', '=']]

/-- The symbols of an expression; the fuel bounds their number. -/
def symbols? : (fuel : Nat) → List Char → Option (List Symbol)
  | 0, _ => none
  | _ + 1, [] => some []
  | fuel + 1, c :: cs =>
    let isPart (c : Char) := c.isAlphanum || c == '_'
    let start := (c :: cs).takeWhile isPart
    if c == ' ' || c == '\t' || c == '\n' then symbols? fuel cs
    else if c.isDigit then do
      let n ← natural? start
      return .number n :: (← symbols? fuel ((c :: cs).dropWhile isPart))
    else if isPart c then do
      return .name start :: (← symbols? fuel ((c :: cs).dropWhile isPart))
    else if longSigns.contains ((c :: cs).take 2) then do
      return .sign ((c :: cs).take 2) :: (← symbols? fuel (cs.drop 1))
    else do return .sign [c] :: (← symbols? fuel cs)

/-! ## Values -/

/-- One for what holds and zero for what does not. -/
def truth (b : Bool) : Int := if b then 1 else 0

/-- How tightly an operator binds. -/
def level? (sign : List Char) : Option Nat :=
  match sign with
  | ['|', '|'] => some 1
  | ['&', '&'] => some 2
  | ['=', '='] => some 3
  | ['!', '='] => some 3
  | ['<'] => some 4
  | ['<', '='] => some 4
  | ['>'] => some 4
  | ['>', '='] => some 4
  | ['+'] => some 5
  | ['-'] => some 5
  | ['*'] => some 6
  | ['/'] => some 6
  | ['%'] => some 6
  | _ => none

/-- The value of an operator; nothing can be divided by zero. -/
def applySign? (sign : List Char) (a b : Int) : Option Int :=
  match sign with
  | ['|', '|'] => some (truth (a != 0 || b != 0))
  | ['&', '&'] => some (truth (a != 0 && b != 0))
  | ['=', '='] => some (truth (a == b))
  | ['!', '='] => some (truth (a != b))
  | ['<'] => some (truth (a < b))
  | ['<', '='] => some (truth (a ≤ b))
  | ['>'] => some (truth (b < a))
  | ['>', '='] => some (truth (b ≤ a))
  | ['+'] => some (a + b)
  | ['-'] => some (a - b)
  | ['*'] => some (a * b)
  | ['/'] => if b == 0 then none else some (a.tdiv b)
  | ['%'] => if b == 0 then none else some (a.tmod b)
  | _ => none

mutual

/-- The value of an operand and the symbols behind it. -/
def operand? (value : List Char → Int) :
    (fuel : Nat) → List Symbol → Option (Int × List Symbol)
  | 0, _ => none
  | fuel + 1, symbols =>
    match symbols with
    | .number n :: rest => some (n, rest)
    | .name text :: rest => some (value text, rest)
    | .sign ['-'] :: rest => do
      let (a, rest) ← operand? value fuel rest
      some (-a, rest)
    | .sign ['+'] :: rest => operand? value fuel rest
    | .sign ['!'] :: rest => do
      let (a, rest) ← operand? value fuel rest
      some (truth (a == 0), rest)
    | .sign ['('] :: rest => do
      match ← expression? value fuel 1 rest with
      | (a, .sign [')'] :: rest) => some (a, rest)
      | _ => none
    | _ => none

/-- The value of an expression whose operators bind at least as tightly as the level, and the
symbols behind it. -/
def expression? (value : List Char → Int) :
    (fuel level : Nat) → List Symbol → Option (Int × List Symbol)
  | 0, _, _ => none
  | fuel + 1, level, symbols => do
    let (a, rest) ← operand? value fuel symbols
    extend? value fuel level a rest

/-- The value of an expression that starts with the value `a`. -/
def extend? (value : List Char → Int) :
    (fuel level : Nat) → Int → List Symbol → Option (Int × List Symbol)
  | 0, _, _, _ => none
  | fuel + 1, level, a, symbols =>
    match symbols with
    | .sign sign :: rest =>
      match level? sign with
      | some binding =>
        if level ≤ binding then do
          let (b, rest) ← expression? value fuel (binding + 1) rest
          extend? value fuel level (← applySign? sign a b) rest
        else some (a, symbols)
      | none => some (a, symbols)
    | _ => some (a, symbols)

end

/-- The value of the whole expression; an empty one is zero. -/
def evaluate? (value : List Char → Int) (expression : List Char) : Option Int := do
  let symbols ← symbols? (expression.length + 1) expression
  if symbols.isEmpty then some 0
  else match ← expression? value (4 * symbols.length + 4) 1 symbols with
    | (a, []) => some a
    | _ => none

end ProcedureCatalog.Shell
