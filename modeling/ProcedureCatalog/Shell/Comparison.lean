/-
# Comparisons of the shell

What the commands `test` and `[` decide about their arguments. No files exist but the null device.
-/
import ProcedureCatalog.Shell.Arithmetic

namespace ProcedureCatalog.Shell

/-- Why a comparison cannot be made. -/
inductive ComparisonError where
  | illegalNumber (text : List Char)
  | unexpected (text : List Char)
  | missingBracket
  deriving DecidableEq, Repr

/-- The wording of an error. -/
def ComparisonError.message : ComparisonError → List Char
  | .illegalNumber text => "Illegal number: ".toList ++ text
  | .unexpected text => text ++ ": unexpected operator".toList
  | .missingBracket => "missing ]".toList

/-- The comparison of numbers that an operator makes. -/
def numberComparison? (operator : List Char) : Option (Int → Int → Bool) :=
  match String.ofList operator with
  | "-eq" => some fun a b => a == b
  | "-ne" => some fun a b => a != b
  | "-lt" => some fun a b => a < b
  | "-le" => some fun a b => a ≤ b
  | "-gt" => some fun a b => b < a
  | "-ge" => some fun a b => b ≤ a
  | _ => none

/-- The number of an operand. -/
def operandNumber (text : List Char) : Except ComparisonError Int :=
  (decimal? text).elim (.error (.illegalNumber text)) .ok

/-- The decision of an operator between two texts. -/
def compareTexts (a operator b : List Char) : Except ComparisonError Bool :=
  if operator == ['='] then .ok (a == b)
  else if operator == ['!', '='] then .ok (a != b)
  else match numberComparison? operator with
    | some compare => do return compare (← operandNumber a) (← operandNumber b)
    | none => .error (.unexpected a)

/-- The decision of an operator in front of a text. -/
def decideText (operator text : List Char) : Except ComparisonError Bool :=
  match String.ofList operator with
  | "-n" => .ok !text.isEmpty
  | "-z" => .ok text.isEmpty
  | "-e" => .ok (text == "/dev/null".toList)
  | "-f" => .ok false
  | "-d" => .ok false
  | "-r" => .ok (text == "/dev/null".toList)
  | "-s" => .ok false
  | "-t" => .ok false
  | _ => .error (.unexpected operator)

/-- The decision about arguments without `-a` and `-o`. -/
def decideTerm : List (List Char) → Except ComparisonError Bool
  | [] => .ok false
  | [text] => .ok !text.isEmpty
  | ['!'] :: rest => (decideTerm rest).map (!·)
  | [operator, text] => decideText operator text
  | [a, operator, b] => compareTexts a operator b
  | _ :: _ :: _ :: text :: _ => .error (.unexpected text)

/-- The arguments up to a given one, and those behind it. -/
def splitAt? (mark : List Char) (arguments : List (List Char)) :
    Option (List (List Char) × List (List Char)) :=
  if arguments.length > 4 && arguments.contains mark then
    some (arguments.takeWhile (· != mark), (arguments.dropWhile (· != mark)).drop 1)
  else none

/-- The decision about the arguments; `-a` binds more tightly than `-o`. -/
def decideAll : (fuel : Nat) → List (List Char) → Except ComparisonError Bool
  | 0, arguments => decideTerm arguments
  | fuel + 1, arguments =>
    match splitAt? ['-', 'o'] arguments with
    | some (a, b) => do return (← decideAll fuel a) || (← decideAll fuel b)
    | none =>
      match splitAt? ['-', 'a'] arguments with
      | some (a, b) => do return (← decideAll fuel a) && (← decideAll fuel b)
      | none => decideTerm arguments

/-- The decision of `test`, or of `[` with the bracket that has to come last. -/
def comparison (bracket : Bool) (arguments : List (List Char)) : Except ComparisonError Bool :=
  if bracket then
    if arguments.getLast? == some [']'] then decideAll arguments.length arguments.dropLast
    else .error .missingBracket
  else decideAll arguments.length arguments

end ProcedureCatalog.Shell
