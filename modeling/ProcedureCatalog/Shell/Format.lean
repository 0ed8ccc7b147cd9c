/-
# Formatted output

The command `printf`. A format is plain text with escapes and directives; it is used again until
its arguments are used up.
-/
import ProcedureCatalog.Shell.Arithmetic
import ProcedureCatalog.Shell.Printing

namespace ProcedureCatalog.Shell

/-! ## Directives -/

/-- A directive: the flags, the least width, the precision and the letter of the conversion. -/
structure Directive where
  flags : List Char
  width : Nat
  precision : Option Nat
  conversion : Char
  deriving DecidableEq, Repr

namespace Directive

/-- The number that digits stand for, zero without any. -/
def countOf (digits : List Char) : Nat := (digitsIn? 10 digits).getD 0

/-- The precision at the start of a text, and the text behind it. -/
def readPrecision : List Char → Option Nat × List Char
  | '.' :: cs => (some (countOf (cs.takeWhile Char.isDigit)), cs.dropWhile Char.isDigit)
  | cs => (none, cs)

/-- The directive behind a percent sign, and the text behind it. A width may be the next argument;
then the arguments without it follow. -/
def read? (cs : List Char) (arguments : List (List Char)) :
    Option (Directive × List Char × List (List Char)) :=
  let isFlag (c : Char) := ['-', '+', ' ', '0', '#'].contains c
  let flags := cs.takeWhile isFlag
  let rest := cs.dropWhile isFlag
  let (width, rest, arguments) :=
    match rest with
    | '*' :: rest => (countOf (arguments.head?.getD []), rest, arguments.drop 1)
    | _ => (countOf (rest.takeWhile Char.isDigit), rest.dropWhile Char.isDigit, arguments)
  let (precision, rest) := readPrecision rest
  match rest with
  | c :: rest => some (⟨flags, width, precision, c⟩, rest, arguments)
  | [] => none

/-- The bytes filled up with spaces to the width. -/
def pad (d : Directive) (bytes : List UInt8) : List UInt8 :=
  let spaces := List.replicate (d.width - bytes.length) 0x20
  if d.flags.contains '-' then bytes ++ spaces else spaces ++ bytes

/-- The bytes of a text, no more than the precision. -/
def text (d : Directive) (bytes : List UInt8) : List UInt8 :=
  d.pad (d.precision.elim bytes bytes.take)

/-- The conversion shows a sign. -/
def isSigned (d : Directive) : Bool := d.conversion == 'd' || d.conversion == 'i'

/-- The digits of a magnitude. -/
def digits (d : Directive) (magnitude : Nat) : List Char :=
  match d.conversion with
  | 'x' => Nat.toDigits 16 magnitude
  | 'X' => (Nat.toDigits 16 magnitude).map Char.toUpper
  | 'o' => Nat.toDigits 8 magnitude
  | _ => Nat.toDigits 10 magnitude

/-- What stands in front of the digits of a number. -/
def mark (d : Directive) (n : Int) : List Char :=
  if d.isSigned then
    if n < 0 then ['-']
    else if d.flags.contains '+' then ['+']
    else if d.flags.contains ' ' then [' ']
    else []
  else if d.flags.contains '#' && n != 0 then
    if d.conversion == 'x' then ['0', 'x']
    else if d.conversion == 'X' then ['0', 'X']
    else if d.conversion == 'o' then ['0']
    else []
  else []

/-- The bytes of a number. Without a sign a negative one counts down from the greatest word. -/
def number (d : Directive) (n : Int) : List UInt8 :=
  let magnitude := if d.isSigned then n.natAbs else (n % 0x10000000000000000).toNat
  let mark := d.mark n
  let digits := d.digits magnitude
  let least :=
    match d.precision with
    | some precision => precision
    | none =>
      if d.flags.contains '0' && !d.flags.contains '-' then d.width - mark.length else 0
  let zeros := List.replicate (least - digits.length) '0'
  d.pad (Text.encodeUtf8 (mark ++ zeros ++ digits))

end Directive

/-! ## Numbers as arguments -/

/-- A number and whether its text is one as a whole. -/
structure NumberArgument where
  value : Int
  fault : Option String
  deriving DecidableEq, Repr

/-- The longest start of a text that is a number. -/
def numberPrefix? (text : List Char) : Option Nat :=
  (List.range text.length).reverse.findSome? fun n => natural? (text.take (n + 1))

/-- The number that an argument stands for: behind a quote it is that of a character, and a text
counts up to where it stops being a number. -/
def numberArgument (text : List Char) : NumberArgument :=
  match text with
  | [] => ⟨0, none⟩
  | c :: cs =>
    if c.toNat == 0x22 || c.toNat == 0x27 then ⟨(cs.head?.map (·.toNat)).getD 0, none⟩
    else
      let unsigned := if c == '-' || c == '+' then cs else c :: cs
      let sign : Int := if c == '-' then -1 else 1
      match natural? unsigned, numberPrefix? unsigned with
      | some n, _ => ⟨sign * n, none⟩
      | none, some n => ⟨sign * n, some "not completely converted"⟩
      | none, none => ⟨0, some "expected numeric value"⟩

/-! ## The command -/

/-- What a command wrote, and the complaints about its arguments. -/
structure FormatOutput where
  bytes : List UInt8
  faults : List (List Char)
  deriving DecidableEq, Repr

/-- One output behind another. -/
def FormatOutput.append (a b : FormatOutput) : FormatOutput :=
  ⟨a.bytes ++ b.bytes, a.faults ++ b.faults⟩

/-- The output of one pass over a format, the arguments it left, whether it took any, and whether
all output ends there. -/
structure FormatPass where
  output : FormatOutput
  rest : List (List Char)
  consumed : Bool
  stopped : Bool

/-- The pass with more output in front. -/
def FormatPass.after (output : FormatOutput) (p : FormatPass) : FormatPass :=
  { p with output := output.append p.output }

/-- The pass that writes nothing more. -/
def FormatPass.last (output : FormatOutput) (arguments : List (List Char)) (stopped : Bool) :
    FormatPass :=
  ⟨output, arguments, false, stopped⟩

/-- The output of a directive for an argument, and whether all output ends there. -/
def convert? (d : Directive) (argument : List Char) : Option (FormatOutput × Bool) :=
  match d.conversion with
  | 's' => some (⟨d.text (Text.encodeUtf8 argument), []⟩, false)
  | 'c' => some (⟨d.pad ((Text.encodeUtf8 argument).take 1), []⟩, false)
  | 'b' =>
    let printed := unescape true 0 argument
    some (⟨d.text printed.bytes, []⟩, printed.stopped)
  | c =>
    if ['d', 'i', 'u', 'x', 'X', 'o'].contains c then
      let n := numberArgument argument
      let faults := n.fault.toList.map fun fault => argument ++ (": " ++ fault).toList
      some (⟨d.number n.value, faults⟩, false)
    else none

/-- One pass over a format; the fuel bounds the number of its parts. -/
def formatOnce : (fuel : Nat) → (format : List Char) → (arguments : List (List Char)) → FormatPass
  | 0, _, arguments => .last ⟨[], []⟩ arguments true
  | _ + 1, [], arguments => .last ⟨[], []⟩ arguments false
  | fuel + 1, '%' :: '%' :: format, arguments =>
    (formatOnce fuel format arguments).after ⟨[0x25], []⟩
  | fuel + 1, '%' :: format, arguments =>
    match Directive.read? format arguments with
    | none => .last ⟨[], ["missing format character".toList]⟩ arguments true
    | some (d, format, arguments) =>
      match convert? d (arguments.head?.getD []) with
      | none => .last ⟨[], [['%', d.conversion] ++ ": invalid directive".toList]⟩ arguments true
      | some (output, stopped) =>
        if stopped then .last output [] true
        else
          { ((formatOnce fuel format (arguments.drop 1)).after output) with consumed := true }
  | fuel + 1, c :: format, arguments =>
    let text := (c :: format).takeWhile (· != '%')
    (formatOnce fuel ((c :: format).drop text.length) arguments).after
      ⟨(unescape false 0 text).bytes, []⟩

/-- The output of a format that is used again until the arguments are used up. -/
def formatAll : (fuel : Nat) → (format : List Char) → (arguments : List (List Char)) → FormatOutput
  | 0, _, _ => ⟨[], []⟩
  | fuel + 1, format, arguments =>
    let pass := formatOnce (format.length + 1) format arguments
    if pass.consumed && !pass.rest.isEmpty && !pass.stopped then
      pass.output.append (formatAll fuel format pass.rest)
    else pass.output

/-- The output of `printf` with a format and arguments. -/
def printf (arguments : List (List Char)) : FormatOutput :=
  match arguments with
  | [] => ⟨[], ["usage: printf format [arg ...]".toList]⟩
  | format :: arguments => formatAll (arguments.length + 1) format arguments

end ProcedureCatalog.Shell
