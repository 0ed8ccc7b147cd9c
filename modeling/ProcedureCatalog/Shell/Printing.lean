/-
# Printing texts

The escapes of the shell and the command `echo`, alone and as it is built into the shell.
-/
import ProcedureCatalog.Text.Utf8

namespace ProcedureCatalog.Shell

/-! ## Escapes -/

/-- The byte that a letter behind a backslash stands for. -/
def escapeByte? (c : Char) : Option UInt8 :=
  match c with
  | 'a' => some 7
  | 'b' => some 8
  | 'f' => some 12
  | 'n' => some 10
  | 'r' => some 13
  | 't' => some 9
  | 'v' => some 11
  | '\\' => some 0x5C
  | _ => none

/-- The value of octal digits. -/
def octal (digits : List Char) : UInt8 :=
  UInt8.ofNat (digits.foldl (fun value d => value * 8 + (d.toNat - 48)) 0)

/-- An octal digit. -/
def isOctal (c : Char) : Bool := '0' ≤ c && c ≤ '7'

/-- The bytes of a text and, behind `\c`, the end of all output. -/
structure Printed where
  bytes : List UInt8
  stopped : Bool

/-- The bytes of one more character. -/
def Printed.after (bytes : List UInt8) (p : Printed) : Printed := ⟨bytes ++ p.bytes, p.stopped⟩

/-- The octal digits, at most `count`, at the start of a text. -/
def octalDigits (count : Nat) (cs : List Char) : List Char := (cs.take count).takeWhile isOctal

/-- A text with its escapes replaced. Among the extended ones are a number behind a zero that does
not count and the end of all output. The next `skip` characters belong to the last escape. -/
def unescape (extended : Bool) : (skip : Nat) → List Char → Printed
  | _, [] => ⟨[], false⟩
  | skip + 1, _ :: cs => unescape extended skip cs
  | 0, c :: cs =>
    if c != '\\' then (unescape extended 0 cs).after (Text.encodeUtf8 [c])
    else match cs with
      | [] => ⟨[0x5C], false⟩
      | e :: rest =>
        if extended && e == 'c' then ⟨[], true⟩
        else if extended && e == '0' then
          let digits := octalDigits 3 rest
          (unescape extended (1 + digits.length) cs).after [octal digits]
        else if isOctal e then
          let digits := octalDigits 3 cs
          (unescape extended digits.length cs).after [octal digits]
        else match escapeByte? e with
          | some byte => (unescape extended 1 cs).after [byte]
          | none => (unescape extended 0 cs).after [0x5C]

/-! ## The command `echo` -/

/-- The arguments with a space between each two. -/
def spaced (arguments : List (List Char)) : List Char := [' '].intercalate arguments

/-- The output of the built-in `echo`: escapes are replaced, and `-n` leaves the line open. -/
def builtinEcho (arguments : List (List Char)) : List UInt8 :=
  let openLine := arguments.head? == some ['-', 'n']
  let printed := unescape true 0 (spaced (if openLine then arguments.drop 1 else arguments))
  printed.bytes ++ (if openLine || printed.stopped then [] else [10])

/-- An option of the program `echo`. -/
def isEchoOption (argument : List Char) : Bool :=
  match argument with
  | '-' :: c :: cs => (c :: cs).all fun o => o == 'n' || o == 'e' || o == 'E'
  | _ => false

/-- The output of the program `echo`: `-n` leaves the line open, `-e` replaces escapes. -/
def programEcho (arguments : List (List Char)) : List UInt8 :=
  let letters := (arguments.takeWhile isEchoOption).flatten
  let texts := spaced (arguments.dropWhile isEchoOption)
  let escapes := (letters.filter fun c => c == 'e' || c == 'E').getLast? == some 'e'
  let printed := if escapes then unescape true 0 texts else ⟨Text.encodeUtf8 texts, false⟩
  printed.bytes ++ (if letters.contains 'n' || printed.stopped then [] else [10])

end ProcedureCatalog.Shell
