/-
# Expansion of words

The state of a shell, and the fields that words become in it. A value that stands outside double
quotes is split at its blanks; an output loses the line feeds at its end.
-/
import ProcedureCatalog.Host.Completion
import ProcedureCatalog.Shell.Arithmetic
import ProcedureCatalog.Shell.Script

namespace ProcedureCatalog.Shell

/-! ## The state of a shell -/

/-- Why no further command runs. -/
inductive Ending where
  | exited (status : Nat)
  | killed
  /-- The shell runs for ever. -/
  | endless
  /-- The rest of the body of a loop is left out, and the loop goes on or not. -/
  | leftBody (again : Bool)
  deriving DecidableEq, Repr

/-- What a script has done so far. The pieces of the two outputs stand in reverse order. -/
structure State where
  stdin : List UInt8
  stdout : List (List UInt8)
  stderr : List (List UInt8)
  status : Nat
  bindings : List (List Char × List Char)
  elapsed : Nat
  ended : Option Ending
  deriving DecidableEq, Repr

namespace State

/-- A shell that has done nothing. -/
def start (bindings : List (List Char × List Char)) : State :=
  ⟨[], [], [], 0, bindings, 0, none⟩

/-- The shell after a command with the given status. -/
def done (s : State) (status : Nat) : State := { s with status := status }

/-- The shell after it has ended in the given way. -/
def finish (s : State) (ending : Ending) : State := { s with ended := some ending }

/-- The shell after it has ended with the given status. -/
def exit (s : State) (status : Nat) : State := s.finish (.exited (status % 256))

/-- A number of milliseconds above every timeout. -/
def forever : Nat := 0x10000000000000000

/-- What the process leaves. -/
def completion (s : State) : Host.Completion :=
  let stdout := s.stdout.reverse.flatten
  let stderr := s.stderr.reverse.flatten
  match s.ended with
  | some (.exited status) => ⟨stdout, stderr, some status, s.elapsed⟩
  | some .killed => ⟨stdout, stderr, none, s.elapsed⟩
  | some .endless => ⟨stdout, stderr, none, forever⟩
  | _ => ⟨stdout, stderr, some s.status, s.elapsed⟩

/-- Writes bytes to a target. -/
def write (s : State) (target : Target) (bytes : List UInt8) : State :=
  match target with
  | .stdout => { s with stdout := bytes :: s.stdout }
  | .stderr => { s with stderr := bytes :: s.stderr }
  | .nowhere => s

/-- Writes a complaint of the shell. -/
def complain (s : State) (target : Target) (message : List Char) : State :=
  s.write target (Text.encodeUtf8 ("sh: 1: ".toList ++ message ++ ['\n']))

/-! ## Parameters -/

/-- The shell with a value for a name. -/
def bind (s : State) (name value : List Char) : State :=
  { s with bindings := (name, value) :: s.bindings.filter (·.1 != name) }

/-- The shell without a value for a name. -/
def unbind (s : State) (name : List Char) : State :=
  { s with bindings := s.bindings.filter (·.1 != name) }

/-- The value of a name, if it has one. -/
def value? (s : State) (name : List Char) : Option (List Char) :=
  match name with
  | ['?'] => some (toString s.status).toList
  | ['$'] => some ['1']
  | ['#'] => some ['0']
  | ['0'] => some "sh".toList
  | _ => s.bindings.lookup name

/-- The value of a name, empty if it has none. -/
def value (s : State) (name : List Char) : List Char := (s.value? name).getD []

/-- The name at the start of the text in braces. -/
def nameIn (text : List Char) : List Char :=
  match text with
  | c :: _ => if Reader.isNameChar c && !c.isDigit then text.takeWhile Reader.isNameChar else [c]
  | [] => []

/-- The value of a text whose parts are characters and names. -/
def plainValue (s : State) (parts : Word) : List Char :=
  parts.flatMap fun part =>
    match part with
    | .char c => [c]
    | .parameter name _ => s.value name
    | _ => []

/-- The value of a text inside double quotes. -/
def quotedValue (s : State) (text : List Char) : List Char := s.plainValue (quotedParts text)

/-- The value with another text instead of one that is missing or, if asked, empty. -/
def valueOr (s : State) (name other : List Char) (orEmpty : Bool) : List Char :=
  match s.value? name with
  | some value => if orEmpty && value.isEmpty then s.quotedValue other else value
  | none => s.quotedValue other

/-- Another text instead of the value, unless that is missing or, if asked, empty. -/
def valueThen (s : State) (name other : List Char) (orEmpty : Bool) : List Char :=
  match s.value? name with
  | some value => if orEmpty && value.isEmpty then [] else s.quotedValue other
  | none => []

/-- The value of the text in braces: a name alone, behind a hash sign for the number of its bytes,
or in front of an operator with another text. -/
def parameterValue (s : State) (text : List Char) : List Char :=
  match text with
  | '#' :: c :: name => (toString (Text.encodeUtf8 (s.value (c :: name))).length).toList
  | _ =>
    let name := nameIn text
    match text.drop name.length with
    | ':' :: '-' :: other => s.valueOr name other true
    | ':' :: '=' :: other => s.valueOr name other true
    | '-' :: other => s.valueOr name other false
    | '=' :: other => s.valueOr name other false
    | ':' :: '+' :: other => s.valueThen name other true
    | '+' :: other => s.valueThen name other false
    | _ => s.value name

/-- The value of an arithmetic expression. -/
def numberValue? (s : State) (expression : List Char) : Option Int :=
  evaluate? (fun name => (decimal? (s.value name)).getD 0) (s.quotedValue expression)

/-! ## Fields -/

/-- The fields so far, the last one first, and the one that is begun, read backwards. -/
structure Fields where
  finished : List (List Char)
  current : Option (List Char)

/-- The fields with one more character. -/
def Fields.push (f : Fields) (c : Char) : Fields := { f with current := some (c :: f.current.getD []) }

/-- The fields with one begun. -/
def Fields.begin (f : Fields) : Fields := { f with current := some (f.current.getD []) }

/-- The fields with the last one finished. -/
def Fields.finish (f : Fields) : Fields :=
  match f.current with
  | some reversed => ⟨reversed.reverse :: f.finished, none⟩
  | none => f

/-- The fields with one more character of a value that is split at blanks. -/
def Fields.split (f : Fields) (c : Char) : Fields :=
  if c == ' ' || c == '\t' || c == '\n' then f.finish else f.push c

/-- The fields with a value. -/
def Fields.add (f : Fields) (quoted : Bool) (value : List Char) : Fields :=
  if quoted then value.foldl Fields.push f.begin else value.foldl Fields.split f

/-! ## Words -/

/-- How the output of a script is found. -/
abbrev Substitution := List Char → State → State × List Char

/-- The fields with one more part of a word. -/
def expandPart (substitute : Substitution) (sf : State × Fields) (part : Part) : State × Fields :=
  let (s, f) := sf
  match part with
  | .char c => (s, f.push c)
  | .parameter text quoted => (s, f.add quoted (s.parameterValue text))
  | .output script quoted =>
    let (s, text) := substitute script s
    (s, f.add quoted text)
  | .number expression quoted =>
    match s.numberValue? expression with
    | some n => (s, f.add quoted (toString n).toList)
    | none => ((s.complain .stderr "arithmetic expression".toList).exit 2, f)

/-- The fields with one more word. -/
def expandWord (substitute : Substitution) (sf : State × Fields) (word : Word) : State × Fields :=
  let (s, f) := sf
  let (s, f) := word.foldl (expandPart substitute) (s, if word.isEmpty then f.begin else f)
  (s, f.finish)

/-- The fields of words. -/
def expand (s : State) (substitute : Substitution) (words : List Word) :
    State × List (List Char) :=
  let (s, f) := words.foldl (expandWord substitute) (s, ⟨[], none⟩)
  (s, f.finished.reverse)

/-- The part inside double quotes. -/
def quote : Part → Part
  | .char c => .char c
  | .parameter text _ => .parameter text true
  | .output script _ => .output script true
  | .number expression _ => .number expression true

/-- The text of a word that is not split. -/
def expandWhole (s : State) (substitute : Substitution) (word : Word) : State × List Char :=
  let (s, fields) := s.expand substitute [word.map quote]
  (s, fields.flatten)

end State

/-- The name and the value of a word that is an assignment. -/
def assignment? (word : Word) : Option (List Char × Word) :=
  let isName (part : Part) :=
    match part with
    | .char c => Reader.isNameChar c
    | _ => false
  match literal? (word.takeWhile isName), word.dropWhile isName with
  | some (c :: name), .char '=' :: value => if c.isDigit then none else some (c :: name, value)
  | _, _ => none

end ProcedureCatalog.Shell
