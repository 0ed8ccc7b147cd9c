/-
# Object names

Names of libraries, objects, files and members on the host: one to ten characters, ASCII letters,
digits, `$`, `#`, `@`, `_` and `.`, the first a letter, `$`, `#` or `@`.

* `validate` reports the first rule that a name breaks.
-/
import ProcedureCatalog.Text.Blank

namespace ProcedureCatalog

/-! ## Kinds of names -/

/-- What a name refers to. -/
inductive ObjectKind where
  | library
  | object
  | file
  | member
  deriving DecidableEq, Repr

/-- The word for the kind in messages. -/
def ObjectKind.label : ObjectKind → String
  | .library => "library"
  | .object => "object"
  | .file => "file"
  | .member => "member"

/-- The kind with the given label. -/
def ObjectKind.ofLabel? (label : String) : Option ObjectKind :=
  [ObjectKind.library, .object, .file, .member].find? (·.label == label)

/-! ## Faults -/

/-- Why a name is refused. -/
inductive NameError where
  | empty (kind : ObjectKind)
  | tooLong (kind : ObjectKind) (name : String)
  | invalidCharacter (kind : ObjectKind) (name : String) (char : Char)
  | invalidStart (kind : ObjectKind) (name : String)
  deriving DecidableEq, Repr

/-- The wording of a fault. -/
def NameError.message : NameError → String
  | .empty kind => kind.label ++ " name cannot be empty"
  | .tooLong kind name => kind.label ++ " name '" ++ name ++ "' is longer than 10 characters"
  | .invalidCharacter kind name char =>
    kind.label ++ " name '" ++ name ++ "' contains invalid character '" ++ char.toString ++ "'"
  | .invalidStart kind name =>
    kind.label ++ " name '" ++ name ++ "' must start with a letter, '$', '#' or '@'"

/-! ## Validation -/

namespace ObjectName

/-- The greatest number of characters in a name. -/
def maxLength : Nat := 10

/-- A character that may stand in a name. -/
def isNameChar (c : Char) : Bool :=
  c.isAlphanum || c == '$' || c == '#' || c == '@' || c == '_' || c == '.'

/-- A character that may start a name. -/
def isNameStart (c : Char) : Bool :=
  c.isAlpha || c == '$' || c == '#' || c == '@'

/-- Succeeds on a name that keeps all rules; otherwise the first broken rule, in the order of the
constructors of `NameError`. -/
def validate (kind : ObjectKind) (name : String) : Except NameError Unit :=
  let cs := name.toList
  if Text.allBlank cs then .error (.empty kind)
  else if cs.length > maxLength then .error (.tooLong kind name)
  else match cs.find? (fun c => !isNameChar c) with
    | some c => .error (.invalidCharacter kind name c)
    | none => if cs.head?.any isNameStart then .ok () else .error (.invalidStart kind name)

end ObjectName

end ProcedureCatalog
