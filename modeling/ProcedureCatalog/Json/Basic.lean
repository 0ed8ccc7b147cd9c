/-
# JSON values

Values as they are read from and written to JSON, and their printed form with an indent of two
spaces.

* `Json.field?` looks a member up; `null` counts as absent for optional members.
* `Json.pretty` prints a value.
-/

namespace ProcedureCatalog

/-- A JSON value. Numbers are natural numbers; any other number is kept as its text. -/
inductive Json where
  | null
  | bool (value : Bool)
  | number (value : Nat)
  | otherNumber (text : String)
  | string (value : String)
  | array (items : List Json)
  | object (members : List (String × Json))
  deriving Inhabited

namespace Json

/-! ## Members -/

/-- The member of the given name. -/
def field? (members : List (String × Json)) (name : String) : Option Json :=
  members.lookup name

/-- A required text. -/
def requiredString? (members : List (String × Json)) (name : String) : Option String :=
  match field? members name with
  | some (string value) => some value
  | _ => none

/-- An optional text: `some none` when it is absent or null, `none` when it is no text. -/
def optionalString? (members : List (String × Json)) (name : String) : Option (Option String) :=
  match field? members name with
  | none => some none
  | some null => some none
  | some (string value) => some (some value)
  | some _ => none

/-- A member that is left out when it has no value. -/
def member? (name : String) (value : Option Json) : List (String × Json) :=
  match value with
  | some value => [(name, value)]
  | none => []

/-! ## Printing -/

/-- The hexadecimal escape of a control character. -/
def escapeControl (c : Char) : List Char :=
  ['\\', 'u', '0', '0', Nat.digitChar (c.toNat / 16), Nat.digitChar (c.toNat % 16)]

/-- A character inside a JSON text. -/
def escapeChar (c : Char) : List Char :=
  match c.toNat with
  | 0x22 => ['\\', '"']
  | 0x5C => ['\\', '\\']
  | 0x08 => ['\\', 'b']
  | 0x09 => ['\\', 't']
  | 0x0A => ['\\', 'n']
  | 0x0C => ['\\', 'f']
  | 0x0D => ['\\', 'r']
  | n => if n < 0x20 then escapeControl c else [c]

/-- A text in quotes. -/
def quote (text : String) : String := .ofList ('"' :: text.toList.flatMap escapeChar ++ ['"'])

/-- A line break followed by the indent of the given depth. -/
def lineBreak (depth : Nat) : String := .ofList ('\n' :: List.replicate (2 * depth) ' ')

/-- Items between brackets, each on a line of its own. -/
def bracketed (left right : String) (depth : Nat) : List String → String
  | [] => left ++ right
  | items =>
    left ++ lineBreak (depth + 1) ++ String.intercalate ("," ++ lineBreak (depth + 1)) items ++
      lineBreak depth ++ right

mutual

/-- A value, printed at the given depth. -/
def prettyAt (depth : Nat) : Json → String
  | null => "null"
  | bool true => "true"
  | bool false => "false"
  | number n => toString n
  | otherNumber text => text
  | string text => quote text
  | array items => bracketed "[" "]" depth (prettyItems (depth + 1) items)
  | object members => bracketed "\x7b" "\x7d" depth (prettyMembers (depth + 1) members)

/-- The items of an array, printed at the given depth. -/
def prettyItems (depth : Nat) : List Json → List String
  | [] => []
  | item :: items => prettyAt depth item :: prettyItems depth items

/-- The members of an object, printed at the given depth. -/
def prettyMembers (depth : Nat) : List (String × Json) → List String
  | [] => []
  | (name, value) :: members =>
    (quote name ++ ": " ++ prettyAt depth value) :: prettyMembers depth members

end

/-- The printed form of a value. -/
def pretty (value : Json) : String := prettyAt 0 value

end Json

end ProcedureCatalog
