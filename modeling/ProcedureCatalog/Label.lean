/-
# Labels

A label is a comment text `NAME : text` or `NAME() : text`, with blanks around its parts and the
name in any case.

* `afterLabel?` reads a label of one name, `isHeader` tells whether a text is a label of any name.
* `continuation` collects the comment lines that follow a label.
* `collect` is the pass over a source that gives each name its first label with text.
-/
import ProcedureCatalog.Candidate
import ProcedureCatalog.Description
import ProcedureCatalog.ExpectedNames
import ProcedureCatalog.SourceLine
import ProcedureCatalog.Text.Fold

namespace ProcedureCatalog.Label

open Text SourceLine

/-! ## One label -/

/-- The text without an empty pair of parentheses at its start. -/
def dropParens : List Char → List Char
  | '(' :: ')' :: rest => rest
  | cs => cs

/-- What follows the colon, when the text starts with the colon of a label. -/
def afterColon? (cs : List Char) : Option (List Char) :=
  match trimStart (dropParens (trimStart cs)) with
  | ':' :: rest => some rest
  | _ => none

/-- What follows the colon, when `content` is a label of `name`. -/
def afterLabel? (name content : List Char) : Option (List Char) :=
  (dropFolded? name (trimStart content)).bind afterColon?

/-- The text of a label, given what follows its colon: the rest of the line behind the blanks. Of
a rest of blanks alone the last one counts as text. -/
def labelText? (rest : List Char) : Option (List Char) :=
  match trimStart rest with
  | [] => (rest.getLast?.filter (· != '\n')).map ([·])
  | c :: cs => if (c :: cs).contains '\n' then none else some (c :: cs)

/-- The text of a label of `name`. -/
def textOf? (name : String) (content : List Char) : Option (List Char) :=
  (afterLabel? name.toList content).bind labelText?

/-- The content opens a label of an expected name, with or without text. The pattern of the names is
taken to compile: no name is too long for it, and there are never too many of them. -/
def isHeader (expected : ExpectedNames) (content : List Char) : Bool :=
  expected.names.any fun name => (afterLabel? name.toList content).isSome

/-- The first expected name, outside `resolved`, that the content is a label of, with its text. The
pattern of each name is taken to compile: no name is passed over for its length. -/
def match? (expected : ExpectedNames) (resolved : List String) (content : List Char) :
    Option (String × List Char) :=
  (expected.names.filter fun name => !resolved.contains name).findSome? fun name =>
    (textOf? name content).map (name, ·)

/-! ## Continuation -/

/-- The text behind a label's own text: `text` is what the lines gave, `stop` is the first line
that was not taken. -/
structure Continuation where
  text : List Char
  stop : Nat
  deriving DecidableEq, Repr

/-- The fragment of a line that continues a label: `none` for a line that ends the label. -/
def fragment? (expected : ExpectedNames) (line : List Char) : Option (List Char) :=
  match classify line with
  | .comment content =>
    let fragment := trimDecoration content
    if !fragment.isEmpty && isHeader expected fragment then none else some fragment
  | _ => none

/-- The fragments of the lines up to the first one that ends the label. -/
def fragments (expected : ExpectedNames) : List (List Char) → List (List Char)
  | [] => []
  | line :: lines =>
    match fragment? expected line with
    | some fragment => fragment :: fragments expected lines
    | none => []

/-- The continuation of a label whose own line is the one above `start`. -/
def continuation (expected : ExpectedNames) (lines : List (List Char)) (start : Nat) :
    Continuation :=
  let taken := fragments expected (lines.drop start)
  ⟨joinWith [' '] (taken.filter (!·.isEmpty)), start + taken.length⟩

/-! ## The pass over a source -/

/-- The description of a label with text `own` on the line above `start`. -/
def describe (expected : ExpectedNames) (lines : List (List Char)) (own : List Char)
    (start : Nat) : String :=
  let parts := [trimDecoration own, (continuation expected lines start).text]
  .ofList (Description.normalizeChars (Text.collapse (joinWith [' '] (parts.filter (!·.isEmpty)))))

/-- The label found on line `index`, if it is one of a name outside `resolved` and has text. -/
def candidate? (expected : ExpectedNames) (lines : List (List Char)) (resolved : List String)
    (index : Nat) (line : List Char) : Option Candidate :=
  match (classify line).content with
  | [] => none
  | c :: cs =>
    match match? expected resolved (c :: cs) with
    | none => none
    | some (name, own) =>
      let description := describe expected lines own (index + 1)
      if description.isEmpty then none
      else some ⟨name, description, some (index + 1), .inlineLabel⟩

/-- The labels on the lines from `index` on. -/
def collectFrom (expected : ExpectedNames) (lines : List (List Char)) :
    (resolved : List String) → (index : Nat) → (remaining : List (List Char)) → List Candidate
  | _, _, [] => []
  | resolved, index, line :: remaining =>
    match candidate? expected lines resolved index line with
    | some candidate =>
      candidate :: collectFrom expected lines (candidate.name :: resolved) (index + 1) remaining
    | none => collectFrom expected lines resolved (index + 1) remaining

/-- The labels of a source, at most one for each expected name. -/
def collect (expected : ExpectedNames) (lines : List (List Char)) : List Candidate :=
  collectFrom expected lines [] 0 lines

end ProcedureCatalog.Label
