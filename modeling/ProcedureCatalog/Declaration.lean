/-
# Exported declarations

A code line that carries the keyword `EXPORT` declares an exported procedure. The comment lines
right above it describe the procedure.

* `declared?` resolves the procedure that a line declares.
* `harvest` walks up from a line over blank and comment lines.
* `collect` is the pass over a source that gives each name its first block with text.
-/
import ProcedureCatalog.Candidate
import ProcedureCatalog.Description
import ProcedureCatalog.ExpectedNames
import ProcedureCatalog.SourceLine
import ProcedureCatalog.Text.Fold
import ProcedureCatalog.Text.Word

namespace ProcedureCatalog.Declaration

open Text SourceLine

/-! ## The declared identifier -/

/-- The keyword of an exported procedure. -/
def exportKeyword : List Char := ['E', 'X', 'P', 'O', 'R', 'T']

/-- A free-standing keyword `EXPORT` starts here, after the character `before`. -/
def exportStarts (before : Option Char) (cs : List Char) : Bool :=
  match dropFolded? exportKeyword cs with
  | some rest => isBoundary before cs.head? && isBoundary (some 'T') rest.head?
  | none => false

/-- The text up to the first free-standing keyword `EXPORT`, read after the character `before`. -/
def beforeExportFrom (before : Option Char) : List Char → Option (List Char)
  | [] => none
  | c :: cs =>
    if exportStarts before (c :: cs) then some []
    else (beforeExportFrom (some c) cs).map (c :: ·)

/-- The text up to the first free-standing keyword `EXPORT`. -/
def beforeExport (cs : List Char) : Option (List Char) := beforeExportFrom none cs

/-- What follows at least one blank. -/
def afterBlanks? : List Char → Option (List Char)
  | c :: cs => if isBlank c then some (trimStart cs) else none
  | [] => none

/-- The identifier at the start of the text, when it has at least one character. -/
def identifier? (cs : List Char) : Option (List Char) :=
  match cs.takeWhile isIdentifier with
  | [] => none
  | c :: name => some (c :: name)

/-- The identifier at the start of the text, when a blank follows it. -/
def identifierBeforeBlank? (cs : List Char) : Option (List Char) :=
  match (cs.dropWhile isIdentifier).head? with
  | some c => if isBlank c then identifier? cs else none
  | none => none

/-- The procedure of a free-form declaration `DCL-PROC name`. -/
def freeForm? (head : List Char) : Option (List Char) :=
  ((dropFolded? "DCL-PROC".toList head).bind afterBlanks?).bind identifier?

/-- The procedure of a fixed-form specification `P name`. -/
def fixedForm? (head : List Char) : Option (List Char) :=
  ((dropFolded? ['P'] head).bind afterBlanks?).bind identifierBeforeBlank?

/-- What follows a keyword `DCL-…` and the blanks after it. -/
def afterKeyword? (head : List Char) : Option (List Char) :=
  match dropFolded? "DCL-".toList head with
  | some rest =>
    if (rest.takeWhile isFoldedLetter).isEmpty then none
    else afterBlanks? (rest.dropWhile isFoldedLetter)
  | none => none

/-- The identifier at the start of the text, when it starts like a name and a blank follows. -/
def looseName? : List Char → Option (List Char)
  | c :: cs =>
    if isFoldedLetter c || c == '$' || c == '#' || c == '@' then identifierBeforeBlank? (c :: cs)
    else none
  | [] => none

/-- The first identifier of any other declaration, after a keyword `DCL-…` if there is one. -/
def looseForm? (head : List Char) : Option (List Char) :=
  ((afterKeyword? head).bind looseName?).or (looseName? head)

/-- The expected name of the procedure that `head`, the text before `EXPORT`, declares. A
free-form declaration names its procedure outright; a fixed-form specification is tried before
the loose form. -/
def resolveHead? (expected : ExpectedNames) (head : List Char) : Option String :=
  match freeForm? head with
  | some name => expected.resolve? name
  | none =>
    ((fixedForm? head).bind expected.resolve?).or ((looseForm? head).bind expected.resolve?)

/-- The expected name of the procedure that a line declares. -/
def declared? (expected : ExpectedNames) (line : List Char) : Option String :=
  match classify line with
  | .code => (beforeExport (trim line)).bind (resolveHead? expected)
  | _ => none

/-! ## The comment block above a line -/

/-- The comment block above a line: its fragments from top to bottom and its first line. -/
structure Block where
  fragments : List (List Char)
  start : Nat
  deriving DecidableEq, Repr

/-- The fragment that a blank or comment line gives to a block, if it carries words. -/
def fragment? (line : List Char) : Option (List Char) :=
  let fragment := dropCommentMarkers (classify line).content
  if isDecorative fragment then none else some fragment

/-- The lines of a block, given the lines above its declaration, the nearest first. -/
def blockLines (above : List (List Char)) : List (List Char) :=
  above.takeWhile fun line => (classify line).isTransparent

/-- The comment block that ends right above line `index`. -/
def harvest (lines : List (List Char)) (index : Nat) : Block :=
  let stop := min index lines.length
  let block := blockLines (lines.take stop).reverse
  ⟨(block.filterMap fragment?).reverse, stop - block.length⟩

/-! ## The pass over a source -/

/-- The description that the block above line `index` gives. -/
def describe (lines : List (List Char)) (index : Nat) : String :=
  .ofList (Description.normalizeChars
    (Text.collapse (joinWith [' '] (harvest lines index).fragments)))

/-- The procedure declared on line `index`, if it is outside `resolved` and its block has text. -/
def candidate? (expected : ExpectedNames) (lines : List (List Char)) (resolved : List String)
    (index : Nat) (line : List Char) : Option Candidate :=
  match declared? expected line with
  | none => none
  | some name =>
    if resolved.contains name then none
    else
      let description := describe lines index
      if description.isEmpty then none
      else some ⟨name, description, some (index + 1), .blockHeader⟩

/-- The described declarations on the lines from `index` on. -/
def collectFrom (expected : ExpectedNames) (lines : List (List Char)) :
    (resolved : List String) → (index : Nat) → (remaining : List (List Char)) → List Candidate
  | _, _, [] => []
  | resolved, index, line :: remaining =>
    match candidate? expected lines resolved index line with
    | some candidate =>
      candidate :: collectFrom expected lines (candidate.name :: resolved) (index + 1) remaining
    | none => collectFrom expected lines resolved (index + 1) remaining

/-- The described declarations of a source, at most one for each expected name. -/
def collect (expected : ExpectedNames) (lines : List (List Char)) : List Candidate :=
  collectFrom expected lines [] 0 lines

end ProcedureCatalog.Declaration
