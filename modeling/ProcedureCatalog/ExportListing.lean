/-
# Export listings

The symbols that a service program exports, read from a listing of any layout: every token
`PROGRAM_NAME` between word boundaries counts, in any case.

* `symbols` gives them in capitals, in order and without repetition.
-/
import ProcedureCatalog.Text.Ascii
import ProcedureCatalog.Text.Blank
import ProcedureCatalog.Text.Fold
import ProcedureCatalog.Text.Ordered
import ProcedureCatalog.Text.Word

namespace ProcedureCatalog.ExportListing

open Text

/-! ## One symbol -/

/-- The symbol of `program` that starts here, after the character `before`. -/
def symbolAt? (program : List Char) (before : Option Char) (cs : List Char) :
    Option (List Char) :=
  match dropFolded? (program ++ ['_']) cs with
  | none => none
  | some rest =>
    let name := rest.takeWhile isFoldedAlphanum
    if name.isEmpty || !isBoundary before cs.head? ||
        !isBoundary name.getLast? (rest.dropWhile isFoldedAlphanum).head? then none
    else some (cs.take (program.length + 1 + name.length))

/-! ## The scan -/

/-- The symbols in `cs` from left to right, none of them overlapping another. The next `skip`
characters belong to the last symbol found. -/
def scan (program : List Char) : (before : Option Char) → (skip : Nat) → (cs : List Char) →
    List (List Char)
  | _, _, [] => []
  | _, skip + 1, c :: cs => scan program (some c) skip cs
  | before, 0, c :: cs =>
    match symbolAt? program before (c :: cs) with
    | some symbol => symbol :: scan program (some c) (symbol.length - 1) cs
    | none => scan program (some c) 0 cs

/-- The symbols of the service program in a listing, in capitals and in order. -/
def symbols (listing program : String) : List String :=
  match trim program.toList with
  | [] => []
  | c :: cs =>
    orderedSet ((scan (c :: cs) none 0 listing.toList).map fun symbol => .ofList (upper symbol))

end ProcedureCatalog.ExportListing
