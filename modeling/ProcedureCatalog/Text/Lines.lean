/-
# Lines

A line ends at a line feed, and one carriage return right before that line feed belongs to the
line end. What follows the last line feed is a line of its own unless it is empty.
-/
import ProcedureCatalog.Text.Blank

namespace ProcedureCatalog.Text

/-- The line without the carriage return at its end, if there is one. -/
def dropCarriageReturn (line : List Char) : List Char :=
  match line.reverse with
  | '\r' :: rest => rest.reverse
  | _ => line

/-- The lines of a text, given its pieces between line feeds. -/
def linesOfPieces : List (List Char) → List (List Char)
  | [] => []
  | [last] => if last.isEmpty then [] else [last]
  | piece :: pieces => dropCarriageReturn piece :: linesOfPieces pieces

/-- The lines of a text, without their ends. -/
def lines (cs : List Char) : List (List Char) :=
  linesOfPieces (splitAtEach (· == '\n') cs)

end ProcedureCatalog.Text
