/-
# Places in a document

The rest of a text with the place where it starts. Columns and lines count from zero.
-/
import ProcedureCatalog.Yaml.Character

namespace ProcedureCatalog.Yaml

/-- A place in a text. -/
structure Position where
  index : Nat
  line : Nat
  column : Nat
  deriving DecidableEq, Repr

/-- The place behind a character. -/
def Position.past (p : Position) (c : Char) : Position :=
  if isBreak c then ⟨p.index + 1, p.line + 1, 0⟩ else ⟨p.index + 1, p.line, p.column + 1⟩

/-- The rest of a text and where it starts. -/
structure Cursor where
  rest : List Char
  place : Position
  deriving DecidableEq, Repr

namespace Cursor

/-- The column of the next character. -/
def column (c : Cursor) : Nat := c.place.column

/-- Behind the next `n` characters. -/
def skip : Nat → Cursor → Cursor
  | 0, c => c
  | _ + 1, ⟨[], place⟩ => ⟨[], place⟩
  | n + 1, ⟨x :: rest, place⟩ => skip n ⟨rest, place.past x⟩

/-- The longest run of characters that satisfy `p`, and the cursor behind it. -/
def span (p : Char → Bool) (c : Cursor) : List Char × Cursor :=
  (c.rest.takeWhile p, c.skip (c.rest.takeWhile p).length)

/-- Behind the longest run of characters that satisfy `p`. -/
def skipWhile (p : Char → Bool) (c : Cursor) : Cursor := (c.span p).2

/-- A mark at the start of a line ends or starts a document here. -/
def atDocumentMark (c : Cursor) : Bool :=
  c.column == 0 && documentMarks.contains (c.rest.take 3) && atGap (c.rest.drop 3)

/-- Skipping drops characters. -/
theorem rest_skip (n : Nat) (c : Cursor) : (c.skip n).rest = c.rest.drop n := by
  induction n generalizing c with
  | zero => rfl
  | succ n ih =>
    obtain ⟨rest, place⟩ := c
    cases rest with
    | nil => rfl
    | cons x rest => exact ih _

end Cursor

end ProcedureCatalog.Yaml
