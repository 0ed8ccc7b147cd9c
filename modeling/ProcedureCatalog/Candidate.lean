/-
# Candidates

A description that one strategy proposes for one procedure.
-/
import ProcedureCatalog.DescriptionSource

namespace ProcedureCatalog

/-- A way to find descriptions. -/
inductive Strategy where
  /-- Labels `NAME : text` in comments. -/
  | inlineLabel
  /-- The comment block above an exported declaration. -/
  | blockHeader
  /-- The name of the procedure alone. -/
  | nameInference
  deriving DecidableEq, Repr

namespace Strategy

/-- The strategies that read the source, in order of priority. -/
def fromSource : List Strategy := [inlineLabel, blockHeader]

/-- All strategies in order of priority. -/
def all : List Strategy := [inlineLabel, blockHeader, nameInference]

/-- The source recorded for descriptions that the strategy finds. -/
def source : Strategy → DescriptionSource
  | inlineLabel => .inlineLabel
  | blockHeader => .blockHeader
  | nameInference => .nameInference

/-- The word for the strategy in output. -/
def identifier (s : Strategy) : String := s.source.identifier

/-- The strategy with the given word. -/
def ofIdentifier? (text : String) : Option Strategy := all.find? (·.identifier == text)

end Strategy

/-- A proposed description; `line` is the line of the label or declaration, counted from one. -/
structure Candidate where
  name : String
  description : String
  line : Option Nat
  strategy : Strategy
  deriving DecidableEq, Repr

end ProcedureCatalog
