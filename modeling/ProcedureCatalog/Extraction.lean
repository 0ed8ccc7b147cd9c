/-
# Extraction

The descriptions that a list of strategies finds for the expected names in one source. The first
strategy that proposes a description for a name wins.

* `ExtractionResult` maps names to descriptions, in the order of the names.
* `extract` runs the strategies in order.
-/
import ProcedureCatalog.Declaration
import ProcedureCatalog.Inference
import ProcedureCatalog.Label
import ProcedureCatalog.Text.Lines

namespace ProcedureCatalog

/-! ## Results -/

/-- A description that was kept, with the strategy that proposed it. -/
structure FoundDescription where
  text : String
  strategy : Strategy
  line : Option Nat
  deriving DecidableEq, Repr

/-- Names in rising order, each with its description. -/
structure ExtractionResult where
  entries : List (String × FoundDescription)
  deriving DecidableEq, Repr

namespace ExtractionResult

/-- The result without descriptions. -/
def empty : ExtractionResult := ⟨[]⟩

/-- The description of a name. -/
def get? (result : ExtractionResult) (name : String) : Option FoundDescription :=
  result.entries.lookup name

/-- The name has a description. -/
def contains (result : ExtractionResult) (name : String) : Bool := (result.get? name).isSome

/-- The number of described names. -/
def size (result : ExtractionResult) : Nat := result.entries.length

/-- The entries with one more, unless its name is there already. -/
def insertEntry (name : String) (found : FoundDescription) :
    List (String × FoundDescription) → List (String × FoundDescription)
  | [] => [(name, found)]
  | entry :: entries =>
    if name < entry.1 then (name, found) :: entry :: entries
    else if name = entry.1 then entry :: entries
    else entry :: insertEntry name found entries

/-- The result with the description of a candidate, unless its name is described already. -/
def insertIfAbsent (result : ExtractionResult) (c : Candidate) : ExtractionResult :=
  ⟨insertEntry c.name ⟨c.description, c.strategy, c.line⟩ result.entries⟩

/-- The result with the descriptions of all candidates whose names are not described yet. -/
def insertAll (result : ExtractionResult) (candidates : List Candidate) : ExtractionResult :=
  candidates.foldl insertIfAbsent result

end ExtractionResult

/-! ## Strategies -/

/-- The candidates that one strategy proposes for the lines of a source. -/
def Strategy.propose (expected : ExpectedNames) (lines : List (List Char)) :
    Strategy → List Candidate
  | .inlineLabel => Label.collect expected lines
  | .blockHeader => Declaration.collect expected lines
  | .nameInference => Inference.collect expected

/-- The descriptions that the strategies find in the source. -/
def extract (expected : ExpectedNames) (strategies : List Strategy) (source : String) :
    ExtractionResult :=
  let lines := Text.lines source.toList
  strategies.foldl (fun result s => result.insertAll (s.propose expected lines)) .empty

end ProcedureCatalog
