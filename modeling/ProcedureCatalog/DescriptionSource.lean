/-
# Where a description comes from

The four sources of a description, from the strongest to the weakest precedence, and the
identifiers that stand for them in stored data and in output.
-/

namespace ProcedureCatalog

/-- How a description was obtained. -/
inductive DescriptionSource where
  /-- A label `NAME : text` in a comment. -/
  | inlineLabel
  /-- The comment block above an exported declaration. -/
  | blockHeader
  /-- The name of the procedure alone. -/
  | nameInference
  /-- Written by hand. -/
  | manual
  deriving DecidableEq, Repr

namespace DescriptionSource

/-- All sources in order of precedence. -/
def all : List DescriptionSource := [inlineLabel, blockHeader, nameInference, manual]

/-- The stored identifier of a source. -/
def identifier : DescriptionSource → String
  | inlineLabel => "inline_label"
  | blockHeader => "block_header"
  | nameInference => "name_inference"
  | manual => "manual"

/-- The source with the given identifier. -/
def ofIdentifier? (text : String) : Option DescriptionSource :=
  all.find? (·.identifier == text)

/-- The place in the order of precedence. -/
def rank : DescriptionSource → Nat
  | inlineLabel => 0
  | blockHeader => 1
  | nameInference => 2
  | manual => 3

/-- The sources ordered by precedence. -/
def sort (sources : List DescriptionSource) : List DescriptionSource :=
  sources.mergeSort (fun a b => a.rank ≤ b.rank)

/-- The wording for an identifier that names no source. -/
def unknownMessage (text : String) : String := "unknown description source: " ++ text

theorem ofIdentifier?_identifier (s : DescriptionSource) : ofIdentifier? s.identifier = some s := by
  cases s <;> rfl

end DescriptionSource

end ProcedureCatalog
