/-
# Filling in descriptions

Descriptions are written by hand, or found in a source, or inferred from names. One written by
hand is never replaced by the other two ways.

* `setDescription` writes by hand.
* `applyDescriptions` stores the result of an extraction.
* `fillFromNames` infers from names.
* `fillFromSource` extracts from a source text, unless its checksum is that of the last time.
-/
import ProcedureCatalog.Catalog.Sync
import ProcedureCatalog.Description
import ProcedureCatalog.Extraction

namespace ProcedureCatalog

/-- The outcome of a fill. -/
structure FillReport where
  examined : Nat
  updated : Nat
  skipped : Nat
  sourceUnchanged : Bool
  deriving DecidableEq, Repr

namespace FillReport

/-- Nothing was there to examine. -/
def nothing : FillReport := ⟨0, 0, 0, false⟩

/-- The source is the one of the last time. -/
def unchanged : FillReport := ⟨0, 0, 0, true⟩

end FillReport

namespace Catalog

/-! ## By hand -/

/-- The procedure with a hand-written text; an empty text clears the description. -/
def writeByHand (text now : String) (r : StoredProcedure) : StoredProcedure :=
  if text.isEmpty then r.clear now else r.describe text .manual now

/-- The catalog with a normalized hand-written description, and whether the procedure is there. -/
def setDescription (c : Catalog) (library program name text now : String) : Catalog × Bool :=
  let normal := Description.normalize (Text.trimmed text)
  let key := [library, program, name]
  let procedures := Table.update StoredProcedure.key key (writeByHand normal now) c.procedures
  ({ c with procedures := procedures },
    (Table.find? StoredProcedure.key c.procedures key).isSome)

/-! ## From an extraction -/

/-- The procedure with the description found for it, unless it has one written by hand. -/
def applyTo (result : ExtractionResult) (now : String) (r : StoredProcedure) : StoredProcedure :=
  match result.get? r.name with
  | some found => if r.isManual then r else r.describe found.text found.strategy.source now
  | none => r

/-- The entry is for a procedure of the service program that takes descriptions. -/
def accepts (c : Catalog) (library program : String) (entry : String × FoundDescription) : Bool :=
  (c.proceduresOf library program).any fun r => r.name == entry.1 && !r.isManual

/-- The catalog with the descriptions of an extraction for one service program. -/
def applyDescriptions (c : Catalog) (library program : String) (result : ExtractionResult)
    (now : String) : Catalog × FillReport :=
  let updated := result.entries.countP (c.accepts library program)
  (c.changeProcedures library program (applyTo result now),
    ⟨result.size, updated, result.size - updated, false⟩)

/-! ## From names -/

/-- The fill passes over the procedure: its description was written by hand or, without `force`,
it has one. -/
def isSkipped (force : Bool) (r : StoredProcedure) : Bool :=
  r.isManual || (!force && r.isDescribed)

/-- The text that the fill writes for the procedure. -/
def inferredText? (force : Bool) (r : StoredProcedure) : Option String :=
  if isSkipped force r then none else Inference.infer r.name

/-- The procedure with its inferred description. -/
def inferFor (force : Bool) (now : String) (r : StoredProcedure) : StoredProcedure :=
  match inferredText? force r with
  | some text => r.describe text .nameInference now
  | none => r

/-- The catalog with descriptions inferred for the procedures of one service program. -/
def fillFromNames (c : Catalog) (library program : String) (force : Bool) (now : String) :
    Except CatalogError (Catalog × FillReport) := do
  let _ ← c.records library program
  let own := c.proceduresOf library program
  return (c.changeProcedures library program (inferFor force now),
    ⟨own.length, own.countP fun r => (inferredText? force r).isSome, own.countP (isSkipped force),
      false⟩)

/-! ## From a source -/

/-- The catalog with descriptions extracted from a source text. Nothing happens, without `force`,
when the checksum of the text is the stored one. -/
def fillFromSource (checksum : String → String) (c : Catalog) (library program source : String)
    (force : Bool) (now : String) : Except CatalogError (Catalog × FillReport) :=
  match c.program? library program with
  | none => .error (.programNotFound library program)
  | some p =>
    if !force && p.checksum == some (checksum source) then .ok (c, .unchanged)
    else
      let expected := ExpectedNames.ofList (c.procedureNames library program)
      if expected.names.isEmpty then .ok (c, .nothing)
      else
        let result := extract expected Strategy.fromSource source
        let (filled, report) := c.applyDescriptions library program result now
        .ok (filled.setChecksum library program (some (checksum source)), report)

end Catalog

end ProcedureCatalog
