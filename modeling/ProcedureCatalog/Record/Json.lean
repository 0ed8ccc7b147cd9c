/-
# Records in JSON

The JSON objects of service programs, procedures, counts and extraction results. Members without
a value are left out; on reading, unknown members are ignored and `null` is no value.
-/
import ProcedureCatalog.Catalog.Database
import ProcedureCatalog.Catalog.Fill
import ProcedureCatalog.Extraction
import ProcedureCatalog.Json.Basic
import ProcedureCatalog.Record.Basic

namespace ProcedureCatalog

open Json

/-! ## Service programs -/

namespace ServiceProgram

/-- The members of a service program. -/
def members (p : ServiceProgram) : List (String × Json) :=
  [("library", .string p.library), ("name", .string p.name),
    ("source_file", .string p.sourceFile)] ++
    member? "notes" (p.notes.map .string) ++
    member? "source_checksum" (p.checksum.map .string) ++
    member? "updated_at" (p.updatedAt.map .string)

/-- A service program as an object. -/
def toJson (p : ServiceProgram) : Json := .object p.members

/-- The service program that an object holds. -/
def ofJson? : Json → Option ServiceProgram
  | .object members => do
    let library ← requiredString? members "library"
    let name ← requiredString? members "name"
    let sourceFile ← requiredString? members "source_file"
    let notes ← optionalString? members "notes"
    let checksum ← optionalString? members "source_checksum"
    let updatedAt ← optionalString? members "updated_at"
    return ⟨library, name, sourceFile, notes, checksum, updatedAt⟩
  | _ => none

end ServiceProgram

/-- A service program with its counts as an object. -/
def ProgramSummary.toJson (s : ProgramSummary) : Json :=
  .object (s.program.members ++
    [("procedure_count", .number s.procedureCount), ("described_count", .number s.describedCount)])

/-! ## Procedures -/

namespace ProcedureRecord

/-- The members of a procedure. -/
def members (r : ProcedureRecord) : List (String × Json) :=
  [("library", .string r.library), ("srvpgm_name", .string r.program),
    ("procedure_name", .string r.name)] ++
    member? "description" (r.description.map .string) ++
    member? "description_source" (r.source.map fun s => .string s.identifier) ++
    member? "updated_at" (r.updatedAt.map .string)

/-- A procedure as an object. -/
def toJson (r : ProcedureRecord) : Json := .object r.members

/-- An optional source: `none` when the text is no identifier. -/
def source? : Option String → Option (Option DescriptionSource)
  | none => some none
  | some text => (DescriptionSource.ofIdentifier? text).map some

/-- The procedure that an object holds. -/
def ofJson? : Json → Option ProcedureRecord
  | .object members => do
    let library ← requiredString? members "library"
    let program ← requiredString? members "srvpgm_name"
    let name ← requiredString? members "procedure_name"
    let description ← optionalString? members "description"
    let source ← source? (← optionalString? members "description_source")
    let updatedAt ← optionalString? members "updated_at"
    return ⟨library, program, name, description, source, updatedAt⟩
  | _ => none

end ProcedureRecord

/-! ## Counts and results -/

/-- The status of a catalog as an object. -/
def Database.Status.toJson (s : Database.Status) : Json :=
  .object [("tables_exist", .bool s.tablesExist), ("srvpgm_count", .number s.programCount),
    ("procedure_count", .number s.procedureCount), ("described_count", .number s.describedCount)]

/-- A synchronisation report as an object. -/
def SyncReport.toJson (r : SyncReport) : Json :=
  .object [("total", .number r.total), ("added", .number r.added), ("removed", .number r.removed)]

/-- A fill report as an object. -/
def FillReport.toJson (r : FillReport) : Json :=
  .object [("examined", .number r.examined), ("updated", .number r.updated),
    ("skipped", .number r.skipped), ("source_unchanged", .bool r.sourceUnchanged)]

/-- A found description as an object. -/
def FoundDescription.toJson (d : FoundDescription) : Json :=
  .object ([("text", .string d.text), ("strategy", .string d.strategy.identifier)] ++
    member? "line" (d.line.map .number))

/-- The found descriptions as an object with the names as members. -/
def ExtractionResult.toJson (r : ExtractionResult) : Json :=
  .object (r.entries.map fun entry => (entry.1, entry.2.toJson))

end ProcedureCatalog
