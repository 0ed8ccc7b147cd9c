/-
# Listings

The printed forms of what commands answer.
-/
import ProcedureCatalog.CommandLine.Command
import ProcedureCatalog.Record.Json

namespace ProcedureCatalog.CommandLine

/-- Texts separated by tabs. -/
def tabbed (columns : List String) : String := String.intercalate "\t" columns

/-- Lines, each with its end. -/
def linesText (lines : List String) : String := String.join (lines.map (· ++ "\n"))

/-- A value in JSON. -/
def jsonText (value : Json) : String := value.pretty ++ "\n"

/-! ## The catalog -/

/-- The status of a catalog in words. -/
def statusLines (s : Database.Status) : List String :=
  ["Catalog Status:", "  Tables exist: " ++ (if s.tablesExist then "yes" else "no"),
    "  Service programs: " ++ toString s.programCount,
    "  Procedures: " ++ toString s.procedureCount, "  Described: " ++ toString s.describedCount]

/-- The status of a catalog. -/
def statusText (format : Format) (s : Database.Status) : String :=
  match format with
  | .json => jsonText s.toJson
  | .table => linesText (statusLines s)

/-- A service program in one line. -/
def programLine (s : ProgramSummary) : String :=
  tabbed [s.program.library, s.program.name,
    toString s.describedCount ++ "/" ++ toString s.procedureCount, s.program.updatedAt.getD ""]

/-- A table of rows; `none` stands for it when there are none. -/
def tableText {ρ : Type} (none : String) (line : ρ → String) (rows : List ρ) : String :=
  linesText ((if rows.isEmpty then [none] else rows.map line) ++
    ["Total: " ++ toString rows.length])

/-- Service programs. -/
def programsText (format : Format) (programs : List ProgramSummary) : String :=
  match format with
  | .json => jsonText (.array (programs.map (·.toJson)))
  | .table => tableText "(empty; run \x60svp-dict dict sync\x60 first)" programLine programs

/-- A procedure in one line, with its library and service program if `qualified`. -/
def procedureLine (qualified : Bool) (r : ProcedureRecord) : String :=
  let start := if qualified then [r.library, r.program] else []
  tabbed (start ++ [r.name, r.description.getD ""])

/-- Procedures. -/
def proceduresText (format : Format) (qualified : Bool) (records : List ProcedureRecord) :
    String :=
  match format with
  | .json => jsonText (.array (records.map (·.toJson)))
  | .table => tableText "(none)" (procedureLine qualified) records

/-- What a fill did, in words. -/
def fillText (r : FillReport) : String :=
  if r.sourceUnchanged then "source unchanged, skipped (use --force to re-extract)"
  else toString r.updated ++ " description(s) updated, " ++ toString r.skipped ++ " kept"

/-! ## Extraction -/

/-- A name with what was found for it, in one line. -/
def extractionLine (result : ExtractionResult) (name : String) : String :=
  match result.get? name with
  | some found =>
    tabbed [name, found.strategy.source.identifier, (found.line.map toString).getD "-", found.text]
  | none => tabbed [name, "-", "-", ""]

/-- The descriptions found for the expected names. -/
def extractionText (format : Format) (expected : ExpectedNames) (result : ExtractionResult) :
    String :=
  match format with
  | .json => jsonText result.toJson
  | .table =>
    linesText (expected.names.map (extractionLine result) ++
      ["Described: " ++ toString result.size ++ "/" ++ toString expected.names.length])

end ProcedureCatalog.CommandLine
