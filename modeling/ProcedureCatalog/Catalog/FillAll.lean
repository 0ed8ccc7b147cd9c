/-
# Filling in all service programs

The sources of several service programs are read first, each with or without success; then every
source that was read is used to fill in descriptions. A failure concerns its own program only.
-/
import ProcedureCatalog.Catalog.Operations
import ProcedureCatalog.Host.Error

namespace ProcedureCatalog

/-- The source of a service program, or why it could not be read. -/
structure SourceRead where
  program : ServiceProgram
  source : Except RemoteError String

/-- Why a service program could not be filled in. -/
inductive FillError where
  | unread (error : RemoteError)
  | refused (error : CatalogError)
  deriving DecidableEq, Repr

/-- The wording of an error. -/
def FillError.message : FillError → String
  | .unread error => error.message
  | .refused error => error.message

/-- What became of a service program. -/
structure FillOutcome where
  program : ServiceProgram
  report : Except FillError FillReport

/-- The service program could not be filled in. -/
def FillOutcome.isFailure (o : FillOutcome) : Bool :=
  match o.report with
  | .ok _ => false
  | .error _ => true

namespace Database

variable (p : TablePrefix) (force : Bool) (now : String)

/-- The database after one service program, and what became of it. -/
def fillOne (db : Database) (read : SourceRead) : Database × FillOutcome :=
  match read.source with
  | .error error => (db, ⟨read.program, .error (.unread error)⟩)
  | .ok source =>
    match db.fillFromSource p read.program.library read.program.name source force now with
    | .ok (next, report) => (next, ⟨read.program, .ok report⟩)
    | .error error => (db, ⟨read.program, .error (.refused error)⟩)

/-- The database after all service programs, and what became of them, in order. -/
def fillAll (db : Database) : List SourceRead → Database × List FillOutcome
  | [] => (db, [])
  | read :: reads =>
    let (next, outcome) := db.fillOne p force now read
    let (last, outcomes) := next.fillAll reads
    (last, outcome :: outcomes)

end Database

end ProcedureCatalog
