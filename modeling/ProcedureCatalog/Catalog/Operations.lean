/-
# Operations on a catalog in a database

Every operation names the catalog by its prefix. One that fails leaves the database as it was.
-/
import ProcedureCatalog.Catalog.Database
import ProcedureCatalog.Catalog.Edit
import ProcedureCatalog.Catalog.Fill
import ProcedureCatalog.Catalog.Shorten
import ProcedureCatalog.Digest.Sha256

namespace ProcedureCatalog.Database

variable (db : Database) (p : TablePrefix)

/-! ## Reading -/

/-- All service programs with their counts. -/
def summaries : Except CatalogError (List ProgramSummary) :=
  db.read p .programs fun c => .ok c.summaries

/-- The service program of the given name. -/
def program? (library name : String) : Except CatalogError (Option ServiceProgram) :=
  db.read p .programs fun c => .ok (c.program? library name)

/-- The procedures of a service program. -/
def records (library program : String) : Except CatalogError (List ProcedureRecord) :=
  db.read p .procedures fun c => c.records library program

/-- The names of the procedures of a service program. -/
def procedureNames (library program : String) : Except CatalogError (List String) :=
  db.read p .procedures fun c => .ok (c.procedureNames library program)

/-- The procedures whose name or description contains the text. -/
def search (text : String) : Except CatalogError (List ProcedureRecord) :=
  db.read p .procedures fun c => c.search text

/-- All service programs, each with its procedures. -/
def contents : Except CatalogError (List (ProgramSummary × List ProcedureRecord)) :=
  db.read p .programs fun c =>
    c.summaries.mapM fun s => do
      return (s, ← c.records s.program.library s.program.name)

/-! ## Writing -/

/-- Makes the procedures of a service program those of a listing. Both names are validated
before the database is asked. -/
def syncExports (library program : String) (symbols : List String) (now : String) :
    Except CatalogError (Database × SyncReport) := do
  (ObjectName.validate .library library).mapError .invalidName
  (ObjectName.validate .object program).mapError .invalidName
  db.write p .programs fun c => .ok (c.sync library program symbols now)

/-- Stores the descriptions of an extraction. -/
def applyDescriptions (library program : String) (result : ExtractionResult) (now : String) :
    Except CatalogError (Database × FillReport) :=
  db.write p .procedures fun c => .ok (c.applyDescriptions library program result now)

/-- Writes a description by hand. -/
def setDescription (library program name text now : String) :
    Except CatalogError (Database × Bool) :=
  db.write p .procedures fun c => .ok (c.setDescription library program name text now)

/-- Infers descriptions from names. -/
def fillFromNames (library program : String) (force : Bool) (now : String) :
    Except CatalogError (Database × FillReport) :=
  db.write p .procedures fun c => c.fillFromNames library program force now

/-- Extracts descriptions from a source text. -/
def fillFromSource (library program source : String) (force : Bool) (now : String) :
    Except CatalogError (Database × FillReport) :=
  db.write p .programs fun c =>
    c.fillFromSource Digest.sha256Hex library program source force now

/-- Brings decorated and long descriptions into normal form. -/
def shortenDescriptions (filter : Option (String × String)) (now : String) :
    Except CatalogError (Database × Nat) :=
  db.write p .procedures fun c => c.shorten filter now

/-- Removes a service program and its procedures. -/
def deleteProgram (library program : String) : Except CatalogError (Database × Bool) :=
  db.write p .programs fun c => .ok (c.delete library program)

/-! ## Direct edits -/

/-- Gives all rows of both tables the same stamp. -/
def stampAll (stamp : String) : Except CatalogError (Database × Unit) :=
  db.write p .programs fun c => .ok (c.stampAll stamp, ())

/-- Writes a description and its source as they are. -/
def overwriteDescription (library program name : String) (description source : Option String)
    (checked : Bool) : Except CatalogError (Database × Nat) :=
  db.write p .procedures fun c =>
    c.overwriteDescription library program name description source checked

/-- Writes the notes of a service program, and its source file and checksum when given. -/
def overwriteProgram (library name : String) (notes sourceFile checksum : Option String) :
    Except CatalogError (Database × Nat) :=
  db.write p .programs fun c => .ok (c.overwriteProgram library name notes sourceFile checksum)

end ProcedureCatalog.Database
