/-
# Databases

A database holds the tables and indexes of any number of catalogs in one space of names, in which
the case of ASCII letters does not matter.

* `up` creates the tables and indexes of a catalog, `down` drops them.
* `status` and `clear` ask for the table of procedures by its exact name.
* `catalog` and `store` read and write the rows of a catalog, `read` and `write` run operations on it.
-/
import ProcedureCatalog.Catalog.Basic
import ProcedureCatalog.Catalog.Schema
import ProcedureCatalog.ExpectedNames

namespace ProcedureCatalog

/-! ## The space of names -/

/-- A table with the name it was created with. -/
structure NamedTable (ρ : Type) where
  name : String
  rows : List ρ
  deriving DecidableEq, Repr

/-- An index of a table. -/
structure TableIndex where
  name : String
  table : String
  deriving DecidableEq, Repr

/-- The tables and indexes of a database. -/
structure Database where
  programs : List (NamedTable ServiceProgram)
  procedures : List (NamedTable StoredProcedure)
  indexes : List TableIndex
  deriving DecidableEq, Repr

namespace Database

/-- The database without tables. -/
def empty : Database := ⟨[], [], []⟩

/-- The table goes by the given name. -/
def isNamed {ρ : Type} (name : String) (t : NamedTable ρ) : Bool := sameName t.name name

/-- There is a table of the given name. -/
def hasTable (db : Database) (name : String) : Bool :=
  db.programs.any (isNamed name) || db.procedures.any (isNamed name)

/-- There is an index of the given name. -/
def hasIndex (db : Database) (name : String) : Bool :=
  db.indexes.any fun i => sameName i.name name

/-! ## Creating and dropping -/

/-- Why the database does not create tables. -/
def createFailure : CatalogError := .migration .create

/-- The table is there, or its name is free to create it. -/
def claim (db : Database) (p : TablePrefix) (name : String) (create : Database) :
    Except CatalogError Database :=
  if p.isReserved then .error createFailure
  else if db.hasTable name then .ok db
  else if db.hasIndex name then .error createFailure
  else .ok create

/-- The database with the table of service programs. -/
def createPrograms (p : TablePrefix) (db : Database) : Except CatalogError Database :=
  db.claim p p.programTable { db with programs := db.programs ++ [⟨p.programTable, []⟩] }

/-- The database with the table of procedures. -/
def createProcedures (p : TablePrefix) (db : Database) : Except CatalogError Database :=
  db.claim p p.procedureTable { db with procedures := db.procedures ++ [⟨p.procedureTable, []⟩] }

/-- The database with an index of the table of procedures. -/
def createIndex (p : TablePrefix) (name : String) (db : Database) :
    Except CatalogError Database :=
  if db.hasTable name then .error createFailure
  else if db.hasIndex name then .ok db
  else .ok { db with indexes := db.indexes ++ [⟨name, p.procedureTable⟩] }

/-- The database with all tables and indexes of a catalog. What is there stays. -/
def up (p : TablePrefix) (db : Database) : Except CatalogError Database :=
  if p.isReadable then do
    let db ← db.createPrograms p
    let db ← db.createProcedures p
    let db ← db.createIndex p p.programIndex
    db.createIndex p p.nameIndex
  else .error createFailure

/-- The database without the table of the given name and its indexes. -/
def dropTable (name : String) (db : Database) : Database where
  programs := db.programs.filter fun t => !isNamed name t
  procedures := db.procedures.filter fun t => !isNamed name t
  indexes := db.indexes.filter fun i => !sameName i.table name

/-- The database without the tables of a catalog. -/
def down (p : TablePrefix) (db : Database) : Except CatalogError Database :=
  if p.isReadable then .ok ((db.dropTable p.procedureTable).dropTable p.programTable)
  else .error (.migration .drop)

/-! ## The rows of a catalog -/

/-- The table that a statement names first. -/
inductive FirstTable where
  | programs
  | procedures
  deriving DecidableEq, Repr

/-- The rows of a catalog. A table that is missing is reported under the name that the statement
uses for it. -/
def catalog (db : Database) (p : TablePrefix) (first : FirstTable) : Except CatalogError Catalog :=
  if p.isReadable then
    match db.programs.find? (isNamed p.programTable),
        db.procedures.find? (isNamed p.procedureTable), first with
    | some programs, some procedures, _ => .ok ⟨programs.rows, procedures.rows⟩
    | none, some _, _ => .error (.statement (.noSuchTable p.programTable))
    | some _, none, _ => .error (.statement (.noSuchTable p.procedureTable))
    | none, none, .programs => .error (.statement (.noSuchTable p.programTable))
    | none, none, .procedures => .error (.statement (.noSuchTable p.procedureTable))
  else .error (.statement .unreadable)

/-- The table with other rows, if it goes by the given name. -/
def setRows {ρ : Type} (name : String) (rows : List ρ) (t : NamedTable ρ) : NamedTable ρ :=
  if isNamed name t then { t with rows := rows } else t

/-- The database with other rows in the tables of a catalog. -/
def store (db : Database) (p : TablePrefix) (c : Catalog) : Database :=
  { db with
    programs := db.programs.map (setRows p.programTable c.programs)
    procedures := db.procedures.map (setRows p.procedureTable c.procedures) }

/-- The answer of an operation that only reads. -/
def read {α : Type} (db : Database) (p : TablePrefix) (first : FirstTable)
    (operation : Catalog → Except CatalogError α) : Except CatalogError α := do
  operation (← db.catalog p first)

/-- The database after an operation, and its answer. -/
def write {α : Type} (db : Database) (p : TablePrefix) (first : FirstTable)
    (operation : Catalog → Except CatalogError (Catalog × α)) :
    Except CatalogError (Database × α) := do
  let (c, answer) ← operation (← db.catalog p first)
  return (db.store p c, answer)

/-! ## Status -/

/-- The table of procedures is there under its exact name. -/
def tablesExist (db : Database) (p : TablePrefix) : Bool :=
  db.procedures.any (·.name == p.procedureTable)

/-- The counts of a catalog. -/
structure Status where
  tablesExist : Bool
  programCount : Nat
  procedureCount : Nat
  describedCount : Nat
  deriving DecidableEq, Repr

/-- The status of a catalog without tables. -/
def Status.absent : Status := ⟨false, 0, 0, 0⟩

/-- The counts of a catalog; all zero when its tables do not exist. -/
def status (db : Database) (p : TablePrefix) : Except CatalogError Status :=
  if db.tablesExist p then
    db.read p .programs fun c =>
      .ok ⟨true, c.programs.length, c.procedures.length, c.procedures.countP (·.hasText)⟩
  else .ok .absent

/-- The database with all rows of a catalog removed, and how many service programs there were. -/
def clear (db : Database) (p : TablePrefix) : Except CatalogError (Database × Nat) :=
  if db.tablesExist p then
    db.write p .procedures fun c => .ok (.empty, c.programs.length)
  else .ok (db, 0)

end Database

end ProcedureCatalog
