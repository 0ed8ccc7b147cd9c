/-
# Catalogs

The rows of a catalog: service programs, and the procedures that they export.

* `Catalog` holds both tables, each ordered by its key.
* `summaries`, `procedures`, `procedureNames` and `search` read them.
-/
import ProcedureCatalog.Catalog.Error
import ProcedureCatalog.Catalog.Like
import ProcedureCatalog.Catalog.Table
import ProcedureCatalog.Record.Basic

namespace ProcedureCatalog

/-! ## Rows -/

/-- A procedure as it is stored: `source` is an identifier, which need not be known. -/
structure StoredProcedure where
  library : String
  program : String
  name : String
  description : Option String
  source : Option String
  updatedAt : String
  deriving DecidableEq, Repr

namespace StoredProcedure

/-- A procedure without description. -/
def new (library program name now : String) : StoredProcedure :=
  ⟨library, program, name, none, none, now⟩

/-- The key of a procedure. -/
def key (r : StoredProcedure) : Table.Key := [r.library, r.program, r.name]

/-- The procedure belongs to the service program. -/
def belongsTo (library program : String) (r : StoredProcedure) : Bool :=
  r.library == library && r.program == program

/-- The description was written by hand. -/
def isManual (r : StoredProcedure) : Bool :=
  r.source == some DescriptionSource.manual.identifier

/-- The description has a character other than a space. -/
def hasText (r : StoredProcedure) : Bool :=
  r.description.any fun text => text.toList.any (· != ' ')

/-- The description has a character other than a blank. -/
def isDescribed (r : StoredProcedure) : Bool :=
  r.description.any fun text => !Text.allBlank text.toList

/-- The procedure with a description and its source, stamped `now`. -/
def describe (text : String) (source : DescriptionSource) (now : String) (r : StoredProcedure) :
    StoredProcedure :=
  { r with description := some text, source := some source.identifier, updatedAt := now }

/-- The procedure without description, stamped `now`. -/
def clear (now : String) (r : StoredProcedure) : StoredProcedure :=
  { r with description := none, source := none, updatedAt := now }

/-- The record that readers see; an unknown source is an error. -/
def toRecord (r : StoredProcedure) : Except CatalogError ProcedureRecord :=
  match r.source with
  | none => .ok ⟨r.library, r.program, r.name, r.description, none, some r.updatedAt⟩
  | some text =>
    match DescriptionSource.ofIdentifier? text with
    | some source =>
      .ok ⟨r.library, r.program, r.name, r.description, some source, some r.updatedAt⟩
    | none => .error (.unknownSource text)

end StoredProcedure

/-- The key of a service program. -/
def ServiceProgram.key (p : ServiceProgram) : Table.Key := [p.library, p.name]

/-- A service program with the number of its procedures and of those with text. -/
structure ProgramSummary where
  program : ServiceProgram
  procedureCount : Nat
  describedCount : Nat
  deriving DecidableEq, Repr

/-! ## The two tables -/

/-- The rows of a catalog. -/
structure Catalog where
  programs : List ServiceProgram
  procedures : List StoredProcedure
  deriving DecidableEq, Repr

namespace Catalog

/-- The catalog without rows. -/
def empty : Catalog := ⟨[], []⟩

/-- The service program of the given name. -/
def program? (c : Catalog) (library name : String) : Option ServiceProgram :=
  Table.find? ServiceProgram.key c.programs [library, name]

/-- The stored procedures of a service program, in the order of their names. -/
def proceduresOf (c : Catalog) (library program : String) : List StoredProcedure :=
  c.procedures.filter (·.belongsTo library program)

/-- The procedures of a service program, in the order of their names. -/
def records (c : Catalog) (library program : String) : Except CatalogError (List ProcedureRecord) :=
  (c.proceduresOf library program).mapM StoredProcedure.toRecord

/-- The names of the procedures of a service program, in order. -/
def procedureNames (c : Catalog) (library program : String) : List String :=
  (c.proceduresOf library program).map (·.name)

/-- A service program with its counts. -/
def summary (c : Catalog) (p : ServiceProgram) : ProgramSummary :=
  let own := c.proceduresOf p.library p.name
  ⟨p, own.length, own.countP (·.hasText)⟩

/-- All service programs with their counts, in the order of library and name. -/
def summaries (c : Catalog) : List ProgramSummary := c.programs.map c.summary

/-- The name or the description of the procedure fits the pattern. -/
def isFound (pattern : List Char) (r : StoredProcedure) : Bool :=
  Like.fits pattern r.name.toList || r.description.any fun text => Like.fits pattern text.toList

/-- The procedures whose name or description contains the trimmed text, in the order of library,
service program and name. A pattern that is too long is refused by the first row it meets. -/
def search (c : Catalog) (text : String) : Except CatalogError (List ProcedureRecord) :=
  let pattern := Like.containing (Text.trim text.toList)
  if Like.isTooLong pattern && !c.procedures.isEmpty then .error (.statement .patternTooLong)
  else (c.procedures.filter (isFound pattern)).mapM StoredProcedure.toRecord

/-- The catalog with a change made to all procedures of one service program. -/
def changeProcedures (c : Catalog) (library program : String)
    (f : StoredProcedure → StoredProcedure) : Catalog :=
  { c with procedures := c.procedures.map fun r => if r.belongsTo library program then f r else r }

end Catalog

end ProcedureCatalog
