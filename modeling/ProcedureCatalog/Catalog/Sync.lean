/-
# Synchronising exports

`sync` makes the procedures of a service program those of an export listing. What stays keeps its
description; a new procedure makes the stored checksum void, because descriptions may now be found
for it. `delete` removes a service program and its procedures.
-/
import ProcedureCatalog.Catalog.Basic
import ProcedureCatalog.Text.Ordered

namespace ProcedureCatalog

/-- The outcome of a synchronisation. -/
structure SyncReport where
  total : Nat
  added : Nat
  removed : Nat
  deriving DecidableEq, Repr

namespace Catalog

/-- The catalog with a change made to one service program. -/
def changeProgram (c : Catalog) (library program : String)
    (f : ServiceProgram → ServiceProgram) : Catalog :=
  { c with programs := Table.update ServiceProgram.key [library, program] f c.programs }

/-- The catalog with a new service program. -/
def addProgram (c : Catalog) (p : ServiceProgram) : Catalog :=
  { c with programs := Table.insert ServiceProgram.key p c.programs }

/-- The catalog in which the service program exists and is stamped `now`. -/
def touchProgram (c : Catalog) (library program now : String) : Catalog :=
  match c.program? library program with
  | some _ => c.changeProgram library program fun p => { p with updatedAt := some now }
  | none => c.addProgram { ServiceProgram.new library program with updatedAt := some now }

/-- The catalog with a new undescribed procedure. -/
def addProcedure (c : Catalog) (library program name now : String) : Catalog :=
  let row := StoredProcedure.new library program name now
  { c with procedures := Table.insert StoredProcedure.key row c.procedures }

/-- The catalog without the procedures of the service program that are not wanted. -/
def keepOnly (c : Catalog) (library program : String) (wanted : List String) : Catalog :=
  let stays (r : StoredProcedure) : Bool := !r.belongsTo library program || wanted.contains r.name
  { c with procedures := c.procedures.filter stays }

/-- The catalog with another checksum of the service program. -/
def setChecksum (c : Catalog) (library program : String) (checksum : Option String) : Catalog :=
  c.changeProgram library program fun p => { p with checksum := checksum }

/-- The catalog in which the service program exports exactly the given symbols, trimmed and
without empty ones. -/
def sync (c : Catalog) (library program : String) (symbols : List String) (now : String) :
    Catalog × SyncReport :=
  let wanted := Text.orderedSet (Text.trimmedNonempty symbols)
  let existing := c.procedureNames library program
  let added := wanted.filter (!existing.contains ·)
  let removed := existing.filter (!wanted.contains ·)
  let touched := c.touchProgram library program now
  let grown := added.foldl (fun c name => c.addProcedure library program name now) touched
  let kept := grown.keepOnly library program wanted
  let voided := if added.isEmpty then kept else kept.setChecksum library program none
  (voided, ⟨wanted.length, added.length, removed.length⟩)

/-- The catalog without a service program and its procedures, and whether it was there. Procedures
that name a service program that is not there go as well, which a database that deletes through its
foreign key would leave; as long as the key holds there are none. -/
def delete (c : Catalog) (library program : String) : Catalog × Bool :=
  let programs := Table.remove ServiceProgram.key [library, program] c.programs
  let procedures := c.procedures.filter fun r => !r.belongsTo library program
  (⟨programs, procedures⟩, (c.program? library program).isSome)

end Catalog

end ProcedureCatalog
