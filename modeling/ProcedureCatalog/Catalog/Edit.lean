/-
# Direct edits

Changes to single columns that pass by the rules for descriptions, as an administrator of the
database makes them.
-/
import ProcedureCatalog.Catalog.Sync

namespace ProcedureCatalog.Catalog

/-- The catalog with the same stamp on all rows. -/
def stampAll (c : Catalog) (stamp : String) : Catalog where
  programs := c.programs.map fun p => { p with updatedAt := some stamp }
  procedures := c.procedures.map fun r => { r with updatedAt := stamp }

/-- The source may be stored in a column that is checked. -/
def isKnownSource (source : Option String) : Bool :=
  source.all fun text => (DescriptionSource.ofIdentifier? text).isSome

/-- The catalog with another description and source of one procedure, and the number of rows
changed. A checked column refuses an unknown source. -/
def overwriteDescription (c : Catalog) (library program name : String)
    (description source : Option String) (checked : Bool) : Except CatalogError (Catalog × Nat) :=
  let key := [library, program, name]
  let edit (r : StoredProcedure) : StoredProcedure :=
    { r with description := description, source := source }
  match Table.find? StoredProcedure.key c.procedures key with
  | none => .ok (c, 0)
  | some _ =>
    if checked && !isKnownSource source then .error (.statement .checkFailed)
    else .ok ({ c with procedures := Table.update StoredProcedure.key key edit c.procedures }, 1)

/-- The catalog with other notes of one service program and, when given, another source file and
checksum, and the number of rows changed. -/
def overwriteProgram (c : Catalog) (library name : String)
    (notes sourceFile checksum : Option String) : Catalog × Nat :=
  let edit (p : ServiceProgram) : ServiceProgram :=
    { p with
      notes := notes
      sourceFile := sourceFile.getD p.sourceFile
      checksum := checksum.or p.checksum }
  match c.program? library name with
  | none => (c, 0)
  | some _ => (c.changeProgram library name edit, 1)

end ProcedureCatalog.Catalog
