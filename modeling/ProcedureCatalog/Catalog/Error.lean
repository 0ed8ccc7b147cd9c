/-
# Catalog errors

The causes for which an operation on a catalog fails, and their wording.
-/
import ProcedureCatalog.DescriptionSource
import ProcedureCatalog.ObjectName

namespace ProcedureCatalog

/-- Why the database refuses a statement. -/
inductive StatementFault where
  /-- A table that the statement names does not exist. -/
  | noSuchTable (table : String)
  /-- The statement cannot be read, because a table name in it starts with a digit. -/
  | unreadable
  /-- A row would hold an unknown description source. -/
  | checkFailed
  /-- The pattern of a search has too many bytes. -/
  | patternTooLong
  /-- What is to be the database is another kind of file. -/
  | notADatabase
  deriving DecidableEq, Repr

/-- The wording of a refusal. -/
def StatementFault.message : StatementFault → String
  | .noSuchTable table => "no such table: " ++ table
  | .unreadable => "unrecognized token"
  | .checkFailed => "CHECK constraint failed"
  | .patternTooLong => "LIKE or GLOB pattern too complex"
  | .notADatabase => "file is not a database"

/-- Why tables cannot be created or dropped. -/
inductive MigrationFault where
  | create
  | drop
  deriving DecidableEq, Repr

/-- Why an operation on a catalog fails. -/
inductive CatalogError where
  | statement (fault : StatementFault)
  | unknownSource (text : String)
  | migration (fault : MigrationFault)
  | invalidPrefix (text : String)
  | invalidName (error : NameError)
  | programNotFound (library name : String)
  deriving DecidableEq, Repr

/-- The wording of an error. -/
def CatalogError.message : CatalogError → String
  | .statement fault => "database error: " ++ fault.message
  | .unknownSource text => "conversion error: " ++ DescriptionSource.unknownMessage text
  | .migration .create => "migration error: failed to create tables: "
  | .migration .drop => "migration error: failed to drop tables: "
  | .invalidPrefix text =>
    "invalid prefix '" ++ text ++ "': must contain only alphanumeric characters and underscores"
  | .invalidName error => error.message
  | .programNotFound library name => "service program not found: " ++ library ++ "/" ++ name

end ProcedureCatalog
