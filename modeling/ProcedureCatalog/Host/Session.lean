/-
# Sessions

The operations on the remote host, over any way to run one command there.
-/
import ProcedureCatalog.ExportListing
import ProcedureCatalog.Host.Command

namespace ProcedureCatalog.Host

/-- Runs one command on the host and gives its output. -/
abbrev Runner (m : Type → Type) := String → ExceptT RemoteError m String

namespace Session

/-- A result that is there before any command is run. -/
def settled {m : Type → Type} [Monad m] {α : Type} (r : Except RemoteError α) :
    ExceptT RemoteError m α :=
  ExceptT.mk (pure r)

variable {m : Type → Type} [Monad m] (run : Runner m)

/-- Runs a shell command, trimmed, as it is. -/
def exec (command : String) : ExceptT RemoteError m String :=
  let trimmed := Text.trimmed command
  if trimmed.isEmpty then throw (.emptyInput "command") else run trimmed

/-- Runs an SQL text. -/
def query (sql : String) : ExceptT RemoteError m String := do
  run (← settled (db2Command sql))

/-- The columns of a table. -/
def describeTable (schema table : String) : ExceptT RemoteError m String :=
  query run (describeTableSql schema table)

/-- The tables of a schema. -/
def listTables (schema : String) (limit : Option Nat) : ExceptT RemoteError m String :=
  query run (listTablesSql schema limit)

/-- The tables whose name fits a pattern. -/
def findTable (pattern : String) (limit : Option Nat) : ExceptT RemoteError m String :=
  let trimmed := Text.trimmed pattern
  if trimmed.isEmpty then throw (.emptyInput "pattern") else query run (findTableSql trimmed limit)

/-- Fills an output file and, if that succeeds, reads it. -/
def outfile (q : Except RemoteError OutfileQuery) : ExceptT RemoteError m String := do
  let q ← settled q
  let _ ← run q.command
  query run q.sql

/-- The members of a file. -/
def listFileMembers (library file outputLibrary : String) : ExceptT RemoteError m String :=
  outfile run (fileMembers library file outputLibrary)

/-- The files and programs that depend on a file. -/
def tableDependents (library file outputLibrary : String) : ExceptT RemoteError m String :=
  outfile run (databaseRelations library file outputLibrary)

/-- The objects that a program refers to. -/
def listProgramReferences (library program outputLibrary : String) :
    ExceptT RemoteError m String :=
  outfile run (programReferences library program outputLibrary)

/-- The exported symbols of a service program with their usage. -/
def listExports (library program : String) : ExceptT RemoteError m String :=
  query run (listExportsSql library program)

/-- The names of the exported symbols of a service program, in capitals and in order. -/
def exportSymbols (library program : String) : ExceptT RemoteError m (List String) := do
  settled (validName .library library)
  settled (validName .object program)
  let listing ← query run (exportSymbolsSql library program)
  return ExportListing.symbols listing program

/-- The text of a source member. -/
def readSourceMember (library file member : String) : ExceptT RemoteError m String := do
  run (← settled (readSourceCommand library file member))

end Session

end ProcedureCatalog.Host
