/-
# Shell commands

Every remote operation is one command of the shell `qsh`: SQL goes through `db2`, commands of the
system through `system`. Names are validated before they go into a command.
-/
import ProcedureCatalog.Host.Error
import ProcedureCatalog.Host.Statement
import ProcedureCatalog.Text.Blank

namespace ProcedureCatalog.Host

/-! ## The two shells -/

/-- The shell command for an SQL statement, trimmed and not empty. -/
def db2Script (statement : String) : String :=
  "qsh -c \"db2 \\\"" ++ doubleQuoted statement ++ "\\\"\""

/-- The shell command for an SQL text. -/
def db2Command (sql : String) : Except RemoteError String :=
  let statement := Text.trimmed sql
  if statement.isEmpty then .error (.emptyInput "SQL") else .ok (db2Script statement)

/-- The shell command for a command of the system. -/
def systemCommand (command : String) : String :=
  "qsh -c 'system \"" ++ singleQuoted command ++ "\"'"

/-! ## Output files -/

/-- A command of the system that fills an output file, and the statement that reads the file. -/
structure OutfileQuery where
  command : String
  sql : String
  deriving DecidableEq, Repr

/-- A name that passes validation. -/
def validName (kind : ObjectKind) (name : String) : Except RemoteError Unit :=
  (ObjectName.validate kind name).mapError .invalidName

/-- The members of a file. -/
def fileMembers (library file outputLibrary : String) : Except RemoteError OutfileQuery := do
  validName .library library
  validName .file file
  validName .library outputLibrary
  return ⟨systemCommand ("DSPFD FILE(" ++ library ++ "/" ++ file ++
      ") TYPE(*MBRLIST) OUTPUT(*OUTFILE) OUTFILE(" ++ outputLibrary ++ "/MBRLIST)"),
    "SELECT MBMEMBER FROM " ++ outputLibrary ++ ".MBRLIST ORDER BY MBMEMBER"⟩

/-- The files and programs that depend on a file. -/
def databaseRelations (library file outputLibrary : String) :
    Except RemoteError OutfileQuery := do
  validName .library library
  validName .file file
  validName .library outputLibrary
  return ⟨systemCommand ("DSPDBR FILE(" ++ library ++ "/" ++ file ++
      ") OUTPUT(*OUTFILE) OUTFILE(" ++ outputLibrary ++ "/TMPDBR)"),
    "SELECT * FROM " ++ outputLibrary ++ ".TMPDBR"⟩

/-- The objects that a program refers to. -/
def programReferences (library program outputLibrary : String) :
    Except RemoteError OutfileQuery := do
  validName .library library
  validName .object program
  validName .library outputLibrary
  return ⟨systemCommand ("DSPPGMREF PGM(" ++ library ++ "/" ++ program ++
      ") OUTPUT(*OUTFILE) OUTFILE(" ++ outputLibrary ++ "/TMPPGR)"),
    "SELECT * FROM " ++ outputLibrary ++ ".TMPPGR"⟩

/-! ## Source members -/

/-- The stream file that a member is copied to. -/
def sourceStreamFile (library file member : String) : String :=
  "/tmp/srcread_" ++ library ++ "_" ++ file ++ "_" ++ member ++ ".txt"

/-- The command of the system that copies a member to its stream file. -/
def copyMember (library file member : String) : String :=
  "CPYTOSTMF FROMMBR('/QSYS.LIB/" ++ library ++ ".LIB/" ++ file ++ ".FILE/" ++ member ++
    ".MBR') TOSTMF('" ++ sourceStreamFile library file member ++ "') STMFOPT(*REPLACE)"

/-- The shell command that prints a source member. -/
def readSourceCommand (library file member : String) : Except RemoteError String := do
  validName .library library
  validName .file file
  validName .member member
  return "qsh -c 'system \"" ++ singleQuoted (copyMember library file member) ++
    "\" && cat \"" ++ sourceStreamFile library file member ++ "\"'"

end ProcedureCatalog.Host
