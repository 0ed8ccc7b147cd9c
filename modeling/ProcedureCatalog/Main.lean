/-
# The program

The command line on the files, the environment and the clock of the computer. Programs cannot be
started from here: every one counts as missing.
-/
import ProcedureCatalog.Catalog.DatabaseText
import ProcedureCatalog.CommandLine.Perform
import Std.Time

namespace ProcedureCatalog.CommandLine

/-- Why an operation on files failed. -/
def fileError : IO.Error → FileError
  | .noFileOrDirectory _ _ _ => .notFound
  | .permissionDenied _ _ _ => .permissionDenied
  | .alreadyExists _ _ _ => .fileExists
  | .inappropriateType _ code _ => if code == 20 then .notADirectory else .isADirectory
  | error => .other error.toString

/-- The result of an operation on files. -/
def attempt {α : Type} (operation : IO α) : IO (Except FileError α) := do
  try
    return .ok (← operation)
  catch error => return .error (fileError error)

/-- The bytes of a file. -/
def fileBytes (path : String) : IO (Except FileError (List UInt8)) :=
  attempt do return (← IO.FS.readBinFile path).toList

/-- The database that the bytes of a file hold. -/
def databaseOfBytes (bytes : List UInt8) : DatabaseFile :=
  match (Text.decode? bytes).bind fun cs => Database.ofText? (.ofList cs) with
  | some db => .database db
  | none => .foreign

/-- The database file at a path, created if it is missing. -/
def openDatabaseFile (path : String) : IO (Option DatabaseFile) := do
  match ← fileBytes path with
  | .ok bytes => return some (databaseOfBytes bytes)
  | .error .notFound =>
    match ← attempt (IO.FS.writeFile path "") with
    | .ok () => return some (.database .empty)
    | .error _ => return none
  | .error _ => return none

/-- The date and the time of the day, in universal time. -/
def universalTime : IO String := do
  let now ← Std.Time.Timestamp.now
  return (Std.Time.DateTime.ofTimestamp now .UTC).format "uuuu-MM-dd HH:mm:ss"

/-- The computer. -/
def computer : System IO where
  readFile := fileBytes
  pathExists path := do
    match ← attempt (IO.FS.Handle.mk path .read) with
    | .ok _ => return true
    | .error .isADirectory => return true
    | .error _ => return false
  createDirectories path := attempt (IO.FS.createDirAll path)
  openDatabase := openDatabaseFile
  saveDatabase path db := IO.FS.writeFile path db.toText
  lookupVariable name := IO.getEnv name
  runProgram _ _ := return .error (.io .notFound)
  readInput := do
    match ← fileBytes "/dev/stdin" with
    | .ok bytes => return bytes
    | .error _ => return []
  now := universalTime

end ProcedureCatalog.CommandLine

/-- Carries out the command of the arguments. -/
def main (arguments : List String) : IO UInt32 := do
  let outcome ← ProcedureCatalog.CommandLine.run ProcedureCatalog.CommandLine.computer arguments
  IO.print outcome.output
  IO.eprint outcome.errors
  return outcome.status.toUInt32
