/-
# The system

What commands ask of the system that they run on, and what they print.

* `System m` holds the files, the environment, the programs and the clock, over any monad `m`.
* An `Activity m` is a part of a command: it prints, and it may fail.
-/
import ProcedureCatalog.Catalog.Database
import ProcedureCatalog.CommandLine.Error
import ProcedureCatalog.Host.Ssh

namespace ProcedureCatalog.CommandLine

/-- What is found in a database file: a database, or something else. -/
inductive DatabaseFile where
  | database (db : Database)
  | foreign
  deriving DecidableEq, Repr

/-- The system that commands run on. -/
structure System (m : Type → Type) where
  readFile : (path : String) → m (Except FileError (List UInt8))
  pathExists : (path : String) → m Bool
  /-- Creates a directory and the ones around it, unless they are there. -/
  createDirectories : (path : String) → m (Except FileError Unit)
  /-- Opens a database file; one that is missing is created without tables. -/
  openDatabase : (path : String) → m (Option DatabaseFile)
  saveDatabase : (path : String) → Database → m Unit
  lookupVariable : (name : String) → m (Option String)
  /-- Runs a program with a command as its last argument. -/
  runProgram : Host.Invocation → (command : String) → m (Except RemoteError String)
  readInput : m (List UInt8)
  /-- The date and the time of the day. -/
  now : m String

/-- What has been printed. -/
structure Printed where
  output : List String
  errors : List String
  deriving DecidableEq, Repr

/-- A part of a command. -/
abbrev Activity (m : Type → Type) := ExceptT CommandError (StateT Printed m)

namespace Activity

variable {m : Type → Type} [Monad m]

/-- A step of the system. -/
def ask {α : Type} (step : m α) : Activity m α := ExceptT.lift (StateT.lift step)

/-- Prints a text. -/
def print (text : String) : Activity m Unit :=
  modify fun printed => { printed with output := text :: printed.output }

/-- Prints a line. -/
def printLine (text : String) : Activity m Unit := print (text ++ "\n")

/-- Prints a line to the error output. -/
def printError (text : String) : Activity m Unit :=
  modify fun printed => { printed with errors := (text ++ "\n") :: printed.errors }

/-- A result, whose error is to be reported as `wrap` says. -/
def settle {ε α : Type} (wrap : ε → CommandError) (result : Except ε α) : Activity m α :=
  match result with
  | .ok value => pure value
  | .error error => throw (wrap error)

end Activity

end ProcedureCatalog.CommandLine
