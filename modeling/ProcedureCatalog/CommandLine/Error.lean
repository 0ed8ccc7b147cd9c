/-
# Errors of commands

Why a command of the program fails, and the wording of it.
-/
import ProcedureCatalog.Catalog.Error
import ProcedureCatalog.Host.Error

namespace ProcedureCatalog.CommandLine

/-- Why a command fails. -/
inductive CommandError where
  | settings (path : String) (error : RemoteError)
  | host (error : RemoteError)
  | catalog (error : CatalogError)
  | databaseDirectory (path : String) (error : FileError)
  | openDatabase (path : String)
  | prepareTables (error : CatalogError)
  | createTables (error : CatalogError)
  | clear (error : CatalogError)
  | status (error : CatalogError)
  | sync (error : CatalogError)
  | readFile (path : String) (error : FileError)
  | readInput (error : FileError)
  /-- Some service programs could not be filled in. -/
  | fills (failed total : Nat)
  | programNotListed (library program : String)
  | procedureNotListed (library program procedure : String)
  /-- A library is given without a service program. -/
  | halfTarget
  | noNames
  deriving DecidableEq, Repr

/-- The wording of an error. -/
def CommandError.message : CommandError → String
  | .settings path error => "Failed to load config '" ++ path ++ "': " ++ error.message
  | .host error => error.message
  | .catalog error => error.message
  | .databaseDirectory path error =>
    "Failed to create database directory '" ++ path ++ "': " ++ error.message
  | .openDatabase path =>
    "Failed to open database '" ++ path ++ "': unable to open database file: " ++ path
  | .prepareTables error => "Failed to initialize migration: " ++ error.message
  | .createTables error => "Migration up failed: " ++ error.message
  | .clear error => "Clear failed: " ++ error.message
  | .status error => "Failed to get catalog status: " ++ error.message
  | .sync error => "Sync failed: " ++ error.message
  | .readFile path error => "Failed to read '" ++ path ++ "': " ++ error.message
  | .readInput error => "Failed to read stdin: " ++ error.message
  | .fills failed total =>
    toString failed ++ " of " ++ toString total ++ " service program(s) failed"
  | .programNotListed library program =>
    "Service program " ++ library ++ "/" ++ program ++ " is not in the catalog"
  | .procedureNotListed library program procedure =>
    "Procedure " ++ procedure ++ " of " ++ library ++ "/" ++ program ++ " is not in the catalog"
  | .halfTarget => "shorten needs both a library and a service program, or neither"
  | .noNames => "No procedure names to look for"

end ProcedureCatalog.CommandLine
