/-
# Settings

The settings of the connection to the host and of the local catalog, with their defaults.
-/
import ProcedureCatalog.Record.Basic

namespace ProcedureCatalog

/-- How to reach the host. `passwordVariable` names the environment variable of the password. -/
structure HostSettings where
  host : Option String
  port : Nat
  user : Option String
  key : Option String
  passwordVariable : Option String
  timeout : Nat
  deriving DecidableEq, Repr

/-- The host is unknown, port 22, one minute for a command. -/
def HostSettings.default : HostSettings := ⟨none, 22, none, none, none, 60000⟩

/-- Where the catalog is and how its tables are named. -/
structure CatalogSettings where
  path : String
  tablePrefix : String
  sourceFile : String
  deriving DecidableEq, Repr

/-- The place, prefix and source file to use when none are given. -/
def CatalogSettings.default : CatalogSettings :=
  ⟨"data/svp_dict.sqlite", "svp_", defaultSourceFile⟩

/-- All settings. -/
structure Settings where
  host : HostSettings
  catalog : CatalogSettings
  deriving DecidableEq, Repr

/-- The default of every setting. -/
def Settings.default : Settings := ⟨.default, .default⟩

/-- The first number that is no port. -/
def portLimit : Nat := 1 <<< 16

/-- The first number that is no timeout. -/
def timeoutLimit : Nat := 1 <<< 64

end ProcedureCatalog
