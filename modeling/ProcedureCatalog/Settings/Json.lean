/-
# Settings in JSON

The JSON objects of settings. A member that is absent has its default; unknown members are
ignored; an optional text may be `null`.
-/
import ProcedureCatalog.Json.Basic
import ProcedureCatalog.Settings.Basic

namespace ProcedureCatalog

open Json

/-- A number below `bound`; the default when it is absent, `none` when it is anything else. -/
def boundedNumber? (members : List (String × Json)) (name : String) (bound default : Nat) :
    Option Nat :=
  match field? members name with
  | none => some default
  | some (.number n) => if n < bound then some n else none
  | some _ => none

/-- A text; the default when it is absent, `none` when it is anything else. -/
def textOr? (members : List (String × Json)) (name default : String) : Option String :=
  match field? members name with
  | none => some default
  | some (.string text) => some text
  | some _ => none

/-- The settings that an object holds. -/
def HostSettings.ofJson? : Json → Option HostSettings
  | .object members => do
    let host ← optionalString? members "host"
    let port ← boundedNumber? members "port" portLimit HostSettings.default.port
    let user ← optionalString? members "user"
    let key ← optionalString? members "key"
    let passwordVariable ← optionalString? members "password_env"
    let timeout ← boundedNumber? members "timeout_ms" timeoutLimit HostSettings.default.timeout
    return ⟨host, port, user, key, passwordVariable, timeout⟩
  | _ => none

/-- The settings as an object, without the texts that are not set. -/
def HostSettings.toJson (s : HostSettings) : Json :=
  .object (member? "host" (s.host.map .string) ++ [("port", .number s.port)] ++
    member? "user" (s.user.map .string) ++ member? "key" (s.key.map .string) ++
    member? "password_env" (s.passwordVariable.map .string) ++
    [("timeout_ms", .number s.timeout)])

/-- The settings that an object holds. -/
def CatalogSettings.ofJson? : Json → Option CatalogSettings
  | .object members => do
    let path ← textOr? members "db_path" CatalogSettings.default.path
    let tablePrefix ← textOr? members "prefix" CatalogSettings.default.tablePrefix
    let sourceFile ← textOr? members "source_file" CatalogSettings.default.sourceFile
    return ⟨path, tablePrefix, sourceFile⟩
  | _ => none

/-- The settings as an object. -/
def CatalogSettings.toJson (s : CatalogSettings) : Json :=
  .object [("db_path", .string s.path), ("prefix", .string s.tablePrefix),
    ("source_file", .string s.sourceFile)]

/-- The settings that an object holds. -/
def Settings.ofJson? : Json → Option Settings
  | .object members => do
    let host ← (field? members "host").elim (some .default) HostSettings.ofJson?
    let catalog ← (field? members "catalog").elim (some .default) CatalogSettings.ofJson?
    return ⟨host, catalog⟩
  | _ => none

/-- The settings as an object. -/
def Settings.toJson (s : Settings) : Json :=
  .object [("host", s.host.toJson), ("catalog", s.catalog.toJson)]

end ProcedureCatalog
