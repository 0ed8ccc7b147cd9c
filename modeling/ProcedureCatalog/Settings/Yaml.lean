/-
# Settings in YAML

The settings file: a section for the host and one for the catalog.

* A section or a field that is missing has its default, and so has a section without a value; other
  fields are ignored; no field of a section may come twice.
* An optional text is not set where nothing or a plain `null` is written.
* A number is a plain scalar.

`Settings.ofDocument?` reads what `Settings.sections` gives.
-/
import ProcedureCatalog.Settings.Basic
import ProcedureCatalog.Yaml.Printing

namespace ProcedureCatalog

open Yaml

/-! ## Reading -/

/-- The tag of no value. -/
def nullTag : String := "tag:yaml.org,2002:null"

/-- The tag of integers. -/
def integerTag : String := "tag:yaml.org,2002:int"

/-- A text: any scalar. -/
def textOfNode? : Node → Option String
  | .scalar _ _ text => some text
  | _ => none

/-- A text that may be missing. -/
def optionalTextOfNode? : Node → Option (Option String)
  | .scalar .plain none text =>
    some (if text.isEmpty || nullWords.contains text then none else some text)
  | .scalar .plain (some tag) text =>
    if tag == nullTag then if nullWords.contains text then some none else none
    else some (if text.isEmpty then none else some text)
  | .scalar _ _ text => some (some text)
  | _ => none

/-- A number below `bound`. -/
def numberOfNode? (bound : Nat) : Node → Option Nat
  | .scalar .plain _ text => (unsigned? text).filter (· < bound)
  | .scalar .literal (some tag) text =>
    if tag == integerTag then (unsigned? text).filter (· < bound) else none
  | _ => none

/-- The fields of a section with the given names. An empty scalar has none. -/
def fieldsOfNode? (document : Document) (names : List String) (node : Node) : Option Fields :=
  match document.follow node with
  | .mapping pairs => do
    let named ← pairs.mapM fun (key, value) =>
      (textOfNode? (document.follow key)).map (·, document.follow value)
    let known := named.filter fun (name, _) => names.contains name
    if (known.map (·.1)).Nodup then return known else failure
  | .scalar _ _ text => if text.isEmpty then some [] else none
  | _ => none

/-- The value of a field, or `default` if it is missing. -/
def fieldOr? {α : Type} (fields : Fields) (read : Node → Option α) (name : String) (default : α) :
    Option α :=
  (fields.lookup name).elim (some default) read

/-- The settings of the host's section. -/
def HostSettings.ofNode? (document : Document) (node : Node) : Option HostSettings := do
  let fields ← fieldsOfNode? document
    ["host", "port", "user", "key", "password_env", "timeout_ms"] node
  let host ← fieldOr? fields optionalTextOfNode? "host" default.host
  let port ← fieldOr? fields (numberOfNode? portLimit) "port" default.port
  let user ← fieldOr? fields optionalTextOfNode? "user" default.user
  let key ← fieldOr? fields optionalTextOfNode? "key" default.key
  let passwordVariable ← fieldOr? fields optionalTextOfNode? "password_env" default.passwordVariable
  let timeout ← fieldOr? fields (numberOfNode? timeoutLimit) "timeout_ms" default.timeout
  return ⟨host, port, user, key, passwordVariable, timeout⟩

/-- The settings of the catalog's section. -/
def CatalogSettings.ofNode? (document : Document) (node : Node) : Option CatalogSettings := do
  let fields ← fieldsOfNode? document ["db_path", "prefix", "source_file"] node
  let path ← fieldOr? fields textOfNode? "db_path" default.path
  let tablePrefix ← fieldOr? fields textOfNode? "prefix" default.tablePrefix
  let sourceFile ← fieldOr? fields textOfNode? "source_file" default.sourceFile
  return ⟨path, tablePrefix, sourceFile⟩

/-- The settings that a document holds. -/
def Settings.ofDocument? (document : Document) : Option Settings := do
  let sections ← fieldsOfNode? document ["host", "catalog"] document.root
  let host ← fieldOr? sections (HostSettings.ofNode? document) "host" .default
  let catalog ← fieldOr? sections (CatalogSettings.ofNode? document) "catalog" .default
  return ⟨host, catalog⟩

/-- The settings that a settings file gives. -/
def Settings.ofYaml? (text : String) : Option Settings :=
  (Document.parse? text).bind Settings.ofDocument?

/-! ## Writing -/

/-- A field with a text, when there is one. -/
def optionalField (name : String) (text : Option String) : Fields :=
  text.toList.map fun text => (name, .ofText text)

/-- The fields of the host's section. -/
def HostSettings.fields (s : HostSettings) : Fields :=
  optionalField "host" s.host ++ [("port", .ofNumber s.port)] ++ optionalField "user" s.user ++
    optionalField "key" s.key ++ optionalField "password_env" s.passwordVariable ++
    [("timeout_ms", .ofNumber s.timeout)]

/-- The fields of the catalog's section. -/
def CatalogSettings.fields (s : CatalogSettings) : Fields :=
  [("db_path", .ofText s.path), ("prefix", .ofText s.tablePrefix),
    ("source_file", .ofText s.sourceFile)]

/-- The sections of a settings file. -/
def Settings.sections (s : Settings) : List (String × Fields) :=
  [("host", s.host.fields), ("catalog", s.catalog.fields)]

/-- The text of a settings file. -/
def Settings.toYaml (s : Settings) : String := render s.sections

end ProcedureCatalog
