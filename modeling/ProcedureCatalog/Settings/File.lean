/-
# The settings file

Reading the settings from a file that may be missing.
-/
import ProcedureCatalog.Host.Error
import ProcedureCatalog.Settings.Yaml
import ProcedureCatalog.Yaml.Encoding

namespace ProcedureCatalog.Settings

/-- The settings in the bytes of a file. -/
def ofBytes? (bytes : List UInt8) : Option Settings :=
  (Yaml.decodeFile? bytes).bind fun text => ofYaml? (.ofList text)

/-- The settings in a file. Something that is there but no file holds no settings. -/
def load (file : Except FileError (List UInt8)) : Except RemoteError Settings :=
  match file with
  | .ok bytes => (ofBytes? bytes).elim (.error .yaml) .ok
  | .error .isADirectory => .error .yaml
  | .error error => .error (.io error)

/-- The settings in a file, or the default ones where there is none. -/
def loadOrDefault (file : Except FileError (List UInt8)) : Except RemoteError Settings :=
  match file with
  | .error .notFound => .ok .default
  | .error .notADirectory => .ok .default
  | file => load file

end ProcedureCatalog.Settings
