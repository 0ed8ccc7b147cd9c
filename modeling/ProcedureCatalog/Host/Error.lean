/-
# Errors of remote work

The causes for which work on the remote host, or with the configuration for it, fails.
-/
import ProcedureCatalog.ObjectName

namespace ProcedureCatalog

/-- Why a file or a program cannot be used. -/
inductive FileError where
  | notFound
  | notADirectory
  | isADirectory
  | fileExists
  | permissionDenied
  | invalidText
  | other (text : String)
  deriving DecidableEq, Repr

/-- The wording of a file error. -/
def FileError.message : FileError → String
  | .notFound => "No such file or directory (os error 2)"
  | .permissionDenied => "Permission denied (os error 13)"
  | .fileExists => "File exists (os error 17)"
  | .notADirectory => "Not a directory (os error 20)"
  | .isADirectory => "Is a directory (os error 21)"
  | .invalidText => "stream did not contain valid UTF-8"
  | .other text => text

/-- Why remote work fails. -/
inductive RemoteError where
  | io (error : FileError)
  | yaml
  | timeout (milliseconds : Nat)
  /-- The command ended with a status other than zero and wrote to its error output. -/
  | commandFailed (status : Int) (stderr : String)
  | missingHost
  | missingUser
  | missingPassword (name : String)
  | emptyInput (what : String)
  | invalidName (error : NameError)
  deriving DecidableEq, Repr

/-- The wording of an error. -/
def RemoteError.message : RemoteError → String
  | .io error => "I/O error: " ++ error.message
  | .yaml => "YAML error: "
  | .timeout milliseconds => "command timed out after " ++ toString milliseconds ++ "ms"
  | .commandFailed status stderr => "exit " ++ toString status ++ ":\n" ++ stderr
  | .missingHost => "missing remote host (use --host or host.host in the config file)"
  | .missingUser => "missing remote user (use --user or host.user in the config file)"
  | .missingPassword name => "environment variable " ++ name ++ " is not set"
  | .emptyInput what => what ++ " cannot be empty"
  | .invalidName error => error.message

end ProcedureCatalog
