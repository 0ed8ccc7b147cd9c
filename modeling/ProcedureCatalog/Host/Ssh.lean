/-
# Reaching the host

The local program that runs a command on the host: `ssh`, or `sshpass` with the password in its
environment.
-/
import ProcedureCatalog.Host.Error
import ProcedureCatalog.Settings.Basic
import ProcedureCatalog.Text.Blank

namespace ProcedureCatalog.Host

/-- A local program with its first arguments; the command to run comes after them. `timeout` is in
milliseconds. -/
structure Invocation where
  program : String
  arguments : List String
  environment : List (String × String)
  timeout : Nat
  deriving DecidableEq, Repr

/-- The value of an environment variable. A name that is empty or holds `=` names none. -/
def lookupVariable (environment : List (String × String)) (name : String) : Option String :=
  if name.isEmpty || name.toList.contains '=' then none else environment.lookup name

/-- A setting that is not blank, trimmed. -/
def nonblank? (text : Option String) : Option String :=
  (text.map Text.trimmed).filter (!·.isEmpty)

/-- The seconds to wait for a connection: the timeout in whole seconds, at least one. -/
def connectSeconds (milliseconds : Nat) : Nat := max 1 ((milliseconds + 999) / 1000)

/-- The program that gets the password from the environment, or that must not ask for one. -/
def invocationStart (settings : HostSettings) (lookup : String → Option String) :
    Except RemoteError Invocation :=
  match settings.passwordVariable with
  | some name =>
    match lookup name with
    | some password => .ok ⟨"sshpass", ["-e", "ssh"], [("SSHPASS", password)], settings.timeout⟩
    | none => .error (.missingPassword name)
  | none => .ok ⟨"ssh", ["-o", "BatchMode=yes"], [], settings.timeout⟩

/-- The arguments that name a private key. -/
def keyArguments (key : Option String) : List String :=
  match key with
  | some path => ["-i", path]
  | none => []

/-- The program that runs commands on the host. `lookup` gives the values of environment
variables. -/
def sshInvocation (settings : HostSettings) (lookup : String → Option String) :
    Except RemoteError Invocation :=
  match nonblank? settings.host, nonblank? settings.user with
  | none, _ => .error .missingHost
  | some _, none => .error .missingUser
  | some host, some user => do
    let start ← invocationStart settings lookup
    return { start with
      arguments := start.arguments ++
        ["-o", "ConnectTimeout=" ++ toString (connectSeconds settings.timeout),
          "-p", toString settings.port] ++
        keyArguments settings.key ++ [user ++ "@" ++ host] }

end ProcedureCatalog.Host
