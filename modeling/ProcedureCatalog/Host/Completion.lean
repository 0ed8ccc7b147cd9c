/-
# Completed commands

What a local program leaves when it ends, and the result of the command that it ran.
-/
import ProcedureCatalog.Host.Error
import ProcedureCatalog.Text.Blank
import ProcedureCatalog.Text.Utf8

namespace ProcedureCatalog.Host

/-- What a program wrote, its status (none after a signal) and how many milliseconds it took. -/
structure Completion where
  stdout : List UInt8
  stderr : List UInt8
  status : Option Nat
  elapsed : Nat
  deriving DecidableEq, Repr

namespace Completion

/-- The status as a number; a signal counts as -1. -/
def statusCode (c : Completion) : Int := c.status.elim (-1) Int.ofNat

/-- The program took too long for the timeout; no program ends within no time. -/
def exceeds (c : Completion) (timeout : Nat) : Bool := timeout ≤ c.elapsed

/-- The result of the command: its output, where no output counts as one line feed. It fails on
a timeout, and when the status is not zero and the error output is not blank. -/
def result (c : Completion) (timeout : Nat) : Except RemoteError String :=
  let stdout := Text.decodeLossy c.stdout
  let stderr := Text.decodeLossy c.stderr
  if c.exceeds timeout then .error (.timeout timeout)
  else if c.status != some 0 && !Text.allBlank stderr then
    .error (.commandFailed c.statusCode (.ofList stderr))
  else .ok (if stdout.isEmpty then "\n" else .ofList stdout)

end Completion

end ProcedureCatalog.Host
