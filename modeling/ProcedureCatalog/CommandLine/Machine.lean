/-
# A machine in memory

A system whose files are a tree of values, so that commands can be run without touching anything.

* `Machine.locate` finds the place of a path.
* `Machine.system` is the system of a machine.
-/
import ProcedureCatalog.CommandLine.Perform
import ProcedureCatalog.Host.Completion

namespace ProcedureCatalog.CommandLine

/-! ## Files -/

/-- What stands at a place. -/
inductive Entry where
  | directory
  | file (bytes : List UInt8)
  | database (db : Database)
  deriving DecidableEq, Repr

/-- A place: the names on the way from the root. -/
abbrev Place := List String

/-- A machine. `execute` says what a program leaves when it is run with a command; there is no
program for which it says nothing. -/
structure Machine where
  entries : List (Place × Entry)
  workingDirectory : Place
  environment : List (String × String)
  input : List UInt8
  clock : String
  execute : Host.Invocation → String → Option Host.Completion
  /-- The programs that were run, with their commands, the last first. -/
  started : List (Host.Invocation × String)

namespace Machine

/-- What stands at a place; the root is a directory. -/
def entry? (machine : Machine) (place : Place) : Option Entry :=
  if place.isEmpty then some .directory else machine.entries.lookup place

/-- The machine with an entry at a place. -/
def put (machine : Machine) (place : Place) (entry : Entry) : Machine :=
  { machine with entries := (place, entry) :: machine.entries.filter (·.1 != place) }

/-- Succeeds at a directory. -/
def requireDirectory (machine : Machine) (place : Place) : Except FileError Unit :=
  match machine.entry? place with
  | some .directory => .ok ()
  | some _ => .error .notADirectory
  | none => .error .notFound

/-- The place behind a directory that a component of a path names. -/
def step (place : Place) (component : String) : Place :=
  if component.isEmpty || component == "." then place
  else if component == ".." then place.dropLast
  else place ++ [component]

/-- The place that components name, starting from one. All but the last are directories. -/
def walk (machine : Machine) : Place → List String → Except FileError Place
  | place, [] => .ok place
  | place, component :: rest => do
    machine.requireDirectory place
    machine.walk (step place component) rest

/-- The place of a path, at which nothing need stand. -/
def locate (machine : Machine) (path : String) : Except FileError Place :=
  if path.isEmpty then .error .notFound
  else
    let start := if path.toList.head? == some '/' then [] else machine.workingDirectory
    machine.walk start (components path)

/-- What stands at a path. -/
def find (machine : Machine) (path : String) : Except FileError Entry := do
  match machine.entry? (← machine.locate path) with
  | some entry => .ok entry
  | none => .error .notFound

/-- The bytes of a file. Those of a database with tables are no text. -/
def bytes (machine : Machine) (path : String) : Except FileError (List UInt8) := do
  match ← machine.find path with
  | .directory => .error .isADirectory
  | .file bytes => .ok bytes
  | .database db => .ok (if db == .empty then [] else [0xFF])

/-- Something stands at the path. -/
def hasPath (machine : Machine) (path : String) : Bool :=
  match machine.find path with
  | .ok _ => true
  | .error _ => false

/-! ## Directories -/

/-- A new directory at a path. -/
def makeDirectory (machine : Machine) (path : String) : Except FileError Machine := do
  let place ← machine.locate path
  match machine.entry? place with
  | some _ => .error .fileExists
  | none => .ok (machine.put place .directory)

/-- A directory at a path, new or not. -/
def ensureDirectory (machine : Machine) (path : String) : Except FileError Machine :=
  match machine.makeDirectory path with
  | .error .fileExists =>
    match machine.find path with
    | .ok .directory => .ok machine
    | _ => .error .fileExists
  | result => result

/-- A directory at a path, with the directories around it. -/
def ensureDirectories (machine : Machine) : (fuel : Nat) → (path : String) →
    Except FileError Machine
  | 0, _ => .ok machine
  | fuel + 1, path =>
    match machine.ensureDirectory path with
    | .error .notFound =>
      match parentOf? path with
      | none => .error .notFound
      | some parent => do
        let machine ← if parent.isEmpty then .ok machine else machine.ensureDirectories fuel parent
        machine.ensureDirectory path
    | result => result

/-! ## Databases -/

/-- The database file that an entry is. A file without bytes is a database without tables. -/
def databaseFile? : Entry → Option DatabaseFile
  | .directory => none
  | .file [] => some (.database .empty)
  | .file _ => some .foreign
  | .database db => some (.database db)

/-- The machine with a database at a path. -/
def putDatabase (machine : Machine) (path : String) (db : Database) : Machine :=
  match machine.locate path with
  | .ok place => machine.put place (.database db)
  | .error _ => machine

/-- The database file at a path, created if it is missing. -/
def openDatabase (machine : Machine) (path : String) : Option DatabaseFile × Machine :=
  match machine.find path with
  | .ok entry => (databaseFile? entry, machine)
  | .error .notFound =>
    match machine.locate path with
    | .ok _ => (some (.database .empty), machine.putDatabase path .empty)
    | .error _ => (none, machine)
  | .error _ => (none, machine)

/-! ## Programs -/

/-- Runs a program. -/
def runProgram (machine : Machine) (invocation : Host.Invocation) (command : String) :
    Except RemoteError String × Machine :=
  match machine.execute invocation command with
  | none => (.error (.io .notFound), machine)
  | some completion =>
    (completion.result invocation.timeout,
      { machine with started := (invocation, command) :: machine.started })

/-! ## The system of a machine -/

/-- A step that gives an answer and a new machine. -/
def answering {α : Type} (f : Machine → α × Machine) : StateM Machine α := do
  let (answer, machine) := f (← get)
  set machine
  return answer

/-- The directories of a path, and the machine that has them. -/
def createDirectories (path : String) (machine : Machine) : Except FileError Unit × Machine :=
  match machine.ensureDirectories (path.length + 1) path with
  | .ok next => (.ok (), next)
  | .error error => (.error error, machine)

/-- The system of a machine. -/
def system : System (StateM Machine) where
  readFile path := return (← get).bytes path
  pathExists path := return (← get).hasPath path
  createDirectories path := answering (createDirectories path)
  openDatabase path := answering (·.openDatabase path)
  saveDatabase path db := modify (·.putDatabase path db)
  lookupVariable name := return Host.lookupVariable (← get).environment name
  runProgram invocation command := answering (·.runProgram invocation command)
  readInput := return (← get).input
  now := return (← get).clock

/-- Carries out the command of the arguments, and gives the machine after it. -/
def run (machine : Machine) (arguments : List String) : Outcome × Machine :=
  (CommandLine.run system arguments).run machine

end Machine

end ProcedureCatalog.CommandLine
