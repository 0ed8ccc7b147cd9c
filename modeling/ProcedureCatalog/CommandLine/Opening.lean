/-
# Reaching files, the host and the catalog

How commands read texts, connect to the host, and open and change the catalog.
-/
import ProcedureCatalog.CommandLine.Command
import ProcedureCatalog.CommandLine.Path
import ProcedureCatalog.CommandLine.System
import ProcedureCatalog.Host.Session
import ProcedureCatalog.Settings.File

namespace ProcedureCatalog.CommandLine

open Activity

variable {m : Type → Type} [Monad m] (system : System m)

/-! ## Settings -/

/-- The settings with those replaced that options give. -/
def SharedOptions.override (options : SharedOptions) (s : Settings) : Settings where
  host := { s.host with
    host := options.host <|> s.host.host
    port := options.port.getD s.host.port
    user := options.user <|> s.host.user
    key := options.key <|> s.host.key
    timeout := options.timeout.getD s.host.timeout }
  catalog := { s.catalog with
    path := options.database.getD s.catalog.path
    tablePrefix := options.tablePrefix.getD s.catalog.tablePrefix }

/-- The settings that hold for a command. -/
def loadSettings (options : SharedOptions) : Activity m Settings := do
  let file ← ask (system.readFile options.settingsPath)
  let s ← settle (.settings options.settingsPath) (Settings.loadOrDefault file)
  return options.override s

/-! ## Texts -/

/-- The text of bytes. -/
def decodeText (bytes : List UInt8) : Except FileError String :=
  (Text.decode? bytes).elim (.error .invalidText) fun cs => .ok (.ofList cs)

/-- The text of a file. -/
def readText (path : String) : Activity m String := do
  settle (.readFile path) ((← ask (system.readFile path)).bind decodeText)

/-- The text of the input. -/
def readInput : Activity m String := do
  settle .readInput (decodeText (← ask system.readInput))

/-! ## The host -/

/-- A way to run commands on the host. -/
def connect (s : HostSettings) : Activity m (Host.Runner m) := do
  let password ←
    match s.passwordVariable with
    | some name => ask (system.lookupVariable name)
    | none => pure none
  let invocation ← settle .host (Host.sshInvocation s fun _ => password)
  return fun command => ExceptT.mk (system.runProgram invocation command)

/-- The result of an operation on the host. -/
def onHost {α : Type} (s : HostSettings) (operation : Host.Runner m → ExceptT RemoteError m α) :
    Activity m α := do
  let run ← connect system s
  settle .host (← ask (operation run).run)

/-! ## The catalog -/

/-- An open catalog: the file, the prefix of its tables and the database. -/
structure OpenCatalog where
  path : String
  tables : TablePrefix
  database : Database

/-- A database with this path is kept nowhere. -/
def isTransient (path : String) : Bool := path.isEmpty || path == ":memory:"

/-- The database file of a path. -/
def openFile (path : String) : Activity m DatabaseFile := do
  if isTransient path then return .database .empty
  match ← ask (system.openDatabase path) with
  | some file => return file
  | none => throw (.openDatabase path)

/-- Keeps the database of an open catalog. -/
def save (c : OpenCatalog) : Activity m Unit :=
  if isTransient c.path then pure () else ask (system.saveDatabase c.path c.database)

/-- Creates the directory of a database file. -/
def prepareDirectory (path : String) : Activity m Unit :=
  match parentOf? path with
  | none => pure ()
  | some parent =>
    if parent.isEmpty then pure ()
    else do settle (.databaseDirectory parent) (← ask (system.createDirectories parent))

/-- Opens the catalog; its file and its tables are created if they are missing. -/
def openCatalog (s : CatalogSettings) : Activity m OpenCatalog := do
  prepareDirectory system s.path
  let file ← openFile system s.path
  let tables ← settle .prepareTables (TablePrefix.ofString s.tablePrefix)
  match file with
  | .foreign => throw (.createTables Database.createFailure)
  | .database db =>
    let c := ⟨s.path, tables, ← settle .createTables (db.up tables)⟩
    save system c
    return c

/-- Runs an operation that changes the catalog. -/
def change {α : Type} (c : OpenCatalog) (wrap : CatalogError → CommandError)
    (operation : Database → TablePrefix → (now : String) → Except CatalogError (Database × α)) :
    Activity m (OpenCatalog × α) := do
  let now ← ask system.now
  let (db, answer) ← settle wrap (operation c.database c.tables now)
  let c := { c with database := db }
  save system c
  return (c, answer)

/-- Runs an operation that reads the catalog. -/
def look {α : Type} (c : OpenCatalog)
    (operation : Database → TablePrefix → Except CatalogError α) : Activity m α :=
  settle .catalog (operation c.database c.tables)

/-- The status of the catalog. A file that is missing is not created. -/
def catalogStatus (s : CatalogSettings) : Activity m Database.Status := do
  if isTransient s.path || !(← ask (system.pathExists s.path)) then return .absent
  let file ← openFile system s.path
  let tables ← settle .prepareTables (TablePrefix.ofString s.tablePrefix)
  match file with
  | .foreign => throw (.status (.statement .notADatabase))
  | .database db => settle .status (db.status tables)

end ProcedureCatalog.CommandLine
