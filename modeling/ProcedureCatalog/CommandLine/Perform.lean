/-
# Carrying out commands

`CommandLine.run` carries out the command of an argument list: what it prints, and its exit status,
which is 0 for success, 1 for a failure and 2 for arguments that form no command.
-/
import ProcedureCatalog.Catalog.FillAll
import ProcedureCatalog.CommandLine.Listing
import ProcedureCatalog.CommandLine.Opening

namespace ProcedureCatalog.CommandLine

open Activity

variable {m : Type → Type} [Monad m] (system : System m)

/-! ## Listing the catalog -/

/-- The library of a service program, ignoring the case of ASCII letters. -/
def isOfLibrary (library : String) (s : ProgramSummary) : Bool :=
  Text.sameLetters s.program.library.toList library.toList

/-- The text of a listing. -/
def listingText (c : OpenCatalog) (format : Format) : ListScope → Activity m String
  | .pattern text => do
    return proceduresText format true (← look c (·.search · text))
  | .procedures library program => do
    return proceduresText format false (← look c (·.records · library program))
  | .library name => do
    return programsText format ((← look c (·.summaries)).filter (isOfLibrary name))
  | .programs => do
    return programsText format (← look c (·.summaries))

/-! ## Filling in descriptions -/

/-- The source text of a service program. -/
def sourceText (settings : Settings) (library program : String) (sourceFile : Option String) :
    SourcePlace → Activity m String
  | .input => readInput system
  | .file path => readText system path
  | .host =>
    onHost system settings.host fun run =>
      Host.Session.readSourceMember run library (sourceFile.getD settings.catalog.sourceFile)
        program

/-- Prints what became of a service program. -/
def reportFill (o : FillOutcome) : Activity m Unit :=
  match o.report with
  | .ok report => printLine (o.program.qualifiedName ++ ": " ++ fillText report)
  | .error error => printError (o.program.qualifiedName ++ ": ERROR " ++ error.message)

/-- Reads the source of a service program from the host. -/
def readSource (run : Host.Runner m) (sourceFile : String) (p : ServiceProgram) :
    Activity m SourceRead := do
  return ⟨p, ← ask (Host.Session.readSourceMember run p.library sourceFile p.name).run⟩

/-- Fills in all service programs from their sources on the host. -/
def fillAllPrograms (settings : Settings) (sourceFile : Option String) (force : Bool) :
    Activity m Unit := do
  let c ← openCatalog system settings.catalog
  let programs ← look c (·.summaries)
  if programs.isEmpty then
    printLine "No service programs in the catalog. Run \x60svp-dict dict sync\x60 first."
  else
    let run ← connect system settings.host
    let file := sourceFile.getD settings.catalog.sourceFile
    let reads ← programs.mapM fun s => readSource run file s.program
    let now ← ask system.now
    let (db, outcomes) := c.database.fillAll c.tables force now reads
    save system { c with database := db }
    outcomes.forM reportFill
    let failed := outcomes.countP (·.isFailure)
    if failed != 0 then throw (.fills failed programs.length)

/-- The service programs of a target, by library and name. -/
def targetPrograms (c : OpenCatalog) : Target → Activity m (List (String × String))
  | .program library name => return [(library, name)]
  | .library name => do
    return ((← look c (·.summaries)).filter (isOfLibrary name)).map fun s =>
      (s.program.library, s.program.name)
  | .everything => do
    return (← look c (·.summaries)).map fun s => (s.program.library, s.program.name)

/-- Infers descriptions for service programs, and adds their number to `total`. -/
def fillNamesOf (force : Bool) : (c : OpenCatalog) → (total : Nat) → List (String × String) →
    Activity m Nat
  | _, total, [] => return total
  | c, total, (library, program) :: rest => do
    let (c, report) ← change system c .catalog fun db tables now =>
      db.fillFromNames tables library program force now
    if report.updated != 0 then
      printLine (library ++ "/" ++ program ++ ": " ++ toString report.updated ++ " description(s)")
    fillNamesOf force c (total + report.updated) rest

/-! ## Commands on the catalog -/

/-- The filter of a target for shortening. -/
def shortenFilter : Target → Except CommandError (Option (String × String))
  | .everything => .ok none
  | .library _ => .error .halfTarget
  | .program library name => .ok (some (library, name))

/-- The exported symbols of a service program, from a listing file or the host. -/
def exportedSymbols (settings : Settings) (library program : String) (listing : Option String) :
    Activity m (List String) :=
  match listing with
  | some path => return ExportListing.symbols (← readText system path) program
  | none =>
    onHost system settings.host fun run => Host.Session.exportSymbols run library program

/-- Carries out a command on the catalog. The number of jobs of a fill of all service programs says
how many sources are read at the same time. The outcome does not depend on it, so it is not used
here, and the failure to create a pool of so many threads is left out. -/
def performOnCatalog (settings : Settings) : CatalogCommand → Activity m Unit
  | .init => do
    let c ← openCatalog system settings.catalog
    printLine ("Catalog ready. Tables created with prefix '" ++ c.tables.text ++ "' in '" ++
      c.path ++ "'.")
  | .clear => do
    let c ← openCatalog system settings.catalog
    let (_, removed) ← change system c .clear fun db tables _ => db.clear tables
    printLine ("Catalog cleared: " ++ toString removed ++ " service program(s) removed.")
  | .status format => do
    print (statusText format (← catalogStatus system settings.catalog))
  | .list scope format => do
    let c ← openCatalog system settings.catalog
    print (← listingText c format scope)
  | .sync library program listing => do
    let symbols ← exportedSymbols system settings library program listing
    let c ← openCatalog system settings.catalog
    let (_, report) ← change system c .sync fun db tables now =>
      db.syncExports tables library program symbols now
    printLine ("Synced " ++ library ++ "/" ++ program ++ ": " ++ toString report.total ++
      " procedure(s), " ++ toString report.added ++ " added, " ++ toString report.removed ++
      " removed.")
  | .fillFromSource library program place sourceFile force => do
    let source ← sourceText system settings library program sourceFile place
    let c ← openCatalog system settings.catalog
    let (_, report) ← change system c .catalog fun db tables now =>
      db.fillFromSource tables library program source force now
    printLine (library ++ "/" ++ program ++ ": " ++ fillText report)
  | .fillFromSourceAll _ sourceFile force => fillAllPrograms system settings sourceFile force
  | .fillNames target force => do
    let c ← openCatalog system settings.catalog
    let total ← fillNamesOf system force c 0 (← targetPrograms c target)
    printLine ("Filled " ++ toString total ++ " description(s) from procedure names.")
  | .shorten target => do
    let c ← openCatalog system settings.catalog
    let filter ← settle id (shortenFilter target)
    let (_, changed) ← change system c .catalog fun db tables now =>
      db.shortenDescriptions tables filter now
    printLine ("Shortened " ++ toString changed ++ " description(s).")
  | .delete library program => do
    let c ← openCatalog system settings.catalog
    let (_, deleted) ← change system c .catalog fun db tables _ =>
      db.deleteProgram tables library program
    if !deleted then throw (.programNotListed library program)
    printLine ("Deleted " ++ library ++ "/" ++ program ++ ".")
  | .describe library program procedure text => do
    let c ← openCatalog system settings.catalog
    let (_, updated) ← change system c .catalog fun db tables now =>
      db.setDescription tables library program procedure text now
    if !updated then throw (.procedureNotListed library program procedure)
    printLine ("Updated " ++ procedure ++ ".")

/-! ## Other commands -/

/-- The expected names that a command gives. -/
def expectedNames : NamesPlace → Activity m ExpectedNames
  | .list text =>
    return .ofList (Text.trimmedNonempty
      ((Text.splitAtEach (· == ',') text.toList).map .ofList))
  | .exports path program =>
    return .ofList (ExportListing.symbols (← readText system path) program)

/-- Extracts the descriptions of a source file. -/
def extractFile (path : String) (names : NamesPlace) (infer : Bool) (format : Format) :
    Activity m Unit := do
  let source ← readText system path
  let expected ← expectedNames system names
  if expected.names.isEmpty then throw .noNames
  let strategies := if infer then Strategy.all else Strategy.fromSource
  print (extractionText format expected (extract expected strategies source))

/-- The operation of a command that only prints what the host answers. -/
def hostOperation? (settings : Settings) (run : Host.Runner m) :
    Command → Option (ExceptT RemoteError m String)
  | .exec words => some (Host.Session.exec run (String.intercalate " " words))
  | .query sql => some (Host.Session.query run sql)
  | .describeTable schema table => some (Host.Session.describeTable run schema table)
  | .listTables schema limit => some (Host.Session.listTables run schema limit)
  | .findTable pattern limit => some (Host.Session.findTable run pattern limit)
  | .listMembers library file output =>
    some (Host.Session.listFileMembers run library file output)
  | .dependents library file output => some (Host.Session.tableDependents run library file output)
  | .references library program output =>
    some (Host.Session.listProgramReferences run library program output)
  | .exports library program => some (Host.Session.listExports run library program)
  | .readSource library member file =>
    some (Host.Session.readSourceMember run library (file.getD settings.catalog.sourceFile) member)
  | .catalog _ => none
  | .extract _ _ _ _ => none

/-- Carries out a command. -/
def perform (settings : Settings) (command : Command) : Activity m Unit :=
  match command with
  | .catalog c => performOnCatalog system settings c
  | .extract path names infer format => extractFile system path names infer format
  | command => do
    let run ← connect system settings.host
    match hostOperation? settings run command with
    | some operation => print (← settle .host (← ask operation.run))
    | none => pure ()

/-! ## The program -/

/-- The exit status of a command and what it printed. -/
structure Outcome where
  status : Nat
  output : String
  errors : String
  deriving DecidableEq, Repr

/-- The name and version of the program. -/
def versionText : String := "svp-dict 0.1.0\n"

/-- How the program is called. -/
def usageText : String := "Usage: svp-dict [OPTIONS] <COMMAND>\n"

/-- What the program is and how it is called. -/
def helpText : String :=
  "IBM i service program catalog: remote queries and procedure descriptions\n\n" ++ usageText ++
    "\nCommands:\n" ++ linesText ((commandNames ++ ["help"]).map ("  " ++ ·))

/-- The outcome of a command that has ended. -/
def Outcome.ofResult (result : Except CommandError Unit) (printed : Printed) : Outcome :=
  let output := String.join printed.output.reverse
  match result with
  | .ok () => ⟨0, output, String.join printed.errors.reverse⟩
  | .error error =>
    ⟨1, output, String.join (printed.errors.reverse ++ ["error: " ++ error.message ++ "\n"])⟩

/-- The outcome of arguments that end without a command. -/
def Outcome.ofInterruption : Interruption → Outcome
  | .usage => ⟨2, "", usageText⟩
  | .help => ⟨0, helpText, ""⟩
  | .version => ⟨0, versionText, ""⟩

/-- Carries out the command of the arguments. -/
def run (arguments : List String) : m Outcome :=
  match parse arguments with
  | .error interruption => pure (.ofInterruption interruption)
  | .ok (options, command) => do
    let action : Activity m Unit := do perform system (← loadSettings system options) command
    let (result, printed) ← action.run.run ⟨[], []⟩
    return .ofResult result printed

end ProcedureCatalog.CommandLine
