/-
# Commands

The commands of the program and how they are written: the options that all commands share, the
words and options of each command, and which of them go together.

`CommandLine.parse` gives the command of an argument list.
-/
import ProcedureCatalog.CommandLine.Options
import ProcedureCatalog.Settings.Basic

namespace ProcedureCatalog.CommandLine

/-! ## Commands -/

/-- How a listing is printed. -/
inductive Format where
  | table
  | json
  deriving DecidableEq, Repr

/-- What a listing of the catalog shows. -/
inductive ListScope where
  | programs
  | library (name : String)
  | procedures (library program : String)
  | pattern (text : String)
  deriving DecidableEq, Repr

/-- Where a source text is read. -/
inductive SourcePlace where
  | input
  | file (path : String)
  | host
  deriving DecidableEq, Repr

/-- Where expected names come from: a list separated by commas, or the export listing of a service
program. -/
inductive NamesPlace where
  | list (text : String)
  | exports (path program : String)
  deriving DecidableEq, Repr

/-- All service programs, those of a library, or one. -/
inductive Target where
  | everything
  | library (name : String)
  | program (library name : String)
  deriving DecidableEq, Repr

/-- A command on the catalog. -/
inductive CatalogCommand where
  | init
  | clear
  | status (format : Format)
  | list (scope : ListScope) (format : Format)
  | sync (library program : String) (listing : Option String)
  | fillFromSource (library program : String) (place : SourcePlace) (sourceFile : Option String)
      (force : Bool)
  | fillFromSourceAll (jobs : Nat) (sourceFile : Option String) (force : Bool)
  | fillNames (target : Target) (force : Bool)
  | shorten (target : Target)
  | delete (library program : String)
  | describe (library program procedure text : String)
  deriving DecidableEq, Repr

/-- A command of the program. -/
inductive Command where
  | exec (words : List String)
  | query (sql : String)
  | describeTable (schema table : String)
  | listTables (schema : String) (limit : Option Nat)
  | findTable (pattern : String) (limit : Option Nat)
  | listMembers (library file outputLibrary : String)
  | dependents (library file outputLibrary : String)
  | references (library program outputLibrary : String)
  | exports (library program : String)
  | readSource (library member : String) (file : Option String)
  | catalog (command : CatalogCommand)
  | extract (source : String) (names : NamesPlace) (infer : Bool) (format : Format)
  deriving DecidableEq, Repr

/-- The options that all commands share. Those that are given replace settings. -/
structure SharedOptions where
  settingsPath : String
  database : Option String
  tablePrefix : Option String
  host : Option String
  user : Option String
  port : Option Nat
  key : Option String
  timeout : Option Nat
  deriving DecidableEq, Repr

/-! ## Shared options -/

/-- The options that every command takes. -/
def sharedRules : List OptionRule :=
  [.named "config" .path, .named "db" .path, .named "prefix" .text, .named "host" .text,
    .named "user" .text, .named "port" (.signedNumber portLimit), .named "key" .path,
    .named "timeout" (.number timeoutLimit), ⟨"verbose", some 'v', .flag⟩, ⟨"quiet", some 'q', .flag⟩]

/-- The settings file that is read when no other is named. -/
def defaultSettingsPath : String := "svp-dict.yml"

/-- The value of an option; the innermost command that gives one decides. -/
def valueOf? (values : Values) (name : String) : Option String := values.reverse.lookup name

/-- The number of an option. -/
def numberOption? (values : Values) (name : String) : Option Nat :=
  (valueOf? values name).bind signedNumberOf?

/-- The flag is given. -/
def hasFlag (values : Values) (name : String) : Bool := (valueOf? values name).isSome

/-- The shared options with the given values. -/
def SharedOptions.ofValues (values : Values) : SharedOptions where
  settingsPath := (valueOf? values "config").getD defaultSettingsPath
  database := valueOf? values "db"
  tablePrefix := valueOf? values "prefix"
  host := valueOf? values "host"
  user := valueOf? values "user"
  port := numberOption? values "port"
  key := valueOf? values "key"
  timeout := numberOption? values "timeout"

/-! ## The form of each command -/

/-- How a command is written. Options and words of the right kinds need not go together; then
there is no command. -/
structure Form where
  name : String
  rules : List OptionRule
  fewest : Nat
  most : Nat
  openEnded : Bool
  build : Values → List String → Option Command

/-- The grammar of a form. -/
def Form.grammar (f : Form) : Grammar :=
  ⟨f.rules ++ sharedRules, f.fewest, f.most, f.openEnded, [], false⟩

/-- A command with a fixed number of words. -/
def Form.exactly (name : String) (words : Nat) (rules : List OptionRule)
    (build : Values → List String → Option Command) : Form :=
  ⟨name, rules, words, words, false, build⟩

/-- The names of the output formats. -/
def formatNames : List String := ["table", "json"]

/-- The option for the output format. -/
def formatRule : OptionRule := .named "format" (.choice formatNames)

/-- The output format. -/
def formatOf (values : Values) (default : Format) : Format :=
  match valueOf? values "format" with
  | some "json" => .json
  | some _ => .table
  | none => default

/-- The option for the number of rows. -/
def limitRule : OptionRule := .named "limit" (.signedNumber (1 <<< 32))

/-- A command that reads what another command has written to a library. -/
def outputForm (name : String) (build : String → String → String → Command) : Form :=
  .exactly name 2 [.named "output-library" .text] fun values words =>
    match words, valueOf? values "output-library" with
    | [library, object], some output => some (build library object output)
    | _, _ => none

/-- The commands that work on the host. -/
def hostForms : List Form :=
  [⟨"exec", [], 1, 1, true, fun _ words => some (.exec words)⟩,
    .exactly "query" 1 [] fun _ words => words.head?.map .query,
    .exactly "describe-table" 2 [] fun _ words =>
      match words with
      | [schema, table] => some (.describeTable schema table)
      | _ => none,
    .exactly "list-tables" 1 [limitRule] fun values words =>
      words.head?.map (.listTables · (numberOption? values "limit")),
    .exactly "find-table" 1 [limitRule] fun values words =>
      words.head?.map (.findTable · (numberOption? values "limit")),
    outputForm "list-members" .listMembers,
    outputForm "dependents" .dependents,
    outputForm "references" .references,
    .exactly "exports" 2 [] fun _ words =>
      match words with
      | [library, program] => some (.exports library program)
      | _ => none,
    .exactly "read-source" 2 [.named "file" .text] fun values words =>
      match words with
      | [library, member] => some (.readSource library member (valueOf? values "file"))
      | _ => none]

/-- The expected names: a list or an export listing, and not both. -/
def namesPlace? (values : Values) : Option NamesPlace :=
  match valueOf? values "names", valueOf? values "exports", valueOf? values "srvpgm" with
  | some names, none, _ => some (.list names)
  | none, some path, some program => some (.exports path program)
  | _, _, _ => none

/-- The command that extracts descriptions without a catalog. -/
def extractForm : Form :=
  .exactly "extract" 0
    [.named "input" .path, .named "names" .text, .named "exports" .path, .named "srvpgm" .text,
      .flagged "infer", formatRule]
    fun values _ => do
      let source ← valueOf? values "input"
      let names ← namesPlace? values
      return .extract source names (hasFlag values "infer") (formatOf values .json)

/-- What the words of a listing and its pattern select; there cannot be both. -/
def listScope? (values : Values) (words : List String) : Option ListScope :=
  match words, valueOf? values "pattern" with
  | [], some text => some (.pattern text)
  | [], none => some .programs
  | [library], none => some (.library library)
  | [library, program], none => some (.procedures library program)
  | _, _ => none

/-- Where the source text of a fill is; a file and the input exclude each other. -/
def sourcePlace? (values : Values) : Option SourcePlace :=
  match valueOf? values "input", hasFlag values "stdin" with
  | some _, true => none
  | some path, false => some (.file path)
  | none, true => some .input
  | none, false => some .host

/-- The service programs that up to two words select. -/
def targetOf? : List String → Option Target
  | [] => some .everything
  | [library] => some (.library library)
  | [library, program] => some (.program library program)
  | _ => none

/-- The commands on the catalog. -/
def catalogForms : List Form :=
  [.exactly "init" 0 [] fun _ _ => some (.catalog .init),
    .exactly "clear" 0 [] fun _ _ => some (.catalog .clear),
    .exactly "status" 0 [formatRule] fun values _ =>
      some (.catalog (.status (formatOf values .table))),
    ⟨"list", [.named "pattern" .text, formatRule], 0, 2, false, fun values words =>
      (listScope? values words).map fun scope =>
        .catalog (.list scope (formatOf values .table))⟩,
    .exactly "sync" 2 [.named "from-file" .path] fun values words =>
      match words with
      | [library, program] => some (.catalog (.sync library program (valueOf? values "from-file")))
      | _ => none,
    .exactly "fill-from-source" 2
      [.named "input" .path, .flagged "stdin", .named "source-file" .text, .flagged "force"]
      fun values words =>
        match words, sourcePlace? values with
        | [library, program], some place =>
          some (.catalog (.fillFromSource library program place (valueOf? values "source-file")
            (hasFlag values "force")))
        | _, _ => none,
    .exactly "fill-from-source-all" 0
      [.named "jobs" (.number (1 <<< 64)), .named "source-file" .text, .flagged "force"]
      fun values _ =>
        some (.catalog (.fillFromSourceAll ((numberOption? values "jobs").getD 4)
          (valueOf? values "source-file") (hasFlag values "force"))),
    ⟨"fill-names", [.flagged "force"], 0, 2, false, fun values words =>
      (targetOf? words).map fun target => .catalog (.fillNames target (hasFlag values "force"))⟩,
    ⟨"shorten", [], 0, 2, false, fun _ words =>
      (targetOf? words).map fun target => .catalog (.shorten target)⟩,
    .exactly "delete" 2 [] fun _ words =>
      match words with
      | [library, program] => some (.catalog (.delete library program))
      | _ => none,
    .exactly "describe" 4 [] fun _ words =>
      match words with
      | [library, program, procedure, text] =>
        some (.catalog (.describe library program procedure text))
      | _ => none]

/-- The commands other than those on the catalog. -/
def plainForms : List Form := hostForms ++ [extractForm]

/-! ## Parsing -/

/-- The name of the command that has the commands on the catalog as subcommands. -/
def catalogName : String := "dict"

/-- The names of the commands of the program. -/
def commandNames : List String := plainForms.map (·.name) ++ [catalogName]

/-- The names of the subcommands of a command. -/
def subcommandsOf (name : String) : List String :=
  if name == catalogName then "help" :: catalogForms.map (·.name) else []

/-- The grammar before the name of a command. -/
def programGrammar : Grammar := .ofSubcommands sharedRules commandNames true

/-- The grammar before the name of a command on the catalog. -/
def catalogGrammar : Grammar := .ofSubcommands sharedRules (catalogForms.map (·.name)) false

/-- The flags that exclude each other are not both given. -/
def isConsistent (r : Reading) : Bool :=
  !(hasFlag r.values "verbose" && hasFlag r.values "quiet")

/-- The command that a form makes of its arguments, `outer` being the options before its name. -/
def Form.parse (f : Form) (outer : Values) (arguments : List String) :
    Except Interruption (SharedOptions × Command) := do
  let r ← f.grammar.read arguments
  if r.words.length < f.fewest || !isConsistent r then .error .usage
  else match f.build r.values r.words with
    | some command => .ok (.ofValues (outer ++ r.values), command)
    | none => .error .usage

/-- A request for help on one of the commands of the given names, or on one of its subcommands. -/
def helpOn (names : List String) (subcommands : String → List String) : List String → Interruption
  | [] => .help
  | [name] => if ("help" :: names).contains name then .help else .usage
  | [name, inner] => if (subcommands name).contains inner then .help else .usage
  | _ => .usage

/-- The command that follows the options `outer`, by name and arguments. -/
def parseForm (forms : List Form) (outer : Values) (subcommand : Option (String × List String)) :
    Except Interruption (SharedOptions × Command) :=
  match subcommand with
  | none => .error .usage
  | some (name, arguments) =>
    match forms.find? (·.name == name) with
    | some form => form.parse outer arguments
    | none => .error (helpOn (forms.map (·.name)) (fun _ => []) arguments)

/-- The command of the arguments, with the shared options. -/
def parse (arguments : List String) : Except Interruption (SharedOptions × Command) := do
  let program ← programGrammar.read arguments
  let parsed ←
    match program.subcommand with
    | some (name, rest) =>
      if name == catalogName then do
        let r ← catalogGrammar.read rest
        let parsed ← parseForm catalogForms (program.values ++ r.values) r.subcommand
        if isConsistent r then .ok parsed else .error .usage
      else if name == "help" then .error (helpOn commandNames subcommandsOf rest)
      else parseForm plainForms program.values (some (name, rest))
    | none => .error .usage
  if isConsistent program then .ok parsed else .error .usage

end ProcedureCatalog.CommandLine
