/-
# Options

Reading the arguments of one command: options with and without values, words, and the name of a
subcommand, which takes the arguments behind it.

* A value stands behind its option, or after an equals sign in the same argument.
* An option is given once at most, and its value must be of its kind.
* An argument that starts with a dash is no word, except behind `--` and in commands that are
  open-ended, where all arguments from the first word on are words.
* `--help` and `--version` end the reading at once.
-/
import ProcedureCatalog.Text.Blank

namespace ProcedureCatalog.CommandLine

/-! ## Rules -/

/-- The values that an option takes. -/
inductive ValueKind where
  /-- No value. -/
  | flag
  | text
  /-- A text that is not empty. -/
  | path
  /-- A number below the limit. -/
  | number (limit : Nat)
  /-- A number below the limit; zero may have a minus sign. -/
  | signedNumber (limit : Nat)
  | choice (words : List String)
  deriving DecidableEq, Repr

/-- The number that a text gives, with a plus sign or without. -/
def numberOf? (text : String) : Option Nat :=
  let cs := text.toList
  let digits := if cs.head? == some '+' then cs.drop 1 else cs
  if digits.isEmpty || !digits.all Char.isDigit then none
  else some (digits.foldl (fun n c => n * 10 + (c.toNat - '0'.toNat)) 0)

/-- The number that a text gives, where zero may have a minus sign. -/
def signedNumberOf? (text : String) : Option Nat :=
  match text.toList with
  | '-' :: digits => if !digits.isEmpty && digits.all (· == '0') then some 0 else none
  | _ => numberOf? text

/-- The value is of the kind. -/
def ValueKind.accepts (value : String) : ValueKind → Bool
  | .flag => true
  | .text => true
  | .path => !value.isEmpty
  | .number limit => (numberOf? value).any (· < limit)
  | .signedNumber limit => (signedNumberOf? value).any (· < limit)
  | .choice words => words.contains value

/-- An option: its name behind two dashes, its letter behind one, and its values. -/
structure OptionRule where
  name : String
  letter : Option Char
  kind : ValueKind

/-- An option without a letter. -/
def OptionRule.named (name : String) (kind : ValueKind) : OptionRule := ⟨name, none, kind⟩

/-- A flag without a letter. -/
def OptionRule.flagged (name : String) : OptionRule := .named name .flag

/-- What the arguments of a command may be. -/
structure Grammar where
  options : List OptionRule
  /-- The least and the greatest number of words. -/
  fewest : Nat
  most : Nat
  openEnded : Bool
  subcommands : List String
  hasVersion : Bool

/-- A command that takes words. -/
def Grammar.ofWords (options : List OptionRule) (fewest most : Nat) : Grammar :=
  ⟨options, fewest, most, false, [], false⟩

/-- A command that has subcommands. -/
def Grammar.ofSubcommands (options : List OptionRule) (names : List String) (hasVersion : Bool) :
    Grammar :=
  ⟨options, 0, 0, false, "help" :: names, hasVersion⟩

/-- Why reading ends before the arguments do. -/
inductive Interruption where
  | usage
  | help
  | version
  deriving DecidableEq, Repr

/-! ## Readings -/

/-- The values of options by name. -/
abbrev Values := List (String × String)

/-- What has been read: options, words, and a subcommand with its arguments. -/
structure Reading where
  values : Values
  words : List String
  subcommand : Option (String × List String)
  deriving DecidableEq, Repr

namespace Reading

/-- Nothing yet. -/
def start : Reading := ⟨[], [], none⟩

/-- The reading with one more option. -/
def addOption (r : Reading) (rule : OptionRule) (value : String) : Except Interruption Reading :=
  if (r.values.lookup rule.name).isSome || !rule.kind.accepts value then .error .usage
  else .ok { r with values := r.values ++ [(rule.name, value)] }

/-- The reading with one more word. -/
def addWord (r : Reading) (g : Grammar) (word : String) : Except Interruption Reading :=
  if g.openEnded || r.words.length < g.most then .ok { r with words := r.words ++ [word] }
  else .error .usage

end Reading

/-! ## Arguments -/

/-- What an argument turned out to be. -/
inductive Step where
  /-- Options, which the reading now holds. -/
  | taken (r : Reading)
  | word
  | subcommand
  /-- From here on all arguments are words. -/
  | wordsOnly
  | needsValue (rule : OptionRule)

/-- The argument starts with a dash and is not a dash alone. -/
def hasDash (argument : String) : Bool :=
  argument.toList.head? == some '-' && argument != "-"

/-- The name and the attached value of an argument behind its two dashes. -/
def nameAndValue (cs : List Char) : String × Option String :=
  let name := cs.takeWhile (· != '=')
  (.ofList name, if name.length < cs.length then some (.ofList (cs.drop (name.length + 1))) else none)

/-- The letter names an option. -/
def Grammar.hasLetter (g : Grammar) (c : Char) : Bool :=
  c == 'h' || g.hasVersion && c == 'V' || g.options.any (·.letter == some c)

/-- The reading with the flags of the letters. -/
def takeLetters (g : Grammar) : Reading → List Char → Except Interruption Reading
  | r, [] => .ok r
  | r, c :: cs =>
    if c == 'h' then .error .help
    else if g.hasVersion && c == 'V' then .error .version
    else match g.options.find? (·.letter == some c) with
      | some rule => do takeLetters g (← r.addOption rule "") cs
      | none => .error .usage

/-- An argument with two dashes. -/
def takeLong (g : Grammar) (r : Reading) (cs : List Char) : Except Interruption Step :=
  let (name, value) := nameAndValue cs
  match g.options.find? (·.name == name), value with
  | some rule, none =>
    if rule.kind == .flag then (r.addOption rule "").map .taken else .ok (.needsValue rule)
  | some rule, some value =>
    if rule.kind == .flag then .error .usage else (r.addOption rule value).map .taken
  | none, value =>
    if name == "help" then .error (if value.isNone then .help else .usage)
    else if g.hasVersion && name == "version" then
      .error (if value.isNone then .version else .usage)
    else if g.openEnded then .ok .word
    else .error .usage

/-- What an argument is, before all are words. -/
def takeArgument (g : Grammar) (r : Reading) (argument : String) : Except Interruption Step :=
  if g.subcommands.contains argument then .ok .subcommand
  else if argument == "--" then .ok .wordsOnly
  else match argument.toList with
    | '-' :: '-' :: cs => takeLong g r cs
    | '-' :: c :: cs =>
      if g.openEnded && !(c :: cs).all g.hasLetter then .ok .word
      else (takeLetters g r (c :: cs)).map .taken
    | _ => .ok .word

/-- Reads the arguments of a command. -/
def readArguments (g : Grammar) : (wordsOnly : Bool) → Reading → List String →
    Except Interruption Reading
  | _, r, [] => .ok r
  | true, r, argument :: rest => do readArguments g true (← r.addWord g argument) rest
  | false, r, argument :: rest => do
    match ← takeArgument g r argument with
    | .taken next => readArguments g false next rest
    | .word => readArguments g g.openEnded (← r.addWord g argument) rest
    | .subcommand => .ok { r with subcommand := some (argument, rest) }
    | .wordsOnly => readArguments g true r rest
    | .needsValue rule =>
      match rest with
      | [] => .error .usage
      | value :: rest =>
        if hasDash value then .error .usage
        else readArguments g false (← r.addOption rule value) rest

/-- Reads all arguments of a command. -/
def Grammar.read (g : Grammar) (arguments : List String) : Except Interruption Reading :=
  readArguments g false .start arguments

end ProcedureCatalog.CommandLine
