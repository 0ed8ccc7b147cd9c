/-
# Running scripts

The effect of a script: what it writes, how it ends and how long it takes. A script that goes on
beyond a great number of steps counts as one that never ends.
-/
import ProcedureCatalog.Shell.Comparison
import ProcedureCatalog.Shell.Expansion
import ProcedureCatalog.Shell.Format

namespace ProcedureCatalog.Shell

/-- Where each of the two outputs goes. -/
structure Outputs where
  stdout : Target
  stderr : Target

/-- The outputs of a process of its own. -/
def Outputs.own : Outputs := ⟨.stdout, .stderr⟩

/-- The outputs after one more redirection. -/
def Outputs.redirect (o : Outputs) (r : Redirection) : Outputs :=
  let target := match r.target with
    | .stdout => o.stdout
    | .stderr => o.stderr
    | .nowhere => .nowhere
  match r.descriptor with
  | 0 => o
  | 1 => { o with stdout := target }
  | _ => { o with stderr := target }

/-- The outputs after redirections. -/
def Outputs.redirectAll (o : Outputs) (redirections : List Redirection) : Outputs :=
  redirections.foldl Outputs.redirect o

namespace State

/-! ## Commands -/

/-- The milliseconds of a number of seconds. -/
def milliseconds (seconds : List Char) : Nat :=
  let whole := (digitsIn? 10 (seconds.takeWhile Char.isDigit)).getD 0
  let thousandths := ((seconds.dropWhile Char.isDigit).drop 1 ++ ['0', '0', '0']).take 3
  whole * 1000 + (digitsIn? 10 thousandths).getD 0

/-- Ends the shell by a signal when it is the process meant. -/
def kill (s : State) (arguments : List (List Char)) : State :=
  if arguments.getLast? == s.value? ['$'] then s.finish .killed else s.done 1

/-- The effect of a comparison. -/
def compare (s : State) (o : Outputs) (name : List Char) (arguments : List (List Char)) : State :=
  match comparison (name == ['[']) arguments with
  | .ok true => s.done 0
  | .ok false => s.done 1
  | .error e => (s.complain o.stderr (name ++ ": ".toList ++ e.message)).done 2

/-- The effect of formatted output. -/
def format (s : State) (o : Outputs) (arguments : List (List Char)) : State :=
  let output := printf arguments
  let s := s.write o.stdout output.bytes
  let s := output.faults.foldl (fun s fault => s.complain o.stderr ("printf: ".toList ++ fault)) s
  s.done (if output.faults.isEmpty then 0 else if arguments.isEmpty then 2 else 1)

/-- The first line of the input becomes the value of the name. -/
def readLine (s : State) (name : List Char) : State :=
  let line := s.stdin.takeWhile (· != 10)
  let rest := s.stdin.dropWhile (· != 10)
  ({ s with stdin := rest.drop 1 }.bind name (Text.decodeLossy line)).done
    (if rest.isEmpty then 1 else 0)

/-- Gives a name the value behind an equals sign, if there is one. -/
def declare (s : State) (argument : List Char) : State :=
  match argument.dropWhile (· != '=') with
  | _ :: value => s.bind (argument.takeWhile (· != '=')) value
  | [] => s

/-- The lines of the numbers from the first to the last. -/
def countLines (first last : Int) : List UInt8 :=
  (List.range (last - first + 1).toNat).flatMap fun i : Nat =>
    Text.encodeUtf8 (toString (first + Int.ofNat i) ++ "\n").toList

/-- Writes a range of numbers. -/
def count (s : State) (o : Outputs) (arguments : List (List Char)) : State :=
  match arguments.mapM decimal? with
  | some [last] => (s.write o.stdout (countLines 1 last)).done 0
  | some [first, last] => (s.write o.stdout (countLines first last)).done 0
  | _ => s.done 1

/-- Copies the input. -/
def copy (s : State) (o : Outputs) (arguments : List (List Char)) : State :=
  match arguments.filter fun name => name != ['-'] && name != "/dev/null".toList with
  | [] => ({ s with stdin := [] }.write o.stdout s.stdin).done 0
  | name :: _ =>
    (s.write o.stderr
      (Text.encodeUtf8 ("cat: ".toList ++ name ++ ": No such file or directory\n".toList))).done 1

/-- The commands known here. -/
def known : List String :=
  ["echo", "printf", "true", ":", "false", "test", "[", "cat", "seq", "read", "sleep", "kill",
    "export", "readonly", "unset", "set", "cd", "wait", "break", "continue", "exit"]

/-- The command is known here. -/
def isKnown (name : List Char) : Bool := known.contains (String.ofList name)

/-- Runs a command that is not another form of `exec`. -/
def runNamed (s : State) (o : Outputs) (name : List Char) (arguments : List (List Char)) : State :=
  match String.ofList name with
  | "echo" => (s.write o.stdout (builtinEcho arguments)).done 0
  | "printf" => s.format o arguments
  | "true" => s.done 0
  | ":" => s.done 0
  | "false" => s.done 1
  | "test" => s.compare o name arguments
  | "[" => s.compare o name arguments
  | "cat" => s.copy o arguments
  | "seq" => s.count o arguments
  | "read" => s.readLine (((arguments.filter (·.head? != some '-')).head?).getD "REPLY".toList)
  | "sleep" => { s with elapsed := s.elapsed + milliseconds (arguments.head?.getD []), status := 0 }
  | "kill" => s.kill arguments
  | "export" => (arguments.foldl declare s).done 0
  | "readonly" => (arguments.foldl declare s).done 0
  | "unset" => (arguments.foldl unbind s).done 0
  | "set" => s.done 0
  | "cd" => s.done 0
  | "wait" => s.done 0
  | "break" => (s.done 0).finish (.leftBody false)
  | "continue" => (s.done 0).finish (.leftBody true)
  | "exit" => s.exit ((arguments.head?.bind (digitsIn? 10)).getD s.status)
  | _ => (s.complain o.stderr (name ++ ": not found".toList)).done 127

/-- Runs a command in place of the shell. -/
def runLast (s : State) (o : Outputs) : List (List Char) → State
  | [] => s.done 0
  | program :: arguments =>
    if isKnown program then
      let after := s.runNamed o program arguments
      if after.ended.isSome then after else after.exit after.status
    else (s.complain o.stderr ("exec: ".toList ++ program ++ ": not found".toList)).exit 127

/-- Gives the names of assignments their values. -/
def assign (s : State) (substitute : Substitution) (assignments : List (List Char × Word)) :
    State :=
  assignments.foldl (fun s (name, word) =>
    let (s, value) := s.expandWhole substitute word
    s.bind name value) s

/-- The assignments in front of a command, and the words behind them. -/
def splitAssignments : List Word → List (List Char × Word) × List Word
  | [] => ([], [])
  | word :: words =>
    match assignment? word with
    | some assignment =>
      let (assignments, rest) := splitAssignments words
      (assignment :: assignments, rest)
    | none => ([], word :: words)

/-- Runs a simple command. Its assignments last only if there is nothing else. -/
def runWords (s : State) (substitute : Substitution) (o : Outputs) (words : List Word) : State :=
  let (assignments, words) := splitAssignments words
  let (s, fields) := s.expand substitute words
  if s.ended.isSome then s
  else match fields with
    | [] => (s.done (if words.isEmpty then 0 else s.status)).assign substitute assignments
    | name :: arguments =>
      if name == "exec".toList then s.runLast o arguments else s.runNamed o name arguments

/-! ## Scripts -/

/-- The shell after a shell of its own has run: the values of names are not kept, and what ended
that shell alone does not end this one. -/
def afterSubshell (s inner : State) : State :=
  let inner := { inner with bindings := s.bindings }
  match inner.ended with
  | some (.exited status) => { inner with ended := none, status := status }
  | some (.leftBody _) => { inner with ended := none }
  | _ => inner

/-- The output of a script that a shell of its own runs. -/
def substituteBy (execute : Script → State → State) : Substitution := fun text s =>
  match script? text with
  | none => ((s.complain .stderr "Syntax error".toList).exit 2, [])
  | some script =>
    let inner := execute script { s with stdout := [] }
    let bytes := inner.stdout.reverse.flatten
    let text := (bytes.reverse.dropWhile (· == 10)).reverse
    ({ s.afterSubshell inner with stdout := s.stdout }, Text.decodeLossy text)

/-- The second script reads what the first writes; each runs in a shell of its own. -/
def pipeBy (first second : State → State) (s : State) : State :=
  let writer := first { s with stdout := [] }
  let between := s.afterSubshell writer
  let input := writer.stdout.reverse.flatten
  let reader := second { between with stdin := input, stdout := s.stdout, elapsed := s.elapsed }
  let after := between.afterSubshell reader
  { after with stdin := [], elapsed := max between.elapsed reader.elapsed }

/-- What comes of a loop whose body has ended: none while it goes on. -/
def leaves? (s : State) : Option State :=
  match s.ended with
  | none => none
  | some (.leftBody true) => none
  | some (.leftBody false) => some { s with ended := none }
  | _ => some s

mutual

/-- Runs a script. -/
def run : (fuel : Nat) → Outputs → Script → State → State
  | 0, _, _, s => s.finish .endless
  | fuel + 1, o, script, s =>
    if s.ended.isSome then s
    else match script with
      | .skip => s
      | .command words redirections =>
        s.runWords (substituteBy fun script s => run fuel .own script s)
          (o.redirectAll redirections) words
      | .sequence first second => run fuel o second (run fuel o first s)
      | .both first second =>
        let s := run fuel o first s
        if s.status == 0 then run fuel o second s else s
      | .either first second =>
        let s := run fuel o first s
        if s.status == 0 then s else run fuel o second s
      | .negation body =>
        let s := run fuel o body s
        s.done (if s.status == 0 then 1 else 0)
      | .pipe first second => s.pipeBy (fun s => run fuel o first s) fun s => run fuel o second s
      | .branch condition yes no =>
        let s := run fuel o condition s
        if s.status == 0 then run fuel o yes s else run fuel o no (s.done 0)
      | .loop wanted condition body => runLoop fuel o wanted condition body (s.done 0)
      | .each name words body =>
        let (s, fields) := s.expand (substituteBy fun script s => run fuel .own script s) words
        runEach fuel o name body fields (s.done 0)
      | .subshell body => s.afterSubshell (run fuel o body s)
      | .redirected body redirections => run fuel (o.redirectAll redirections) body s

/-- Runs a loop; the status is that of the last run of its body. -/
def runLoop : (fuel : Nat) → Outputs → Bool → Script → Script → State → State
  | 0, _, _, _, _, s => s.finish .endless
  | fuel + 1, o, wanted, condition, body, s =>
    let t := run fuel o condition s
    if t.ended.isSome then (t.leaves?).getD { t with ended := none }
    else if (t.status == 0) != wanted then t.done s.status
    else
      let u := run fuel o body t
      match u.leaves? with
      | some u => u
      | none => runLoop fuel o wanted condition body { u with ended := none }

/-- Runs the body of a loop for each field. -/
def runEach : (fuel : Nat) → Outputs → List Char → Script → List (List Char) → State → State
  | 0, _, _, _, _, s => s.finish .endless
  | _ + 1, _, _, _, [], s => s
  | fuel + 1, o, name, body, field :: fields, s =>
    let u := run fuel o body (s.bind name field)
    match u.leaves? with
    | some u => u
    | none => runEach fuel o name body fields { u with ended := none }

end

end State

/-! ## Programs -/

/-- The steps after which a script counts as endless. -/
def stepLimit : Nat := 200000

/-- The effect of a script; what is not one is a syntax error. -/
def runScript (bindings : List (List Char × List Char)) (text : List Char) : Host.Completion :=
  match script? text with
  | some script => (State.run stepLimit .own script (State.start bindings)).completion
  | none => (((State.start bindings).complain .stderr "Syntax error".toList).exit 2).completion

/-- The effect of a local program, if it is one of those known here. -/
def runProgram? (program : String) (arguments : List String)
    (environment : List (String × String)) : Option Host.Completion :=
  let arguments := arguments.map (·.toList)
  match program with
  | "echo" => some ⟨programEcho arguments, [], some 0, 0⟩
  | "printf" =>
    let output := printf arguments
    let faults := output.faults.flatMap fun fault => "printf: ".toList ++ fault ++ ['\n']
    some ⟨output.bytes, Text.encodeUtf8 faults, some (if faults.isEmpty then 0 else 1), 0⟩
  | "sh" =>
    match arguments with
    | ['-', 'c'] :: script :: _ =>
      some (runScript (environment.map fun (n, v) => (n.toList, v.toList)) script)
    | _ => some ⟨[], [], some 0, 0⟩
  | _ => none

end ProcedureCatalog.Shell
