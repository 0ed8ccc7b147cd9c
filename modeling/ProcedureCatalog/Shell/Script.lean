/-
# Shell scripts

Scripts as trees: simple commands with words and redirections, joined by sequence, conditions,
loops and pipes. The readers take the tokens of a construct and leave those behind it; their fuel
bounds the depth of the tree.
-/
import ProcedureCatalog.Shell.Word

namespace ProcedureCatalog.Shell

/-! ## Scripts -/

/-- Where output goes. -/
inductive Target where
  | stdout
  | stderr
  | nowhere
  deriving DecidableEq, Repr

/-- The stream with the given number is connected to a target. -/
structure Redirection where
  descriptor : Nat
  target : Target
  deriving DecidableEq, Repr

/-- A script. -/
inductive Script where
  | skip
  | command (words : List Word) (redirections : List Redirection)
  | sequence (first second : Script)
  /-- The second runs if the first succeeds. -/
  | both (first second : Script)
  /-- The second runs if the first fails. -/
  | either (first second : Script)
  | negation (body : Script)
  /-- The second reads what the first writes. -/
  | pipe (first second : Script)
  | branch (condition yes no : Script)
  /-- The body runs again while the success of the condition is the one wanted. -/
  | loop (wanted : Bool) (condition body : Script)
  /-- The body runs for each field of the words. -/
  | each (name : List Char) (words : List Word) (body : Script)
  | subshell (body : Script)
  | redirected (body : Script) (redirections : List Redirection)
  deriving DecidableEq, Repr

/-! ## Tokens -/

/-- The characters of a word that has no expansions. -/
def literal? (word : Word) : Option (List Char) :=
  word.mapM fun part =>
    match part with
    | .char c => some c
    | _ => none

/-- The token is the word of the given text. -/
def isKeyword (text : String) : Token → Bool
  | .word word => literal? word == some text.toList
  | .operator _ => false

/-- The token is a line feed. -/
def isBreak (token : Token) : Bool := token == .operator ['\n']

/-- The words that end a list of commands. -/
def closers : List String :=
  ["then", "else", "elif", "fi", "do", "done", (Char.ofNat 0x7D).toString]

/-- A list of commands ends before these tokens. -/
def endsList : List Token → Bool
  | [] => true
  | token :: _ => token == .operator [')'] || closers.any (isKeyword · token)

/-- The tokens behind a word that has to come next. -/
def behind? (text : String) : List Token → Option (List Token)
  | [] => none
  | token :: rest => if isKeyword text token then some rest else none

/-! ## Redirections -/

/-- The number of the stream that is redirected. -/
def descriptor? (sign digits : List Char) : Option Nat :=
  match digits with
  | [] => some (if sign.head? == some '<' then 0 else 1)
  | ['0'] => some 0
  | ['1'] => some 1
  | ['2'] => some 2
  | _ => none

/-- The redirection that an operator and the word behind it make. -/
def redirection? (operator word : List Char) : Option Redirection := do
  let sign := operator.dropWhile Char.isDigit
  let descriptor ← descriptor? sign (operator.takeWhile Char.isDigit)
  match sign, word with
  | ['>', '&'], ['1'] => some ⟨descriptor, .stdout⟩
  | ['>', '&'], ['2'] => some ⟨descriptor, .stderr⟩
  | ['>', '&'], _ => none
  | ['<', '&'], _ => none
  | ['<', '<'], _ => none
  | '<' :: _, _ => if word == "/dev/null".toList then some ⟨descriptor, .nowhere⟩ else none
  | '>' :: _, _ => if word == "/dev/null".toList then some ⟨descriptor, .nowhere⟩ else none
  | _, _ => none

/-- The redirections at the start of the tokens. -/
def readRedirections (read : List Redirection) :
    List Token → Option (List Redirection × List Token)
  | .operator operator :: .word target :: rest =>
    match (literal? target).bind (redirection? operator) with
    | some redirection => readRedirections (read ++ [redirection]) rest
    | none => some (read, .operator operator :: .word target :: rest)
  | rest => some (read, rest)

/-- The operator redirects a stream. -/
def isRedirecting (operator : List Char) : Bool :=
  operator.any fun c => c == '<' || c == '>'

/-- A simple command with the words and redirections read so far. -/
def readSimple (words : List Word) (redirections : List Redirection) :
    List Token → Option (Script × List Token)
  | .word word :: rest => readSimple (words ++ [word]) redirections rest
  | .operator operator :: .word target :: rest =>
    if isRedirecting operator then do
      let redirection ← redirection? operator (← literal? target)
      readSimple words (redirections ++ [redirection]) rest
    else some (.command words redirections, .operator operator :: .word target :: rest)
  | rest =>
    if words.isEmpty && redirections.isEmpty then none
    else some (.command words redirections, rest)

/-! ## Constructs -/

/-- The words of a loop up to the end of the command. -/
def readWords (words : List Word) : List Token → List Word × List Token
  | .word word :: rest => readWords (words ++ [word]) rest
  | rest => (words, rest)

/-- The tokens without a semicolon or line feeds in front. -/
def skipSeparator (tokens : List Token) : List Token :=
  match tokens with
  | .operator [';'] :: rest => rest.dropWhile isBreak
  | _ => tokens.dropWhile isBreak

/-- The name of a loop's parameter, the words it runs through, and the tokens behind them. -/
def readRange : List Token → Option (List Char × List Word × List Token)
  | .word name :: rest => do
    let name ← literal? name
    match rest.dropWhile isBreak with
    | token :: rest =>
      if isKeyword "in" token then
        let (words, rest) := readWords [] rest
        some (name, words, skipSeparator rest)
      else some (name, [], skipSeparator (token :: rest))
    | [] => none
  | _ => none

/-- A construct with the redirections behind it. -/
def finishConstruct (script : Script) (tokens : List Token) : Option (Script × List Token) := do
  let (redirections, rest) ← readRedirections [] tokens
  some (if redirections.isEmpty then script else .redirected script redirections, rest)

mutual

/-- A list of commands up to the word or parenthesis that ends it. -/
def readList : (fuel : Nat) → List Token → Option (Script × List Token)
  | 0, _ => none
  | fuel + 1, tokens =>
    let tokens := tokens.dropWhile isBreak
    if endsList tokens then some (.skip, tokens)
    else do
      let (first, tokens) ← readChain fuel tokens
      match tokens with
      | .operator operator :: rest =>
        if operator == [';'] || operator == ['\n'] then do
          let (second, rest) ← readList fuel rest
          some (.sequence first second, rest)
        else if endsList tokens then some (first, tokens)
        else none
      | _ => if endsList tokens then some (first, tokens) else none

/-- Pipes joined by conditions. -/
def readChain : (fuel : Nat) → List Token → Option (Script × List Token)
  | 0, _ => none
  | fuel + 1, tokens => do
    let (first, tokens) ← readPipe fuel tokens
    extendChain fuel first tokens

/-- The rest of a chain that starts with the given script. -/
def extendChain : (fuel : Nat) → Script → List Token → Option (Script × List Token)
  | 0, _, _ => none
  | fuel + 1, first, tokens =>
    match tokens with
    | .operator ['&', '&'] :: rest => do
      let (second, rest) ← readPipe fuel (rest.dropWhile isBreak)
      extendChain fuel (.both first second) rest
    | .operator ['|', '|'] :: rest => do
      let (second, rest) ← readPipe fuel (rest.dropWhile isBreak)
      extendChain fuel (.either first second) rest
    | _ => some (first, tokens)

/-- Commands joined by pipes, behind an exclamation mark perhaps. -/
def readPipe : (fuel : Nat) → List Token → Option (Script × List Token)
  | 0, _ => none
  | fuel + 1, tokens =>
    match behind? "!" tokens with
    | some rest => do
      let (body, rest) ← readPipe fuel rest
      some (.negation body, rest)
    | none => do
      let (first, tokens) ← readCommand fuel tokens
      match tokens with
      | .operator ['|'] :: rest => do
        let (second, rest) ← readPipe fuel (rest.dropWhile isBreak)
        some (.pipe first second, rest)
      | _ => some (first, tokens)

/-- A construct with its redirections, or a simple command. -/
def readCommand : (fuel : Nat) → List Token → Option (Script × List Token)
  | 0, _ => none
  | fuel + 1, tokens =>
    match tokens with
    | [] => none
    | token :: rest =>
      if isKeyword "while" token then readLoop fuel true rest
      else if isKeyword "until" token then readLoop fuel false rest
      else if isKeyword "for" token then do
        let (name, words, rest) ← readRange rest
        let (body, rest) ← readList fuel (← behind? "do" rest)
        finishConstruct (.each name words body) (← behind? "done" rest)
      else if isKeyword "if" token then do
        let (script, rest) ← readBranch fuel rest
        finishConstruct script rest
      else if isKeyword (Char.ofNat 0x7B).toString token then do
        let (body, rest) ← readList fuel rest
        finishConstruct body (← behind? (Char.ofNat 0x7D).toString rest)
      else if token == .operator ['('] then do
        let (body, rest) ← readList fuel rest
        match rest with
        | .operator [')'] :: rest => finishConstruct (.subshell body) rest
        | _ => none
      else readSimple [] [] tokens

/-- The condition and the body of a loop. -/
def readLoop : (fuel : Nat) → Bool → List Token → Option (Script × List Token)
  | 0, _, _ => none
  | fuel + 1, wanted, tokens => do
    let (condition, rest) ← readList fuel tokens
    let (body, rest) ← readList fuel (← behind? "do" rest)
    finishConstruct (.loop wanted condition body) (← behind? "done" rest)

/-- The condition and the cases of a branch, up to its end. -/
def readBranch : (fuel : Nat) → List Token → Option (Script × List Token)
  | 0, _ => none
  | fuel + 1, tokens => do
    let (condition, rest) ← readList fuel tokens
    let (yes, rest) ← readList fuel (← behind? "then" rest)
    match behind? "elif" rest with
    | some rest => do
      let (no, rest) ← readBranch fuel rest
      some (.branch condition yes no, rest)
    | none =>
      match behind? "else" rest with
      | some rest => do
        let (no, rest) ← readList fuel rest
        some (.branch condition yes no, ← behind? "fi" rest)
      | none => some (.branch condition yes .skip, ← behind? "fi" rest)

end

/-- The script of a text; none when the text is not one. -/
def script? (text : List Char) : Option Script := do
  let tokens ← tokens? text
  match ← readList (8 * tokens.length + 8) tokens with
  | (script, []) => some script
  | _ => none

end ProcedureCatalog.Shell
