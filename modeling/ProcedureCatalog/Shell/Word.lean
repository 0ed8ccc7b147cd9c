/-
# Shell words

Reading a command line as words and operators, with the quoting rules of the shell:

* inside single quotes every character stands for itself;
* inside double quotes a backslash quotes only a dollar sign, a backquote, a double quote, a
  backslash and a line feed;
* outside quotes a backslash quotes any character;
* a dollar sign or a backquote that is not quoted starts an expansion;
* pieces that touch form one word.
-/

namespace ProcedureCatalog.Shell

/-! ## Words -/

/-- A part of a word. -/
inductive Part where
  /-- A character that stands for itself. -/
  | char (c : Char)
  /-- The value of a parameter, with the text that stood in braces if there were any; outside
  quotes it is split into fields. -/
  | parameter (text : List Char) (quoted : Bool)
  /-- The output of a script; outside quotes it is split into fields. -/
  | output (script : List Char) (quoted : Bool)
  /-- The value of an arithmetic expression. -/
  | number (expression : List Char) (quoted : Bool)
  deriving DecidableEq, Repr

/-- The parts of one word. -/
abbrev Word := List Part

/-- A word or an operator of a command line. -/
inductive Token where
  | word (parts : Word)
  | operator (text : List Char)
  deriving DecidableEq, Repr

/-- Where the reader is: outside quotes or within one of the constructs. -/
inductive Mode where
  | plain
  | escape
  | single
  | double
  | doubleEscape
  /-- After a dollar sign. -/
  | dollar (quoted : Bool)
  /-- Inside the name of a parameter, read backwards. -/
  | name (quoted : Bool) (reversed : List Char)
  /-- Inside a parameter in braces. -/
  | braces (quoted : Bool) (reversed : List Char)
  /-- Inside parentheses behind a dollar sign, so many of them open. -/
  | parentheses (quoted : Bool) (depth : Nat) (reversed : List Char)
  /-- Inside backquotes. -/
  | backquotes (quoted : Bool) (reversed : List Char)
  /-- After the start of an operator, read backwards. -/
  | operator (reversed : List Char)
  | comment
  deriving DecidableEq, Repr

/-- The reader: the tokens so far and the parts of the current word, both read backwards. -/
structure Reader where
  tokens : List Token
  word : Option (List Part)
  mode : Mode
  deriving DecidableEq, Repr

namespace Reader

/-- The reader before the first character. -/
def start : Reader := ⟨[], none, .plain⟩

/-- The reader in another mode. -/
def enter (r : Reader) (mode : Mode) : Reader := { r with mode := mode }

/-- The reader with one more part in the current word. -/
def push (r : Reader) (part : Part) : Reader := { r with word := some (part :: r.word.getD []) }

/-- The reader with a current word, perhaps still empty. -/
def beginWord (r : Reader) : Reader := { r with word := some (r.word.getD []) }

/-- The reader with the current word finished. -/
def endWord (r : Reader) : Reader :=
  match r.word with
  | some parts => { r with tokens := .word parts.reverse :: r.tokens, word := none }
  | none => r

/-- The reader with an operator, read backwards, finished. -/
def endOperator (r : Reader) (reversed : List Char) : Reader :=
  { r with tokens := .operator reversed.reverse :: r.tokens, mode := .plain }

/-- The mode outside expansions. -/
def base (quoted : Bool) : Mode := if quoted then .double else .plain

/-! ## Characters -/

/-- A character that starts an operator. -/
def isOperatorChar (c : Char) : Bool := [';', '&', '|', '<', '>', '(', ')', '\n'].contains c

/-- The operators of two characters. -/
def longOperators : List (List Char) :=
  [['&', '&'], ['|', '|'], ['>', '>'], ['<', '<'], ['>', '&'], ['<', '&'], [';', ';']]

/-- A character of the name of a parameter. -/
def isNameChar (c : Char) : Bool := c.isAlphanum || c == '_'

/-- The name of a parameter of one character. -/
def isSpecial (c : Char) : Bool := c.isDigit || ['$', '?', '#', '@', '*', '-', '!'].contains c

/-- The digits of the current word, backwards, when it has nothing else. -/
def digits? (r : Reader) : Option (List Char) :=
  r.word.bind fun parts => parts.mapM fun part =>
    match part with
    | .char c => if c.isDigit then some c else none
    | _ => none

/-- An operator starts; digits right before a redirection belong to it. -/
def startOperator (r : Reader) (c : Char) : Reader :=
  match r.digits? with
  | some digits =>
    if (c == '<' || c == '>') && !digits.isEmpty then ⟨r.tokens, none, .operator (c :: digits)⟩
    else (r.endWord).enter (.operator [c])
  | none => (r.endWord).enter (.operator [c])

/-- A character outside quotes. -/
def feedPlain (r : Reader) (c : Char) : Reader :=
  let r := r.enter .plain
  if c == ' ' || c == '\t' then r.endWord
  else if isOperatorChar c then r.startOperator c
  else if c == '\\' then r.enter .escape
  else if c == '$' then r.enter (.dollar false)
  else if c == '"' then r.beginWord.enter .double
  else if c.toNat == 0x27 then r.beginWord.enter .single
  else if c.toNat == 0x60 then r.enter (.backquotes false [])
  else if c == '#' && r.word.isNone then r.enter .comment
  else r.push (.char c)

/-- A character inside double quotes. -/
def feedDouble (r : Reader) (c : Char) : Reader :=
  let r := r.enter .double
  if c == '"' then r.enter .plain
  else if c == '\\' then r.enter .doubleEscape
  else if c == '$' then r.enter (.dollar true)
  else if c.toNat == 0x60 then r.enter (.backquotes true [])
  else r.push (.char c)

/-- A character in or outside double quotes. -/
def feedBase (r : Reader) (quoted : Bool) (c : Char) : Reader :=
  if quoted then r.feedDouble c else r.feedPlain c

/-- The character behind a backslash inside double quotes. -/
def feedDoubleEscape (r : Reader) (c : Char) : Reader :=
  let r := r.enter .double
  if c == '\n' then r
  else if c == '$' || c == '"' || c == '\\' || c.toNat == 0x60 then r.push (.char c)
  else (r.push (.char '\\')).push (.char c)

/-- The character behind a dollar sign. -/
def feedDollar (r : Reader) (quoted : Bool) (c : Char) : Reader :=
  let r := r.enter (base quoted)
  if c.isAlpha || c == '_' then r.enter (.name quoted [c])
  else if c.toNat == 0x7B then r.enter (.braces quoted [])
  else if c == '(' then r.enter (.parentheses quoted 1 [])
  else if isSpecial c then r.push (.parameter [c] quoted)
  else (r.push (.char '$')).feedBase quoted c

/-- What the text in parentheses behind a dollar sign stands for: inside a second pair of
parentheses it is an expression. -/
def parenthesized (text : List Char) (quoted : Bool) : Part :=
  if text.head? == some '(' && text.getLast? == some ')' then
    .number (text.drop 1).dropLast quoted
  else .output text quoted

/-- A character inside parentheses. -/
def feedParentheses (r : Reader) (quoted : Bool) (depth : Nat) (reversed : List Char) (c : Char) :
    Reader :=
  if c == '(' then r.enter (.parentheses quoted (depth + 1) (c :: reversed))
  else if c != ')' then r.enter (.parentheses quoted depth (c :: reversed))
  else if depth ≤ 1 then (r.push (parenthesized reversed.reverse quoted)).enter (base quoted)
  else r.enter (.parentheses quoted (depth - 1) (c :: reversed))

/-- The next character. -/
def feed (r : Reader) (c : Char) : Reader :=
  match r.mode with
  | .plain => r.feedPlain c
  | .escape => if c == '\n' then r.enter .plain else (r.push (.char c)).enter .plain
  | .single => if c.toNat == 0x27 then r.enter .plain else r.push (.char c)
  | .double => r.feedDouble c
  | .doubleEscape => r.feedDoubleEscape c
  | .dollar quoted => r.feedDollar quoted c
  | .name quoted reversed =>
    if isNameChar c then r.enter (.name quoted (c :: reversed))
    else (r.push (.parameter reversed.reverse quoted)).feedBase quoted c
  | .braces quoted reversed =>
    if c.toNat == 0x7D then (r.push (.parameter reversed.reverse quoted)).enter (base quoted)
    else r.enter (.braces quoted (c :: reversed))
  | .parentheses quoted depth reversed => r.feedParentheses quoted depth reversed c
  | .backquotes quoted reversed =>
    if c.toNat == 0x60 then (r.push (.output reversed.reverse quoted)).enter (base quoted)
    else r.enter (.backquotes quoted (c :: reversed))
  | .operator reversed =>
    let signs := (reversed.reverse.dropWhile Char.isDigit) ++ [c]
    if longOperators.contains signs then r.endOperator (c :: reversed)
    else (r.endOperator reversed).feedPlain c
  | .comment => if c == '\n' then r.feedPlain c else r

/-- The tokens, unless a quote is still open. -/
def finish (r : Reader) : Option (List Token) :=
  match r.mode with
  | .plain => some r.endWord.tokens.reverse
  | .comment => some r.endWord.tokens.reverse
  | .operator reversed => some (r.endOperator reversed).tokens.reverse
  | .dollar false => some (r.push (.char '$')).endWord.tokens.reverse
  | .name false reversed =>
    some (r.push (.parameter reversed.reverse false)).endWord.tokens.reverse
  | .escape => some (r.push (.char '\\')).endWord.tokens.reverse
  | _ => none

end Reader

/-- The words and operators of a command line. -/
def tokens? (line : List Char) : Option (List Token) :=
  (line.foldl Reader.feed Reader.start).finish

/-- The parts of a text that stands inside double quotes. -/
def quotedParts (text : List Char) : Word :=
  let quote := Char.ofNat 0x22
  match tokens? (quote :: text ++ [quote]) with
  | some [.word parts] => parts
  | _ => text.map .char

end ProcedureCatalog.Shell
