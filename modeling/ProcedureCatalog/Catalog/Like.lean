/-
# The pattern language of searches

In a pattern `%` stands for any run of characters and `_` for one character. Every other character
stands for itself, up to the case of ASCII letters. Patterns and texts end at their first null
character.

One rule of the database is left out: it takes the noncharacters U+FFFE and U+FFFF, in patterns and
in texts, for U+FFFD. Here each of the three stands for itself alone.

A pattern is read from left to right beside the list of what may be left of the text. That list
holds suffixes of one text, the longest first, so a run adds no more than the suffixes of its head.
-/

namespace ProcedureCatalog.Like

/-- The part of a text before its first null character. -/
def visible (text : List Char) : List Char := text.takeWhile (· != '\x00')

/-- The text and what is left of it after each of its characters. -/
def suffixes : List Char → List (List Char)
  | [] => [[]]
  | c :: cs => (c :: cs) :: suffixes cs

/-- What is left of a text whose first character fits one of a pattern that is not a run. -/
def afterOne? (p : Char) : List Char → Option (List Char)
  | [] => none
  | c :: rest => if p == '_' || p.toLower == c.toLower then some rest else none

/-- What may be left of the text after one more character of the pattern. -/
def step (rests : List (List Char)) (p : Char) : List (List Char) :=
  if p == '%' then
    match rests with
    | [] => []
    | longest :: _ => suffixes longest
  else rests.filterMap (afterOne? p)

/-- The whole text fits the pattern. -/
def fits (pattern text : List Char) : Bool :=
  ((visible pattern).foldl step [visible text]).any (·.isEmpty)

/-- The pattern for texts that contain the given one. -/
def containing (text : List Char) : List Char := '%' :: text ++ ['%']

/-- The most bytes that a pattern may have. -/
def maxSize : Nat := 50000

/-- The pattern has too many bytes to be used. -/
def isTooLong (pattern : List Char) : Bool := (String.ofList pattern).utf8ByteSize > maxSize

end ProcedureCatalog.Like
