/-
# Quoting

How a text is written inside SQL literals and inside the two kinds of shell quotes.

* `sqlText` doubles each single quote.
* `singleQuoted` closes the quotes around each single quote.
* `doubleQuoted` puts a backslash before each backslash and each double quote.
* `patternText` puts a backslash before each metacharacter of a search pattern.
-/

namespace ProcedureCatalog.Host

/-- A text with some characters replaced. -/
def replaceChars (f : Char → List Char) (text : String) : String :=
  .ofList (text.toList.flatMap f)

/-- A character inside an SQL literal. -/
def sqlChar (c : Char) : List Char := if c.toNat = 0x27 then [c, c] else [c]

/-- A text inside an SQL literal. -/
def sqlText (text : String) : String := replaceChars sqlChar text

/-- A character inside single quotes of a shell word. -/
def singleQuotedChar (c : Char) : List Char := if c.toNat = 0x27 then [c, '\\', c, c] else [c]

/-- A text inside single quotes of a shell word. -/
def singleQuoted (text : String) : String := replaceChars singleQuotedChar text

/-- A character inside double quotes of a shell word. -/
def doubleQuotedChar (c : Char) : List Char := if c = '\\' ∨ c = '"' then ['\\', c] else [c]

/-- A text inside double quotes of a shell word. -/
def doubleQuoted (text : String) : String := replaceChars doubleQuotedChar text

/-- The metacharacters of search patterns. -/
def patternMetacharacters : List Char := "\\.+*?()|[]\x7b\x7d^$#&-~".toList

/-- A character that stands for itself in a search pattern. -/
def patternChar (c : Char) : List Char := if c ∈ patternMetacharacters then ['\\', c] else [c]

/-- A text that stands for itself in a search pattern. -/
def patternText (text : String) : String := replaceChars patternChar text

end ProcedureCatalog.Host
