/-
# Source lines

Lines of a source member: blank, a comment with its text, or code.

* `classify` recognises comments of the free form (`//`), full-line star comments (`**`) and the
  fixed form (a star in column 7).
* `trimDecoration` and `isDecorative` deal with the stars, dashes and slashes that frame comments.
-/
import ProcedureCatalog.Text.Blank

namespace ProcedureCatalog

open Text

/-! ## Kinds of lines -/

/-- What a source line is; a comment carries its trimmed text. -/
inductive LineClass where
  | blank
  | comment (content : List Char)
  | code
  deriving DecidableEq, Repr

namespace LineClass

/-- A line that the walk to a comment block passes over. -/
def isTransparent : LineClass → Bool
  | blank => true
  | comment _ => true
  | code => false

/-- The text of a comment; nothing for other lines. -/
def content : LineClass → List Char
  | comment text => text
  | _ => []

/-- The word for the kind in output. -/
def label : LineClass → String
  | blank => "blank"
  | comment _ => "comment"
  | code => "code"

end LineClass

namespace SourceLine

/-- The text behind a star in column 7. -/
def fixedComment? (line : List Char) : Option (List Char) :=
  match line.drop 6 with
  | '*' :: rest => some rest
  | _ => none

/-- The kind of a line: the comment markers are tried in the order `//`, `**`, column 7. -/
def classify (line : List Char) : LineClass :=
  match trim line with
  | [] => .blank
  | '/' :: '/' :: rest => .comment (trim rest)
  | '*' :: '*' :: rest => .comment (trim rest)
  | _ :: _ =>
    match fixedComment? line with
    | some rest => .comment (trim rest)
    | none => .code

/-- The text without its trailing run of stars, trimmed. -/
def trimDecoration (cs : List Char) : List Char :=
  trim (dropEndWhile (· == '*') (trimEnd cs))

/-- A character of a frame: a dash, a star, a slash or a blank. -/
def isFrame (c : Char) : Bool := c == '-' || c == '*' || c == '/' || isBlank c

/-- A text that carries no words. -/
def isDecorative (cs : List Char) : Bool := cs.all isFrame

/-- A comment text without the stars and slashes it starts with, trimmed. -/
def dropCommentMarkers (cs : List Char) : List Char :=
  trim (cs.dropWhile fun c => c == '*' || c == '/')

end SourceLine

end ProcedureCatalog
