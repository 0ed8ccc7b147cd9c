/-
# Descriptions

The one-line form of a description: at most 280 characters and no leading decoration.

* `collapse` joins words by single spaces.
* `normalize` leaves a short undecorated text as it is. Otherwise it takes the text after the
  parentheses of a banner `NAME(): text // …`, or else the first part between double slashes that
  holds text, and cuts it to the limit.
-/
import ProcedureCatalog.Text.Blank

namespace ProcedureCatalog.Description

open Text

/-- The greatest number of characters in a description. -/
def limit : Nat := 280

/-- What marks a text that was cut. -/
def ellipsis : List Char := ['.', '.', '.']

/-! ## Decoration -/

/-- The text starts, after blanks, with a dash or a double slash. -/
def isDecorated (cs : List Char) : Bool :=
  match trimStart cs with
  | '-' :: _ => true
  | '/' :: '/' :: _ => true
  | _ => false

/-- The text without a leading double slash. -/
def dropSlashes : List Char → List Char
  | '/' :: '/' :: rest => rest
  | cs => cs

/-- The text without a leading run of dashes and then one double slash, trimmed. -/
def dropMarkers (cs : List Char) : List Char :=
  trim (dropSlashes (trimStart ((trimStart cs).dropWhile (· == '-'))))

/-- The text without any dashes, double slashes and blanks at its start. -/
def dropDecoration : List Char → List Char
  | '/' :: '/' :: rest => dropDecoration rest
  | c :: rest => if c == '-' || isBlank c then dropDecoration rest else c :: rest
  | [] => []

/-- The text without decoration at its start and without blanks at its end. -/
def undecorate (cs : List Char) : List Char := dropDecoration (trimEnd cs)

/-! ## Banners -/

/-- The text up to the first slash, when it is not empty and that slash is doubled or missing. -/
def bannerBody (cs : List Char) : Option (List Char) :=
  let body := cs.takeWhile (· != '/')
  match cs.dropWhile (· != '/') with
  | [] => if body.isEmpty then none else some body
  | '/' :: '/' :: _ => if body.isEmpty then none else some body
  | _ => none

/-- The body after the first `):` that has one. -/
def banner : List Char → Option (List Char)
  | ')' :: ':' :: rest =>
    match bannerBody rest with
    | some body => some body
    | none => banner rest
  | _ :: rest => banner rest
  | [] => none

/-! ## Segments -/

/-- The pieces between double slashes. -/
def segments : List Char → List (List Char)
  | '/' :: '/' :: rest => [] :: segments rest
  | c :: rest =>
    match segments rest with
    | [] => [[c]]
    | piece :: pieces => (c :: piece) :: pieces
  | [] => [[]]

/-- A segment with its dashes turned into blanks, collapsed. -/
def cleanSegment (cs : List Char) : List Char :=
  Text.collapse (cs.map fun c => if c == '-' then ' ' else c)

/-- The first segment that holds text, cleaned; the whole text when none does. -/
def firstSegment (cs : List Char) : List Char :=
  (((segments cs).map cleanSegment).find? (!·.isEmpty)).getD cs

/-! ## Normal form -/

/-- The text, cut and marked with an ellipsis when it is longer than the limit. -/
def abridge (cs : List Char) : List Char :=
  if cs.length > limit then cs.take (limit - ellipsis.length) ++ ellipsis else cs

/-- The normal form of a decorated or long text. -/
def condense (cs : List Char) : List Char :=
  let body := dropMarkers cs
  match banner body with
  | some text => trimEnd ((undecorate (Text.collapse text)).take limit)
  | none => abridge (undecorate (firstSegment body))

/-- The normal form of a description given by its characters. -/
def normalizeChars (cs : List Char) : List Char :=
  if !isDecorated cs && cs.length ≤ limit then cs else condense cs

/-- The normal form of a description. -/
def normalize (text : String) : String := String.ofList (normalizeChars text.toList)

/-- The words of the text with one space between each two. -/
def collapse (text : String) : String := String.ofList (Text.collapse text.toList)

end ProcedureCatalog.Description
