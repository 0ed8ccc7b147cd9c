/-
# Shortening descriptions

Stored descriptions that look decorated or are too long are brought into normal form.
-/
import ProcedureCatalog.Catalog.Basic
import ProcedureCatalog.Description

namespace ProcedureCatalog.Catalog

/-- The text, behind its leading spaces, starts with a dash or a double slash, or what stands
before its first null character is too long. -/
def looksDecorated (text : List Char) : Bool :=
  let start := text.dropWhile (· == ' ')
  ['-'].isPrefixOf start || ['/', '/'].isPrefixOf start ||
    (Like.visible text).length > Description.limit

/-- The procedure is covered: every one is without a filter. -/
def isCovered (filter : Option (String × String)) (r : StoredProcedure) : Bool :=
  match filter with
  | none => true
  | some (library, program) => r.belongsTo library program

/-- The shorter text that replaces the description. -/
def shorterText? (r : StoredProcedure) : Option String :=
  match r.description with
  | none => none
  | some text =>
    if looksDecorated text.toList && Description.normalize text != text then
      some (Description.normalize text)
    else none

/-- The procedure with a new text; an empty text clears the description. -/
def replaceText (text now : String) (r : StoredProcedure) : StoredProcedure :=
  if text.isEmpty then r.clear now else { r with description := some text, updatedAt := now }

/-- The procedure with its description shortened. -/
def shortenRow (now : String) (r : StoredProcedure) : StoredProcedure :=
  match shorterText? r with
  | some text => replaceText text now r
  | none => r

/-- The stored source is none or a known one. -/
def hasKnownSource (r : StoredProcedure) : Bool :=
  r.source.all fun text => (DescriptionSource.ofIdentifier? text).isSome

/-- The catalog with the descriptions of the covered procedures shortened, and how many changed.
A changed row must not keep an unknown source. -/
def shorten (c : Catalog) (filter : Option (String × String)) (now : String) :
    Except CatalogError (Catalog × Nat) :=
  let changed := c.procedures.filter fun r => isCovered filter r && (shorterText? r).isSome
  let procedures := c.procedures.map fun r => if isCovered filter r then shortenRow now r else r
  if changed.all fun r => hasKnownSource (shortenRow now r) then
    .ok ({ c with procedures := procedures }, changed.length)
  else .error (.statement .checkFailed)

end ProcedureCatalog.Catalog
