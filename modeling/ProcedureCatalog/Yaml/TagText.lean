/-
# Tags, anchors and directives

The tokens that name things: anchors and aliases, tags, and the directives before a document.
Reading starts at the first character of the token and fails by `none`.
-/
import ProcedureCatalog.Text.Utf8
import ProcedureCatalog.Yaml.ScalarText
import ProcedureCatalog.Yaml.Token

namespace ProcedureCatalog.Yaml

/-- A token and the cursor behind it. -/
abbrev TokenRead := Option (Token × Cursor)

/-- The name behind `&` or `*`. -/
def anchorName? (cursor : Cursor) : Option (List Char × Cursor) :=
  let (name, after) := (cursor.skip 1).span isNameChar
  let ended := atGap after.rest ||
    after.rest.head?.any fun c => ['?', ':', ',', ']', '\x7d', '%', '@', '\x60'].contains c
  if name.isEmpty || !ended then none else some (name, after)

/-! ## Tags -/

/-- A character of a tag; `verbatim` tags may hold flow indicators, too. -/
def isTagChar (verbatim : Bool) (c : Char) : Bool :=
  isNameChar c ||
    [';', '/', '?', ':', '@', '&', '=', '+', '$', '.', '%', '!', '~', '*', '\x27', '(',
      ')'].contains c ||
    verbatim && [',', '[', ']'].contains c

/-- The bytes of a text in which a percent sign and two hexadecimal digits give a byte. -/
def percentBytes? : List Char → Option (List UInt8)
  | [] => some []
  | '%' :: high :: low :: rest => do
    let byte := (← hexDigit? high) * 16 + (← hexDigit? low)
    return byte.toUInt8 :: (← percentBytes? rest)
  | c :: rest =>
    if c == '%' then none else (percentBytes? rest).map (Text.encodeUtf8 [c] ++ ·)

/-- The part of a tag behind its handle. -/
def tagSuffix? (verbatim : Bool) (cursor : Cursor) : Option (List Char × Cursor) := do
  let (written, after) := cursor.span (isTagChar verbatim)
  return (← Text.decode? (← percentBytes? written), after)

/-- An exclamation mark, letters, and perhaps another mark. -/
def tagHandle (cursor : Cursor) : List Char × Cursor :=
  let (letters, after) := (cursor.skip 1).span isNameChar
  if after.rest.head? == some '!' then ('!' :: letters ++ ['!'], after.skip 1)
  else ('!' :: letters, after)

/-- A tag. The handle of a verbatim tag is empty. -/
def tag? (flow : Bool) (cursor : Cursor) : TokenRead := do
  let (token, after) ←
    if cursor.rest.take 2 == ['!', '<'] then do
      let (suffix, after) ← tagSuffix? true (cursor.skip 2)
      if suffix.isEmpty || after.rest.head? != some '>' then failure
      pure (Token.tag [] suffix, after.skip 1)
    else do
      let (handle, behind) := tagHandle cursor
      let (suffix, after) ← tagSuffix? false behind
      if handle.length > 1 && handle.getLast? == some '!' then
        if suffix.isEmpty then failure
        pure (Token.tag handle suffix, after)
      else
        let suffix := handle.drop 1 ++ suffix
        pure (if suffix.isEmpty then Token.tag [] ['!'] else Token.tag ['!'] suffix, after)
  if atGap after.rest || flow && after.rest.head? == some ',' then return (token, after)
  failure

/-! ## Directives -/

/-- A number of one to nine digits. -/
def versionNumber? (cursor : Cursor) : Option (Nat × Cursor) :=
  let (digits, after) := cursor.span Char.isDigit
  if digits.isEmpty || 9 < digits.length then none
  else some (digits.foldl (fun n c => n * 10 + (c.toNat - '0'.toNat)) 0, after)

/-- The version behind the name of its directive. -/
def version? (cursor : Cursor) : TokenRead := do
  let (major, behind) ← versionNumber? (cursor.skipWhile isBlank)
  if behind.rest.head? != some '.' then failure
  let (minor, after) ← versionNumber? (behind.skip 1)
  return (.versionDirective major minor, after)

/-- The handle and its meaning behind the name of their directive. -/
def tagMeaning? (cursor : Cursor) : TokenRead := do
  let start := cursor.skipWhile isBlank
  if start.rest.head? != some '!' then failure
  let (handle, behind) := tagHandle start
  if handle.length > 1 && handle.getLast? != some '!' then failure
  if !behind.rest.head?.any isBlank then failure
  let (meaning, after) ← tagSuffix? true (behind.skipWhile isBlank)
  if meaning.isEmpty || !atGap after.rest then failure
  return (.tagDirective handle meaning, after)

/-- A directive, with the rest of its line. -/
def directive? (cursor : Cursor) : TokenRead := do
  let (name, behind) := (cursor.skip 1).span isNameChar
  if !atGap behind.rest then failure
  let (token, after) ←
    if name == "YAML".toList then version? behind
    else if name == "TAG".toList then tagMeaning? behind
    else none
  let blank := after.skipWhile isBlank
  let comment := if blank.rest.head? == some '#' then blank.skipWhile (!isBreak ·) else blank
  if comment.rest.head?.any (!isBreak ·) then failure
  return (token, comment.skip 1)

end ProcedureCatalog.Yaml
