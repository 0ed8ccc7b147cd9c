/-
# The tokens of a document

Scalars and signs, with the starts and ends of blocks that the indentation of the text implies.
-/

namespace ProcedureCatalog.Yaml

/-- How a scalar is written. -/
inductive ScalarStyle where
  | plain
  | singleQuoted
  | doubleQuoted
  | literal
  | folded
  deriving DecidableEq, Repr

/-- A piece of a document. -/
inductive Token where
  | scalar (style : ScalarStyle) (text : List Char)
  | anchor (name : List Char)
  | alias (name : List Char)
  | tag (handle suffix : List Char)
  | versionDirective (major minor : Nat)
  | tagDirective (handle start : List Char)
  | documentStart
  | documentEnd
  | streamEnd
  | blockSequenceStart
  | blockMappingStart
  | blockEnd
  | blockEntry
  | flowSequenceStart
  | flowSequenceEnd
  | flowMappingStart
  | flowMappingEnd
  | flowEntry
  | key
  | value
  deriving DecidableEq, Repr

end ProcedureCatalog.Yaml
