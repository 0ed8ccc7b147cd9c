/-
# The nodes of a document

A document is a tree of scalars, sequences and mappings. A node may have an anchor; an alias
stands for the node of an anchor. Anchors are numbered by how many names were in use before
theirs, and a number stands for the last node that got it.

Reading fails by `none`; a text holds one document at most.
-/
import ProcedureCatalog.Yaml.Layout

namespace ProcedureCatalog.Yaml

/-- A node of a document. -/
inductive Node where
  | scalar (style : ScalarStyle) (tag : Option String) (text : String)
  | sequence (items : List Node)
  | mapping (pairs : List (Node × Node))
  /-- The node whose anchor has this number. -/
  | alias (number : Nat)
  deriving Repr

/-- The node that stands where nothing is written. -/
def Node.empty : Node := .scalar .plain none ""

/-- A node and the nodes of the anchors by number, the last first. -/
structure Document where
  root : Node
  anchored : List (Nat × Node)
  deriving Repr

/-- The node itself, or the node that an alias stands for. -/
def Document.follow (document : Document) (node : Node) : Node :=
  match node with
  | .alias number => (document.anchored.lookup number).getD .empty
  | _ => node

/-! ## Reading tokens -/

/-- The tokens to read, and what names mean. A node that is being read has no value yet. -/
structure Builder where
  tokens : List Token
  handles : List (List Char × List Char)
  names : List (List Char × Nat)
  anchored : List (Nat × Option Node)

/-- A step of reading. -/
abbrev Build := StateT Builder Option

namespace Build

/-- The next token. -/
def peek : Build Token := do
  match (← get).tokens with
  | token :: _ => return token
  | [] => return .streamEnd

/-- Drops the next token. -/
def advance : Build Unit := modify fun b => { b with tokens := b.tokens.drop 1 }

/-- Drops the next token if it is the given one. -/
def accept (token : Token) : Build Bool := do
  if (← peek) == token then
    advance
    return true
  return false

/-- Drops the next token, which must be the given one. -/
def expect (token : Token) : Build Unit := do
  if !(← accept token) then failure

/-- A new anchor, with the next number. -/
def beginAnchor (name : List Char) : Build Unit := modify fun b =>
  let number := b.names.length
  { b with
    names := (name, number) :: b.names.filter (·.1 != name)
    anchored := (number, none) :: b.anchored }

/-- Gives the last anchor without a value its node. -/
def fillAnchor (node : Node) : List (Nat × Option Node) → List (Nat × Option Node)
  | [] => []
  | (number, none) :: rest => (number, some node) :: rest
  | known :: rest => known :: fillAnchor node rest

/-- The node of the last anchor without a value. -/
def endAnchor (node : Node) : Build Unit := modify fun b =>
  { b with anchored := fillAnchor node b.anchored }

/-- The text of a tag: the meaning of its handle and its suffix. -/
def tagText (handle suffix : List Char) : Build String := do
  if handle.isEmpty then return String.ofList suffix
  match (← get).handles.lookup handle with
  | some meaning => return String.ofList (meaning ++ suffix)
  | none => failure

/-- The anchor and the tag of a node, each at most once and in either order. -/
def properties : Build (Option (List Char) × Option String) := do
  match ← peek with
  | .anchor name =>
    advance
    match ← peek with
    | .tag handle suffix =>
      advance
      return (some name, some (← tagText handle suffix))
    | _ => return (some name, none)
  | .tag handle suffix =>
    advance
    match ← peek with
    | .anchor name =>
      advance
      return (some name, some (← tagText handle suffix))
    | _ => return (none, some (← tagText handle suffix))
  | _ => return (none, none)

mutual

/-- A node. Where `block` is false it must not be a block; an `indentless` sequence of a mapping
stands at the column of its key. -/
def node (block indentless : Bool) : (fuel : Nat) → Build Node
  | 0 => failure
  | fuel + 1 => do
    if let .alias name ← peek then
      advance
      match (← get).names.lookup name with
      | some number => return .alias number
      | none => failure
    let (anchor, tag) ← properties
    if let some name := anchor then beginAnchor name
    let content ← (do
      match ← peek with
      | .scalar style text =>
        advance
        return .scalar style tag (String.ofList text)
      | .flowSequenceStart =>
        advance
        return .sequence (← flowItems true fuel)
      | .flowMappingStart =>
        advance
        return .mapping (← flowPairs true fuel)
      | .blockEntry =>
        if indentless then return .sequence (← indentlessItems fuel)
        else if anchor.isSome || tag.isSome then return .scalar .plain tag ""
        else failure
      | .blockSequenceStart =>
        if block then
          advance
          return .sequence (← blockItems fuel)
        else if anchor.isSome || tag.isSome then return .scalar .plain tag ""
        else failure
      | .blockMappingStart =>
        if block then
          advance
          return .mapping (← blockPairs fuel)
        else if anchor.isSome || tag.isSome then return .scalar .plain tag ""
        else failure
      | _ =>
        if anchor.isSome || tag.isSome then return .scalar .plain tag ""
        else failure : Build Node)
    if anchor.isSome then endAnchor content
    return content

/-- A node, unless one of the tokens `ends` shows that nothing is written. -/
def nodeUnless (ends : List Token) (block indentless : Bool) : (fuel : Nat) → Build Node
  | 0 => failure
  | fuel + 1 => do
    if ends.contains (← peek) then return .empty
    node block indentless fuel

/-- The entries of a block sequence. -/
def blockItems : (fuel : Nat) → Build (List Node)
  | 0 => failure
  | fuel + 1 => do
    if ← accept .blockEnd then return []
    expect .blockEntry
    let item ← nodeUnless [.blockEntry, .blockEnd] true false fuel
    return item :: (← blockItems fuel)

/-- The entries of a sequence at the column of its key. -/
def indentlessItems : (fuel : Nat) → Build (List Node)
  | 0 => failure
  | fuel + 1 => do
    if ← accept .blockEntry then
      let item ← nodeUnless [.blockEntry, .key, .value, .blockEnd] true false fuel
      return item :: (← indentlessItems fuel)
    else return []

/-- The pairs of a block mapping. -/
def blockPairs : (fuel : Nat) → Build (List (Node × Node))
  | 0 => failure
  | fuel + 1 => do
    if ← accept .blockEnd then return []
    expect .key
    let key ← nodeUnless [.key, .value, .blockEnd] true true fuel
    let value ←
      if ← accept .value then nodeUnless [.key, .value, .blockEnd] true true fuel
      else pure .empty
    return (key, value) :: (← blockPairs fuel)

/-- The entries of a flow sequence; a key makes a mapping of one pair. -/
def flowItems (first : Bool) : (fuel : Nat) → Build (List Node)
  | 0 => failure
  | fuel + 1 => do
    if ← accept .flowSequenceEnd then return []
    if !first then expect .flowEntry
    if ← accept .flowSequenceEnd then return []
    let item ←
      if ← accept .key then (do
        let key ← (do
          if [Token.value, .flowEntry, .flowSequenceEnd].contains (← peek) then
            advance
            return .empty
          node false false fuel : Build Node)
        let value ←
          if ← accept .value then nodeUnless [.flowEntry, .flowSequenceEnd] false false fuel
          else pure .empty
        return .mapping [(key, value)] : Build Node)
      else node false false fuel
    return item :: (← flowItems false fuel)

/-- The pairs of a flow mapping; a key may stand without a value. -/
def flowPairs (first : Bool) : (fuel : Nat) → Build (List (Node × Node))
  | 0 => failure
  | fuel + 1 => do
    if ← accept .flowMappingEnd then return []
    if !first then expect .flowEntry
    if ← accept .flowMappingEnd then return []
    let pair ←
      if ← accept .key then (do
        let key ← nodeUnless [.value, .flowEntry, .flowMappingEnd] false false fuel
        let value ←
          if ← accept .value then nodeUnless [.flowEntry, .flowMappingEnd] false false fuel
          else pure .empty
        return (key, value) : Build (Node × Node))
      else (do return (← node false false fuel, .empty) : Build (Node × Node))
    return pair :: (← flowPairs false fuel)

end

/-! ## Documents -/

/-- The handles that need no directive. -/
def knownHandles : List (List Char × List Char) :=
  [(['!'], ['!']), (['!', '!'], "tag:yaml.org,2002:".toList)]

/-- Adds the handles of the directives before a document. The version is 1.1 or 1.2, and given
once; so is a handle. -/
def directives : (fuel : Nat) → (versioned : Bool) → (named : List (List Char × List Char)) →
    Build Unit
  | 0, _, _ => failure
  | fuel + 1, versioned, named => do
    match ← peek with
    | .versionDirective major minor =>
      if versioned || major != 1 || minor != 1 && minor != 2 then failure
      advance
      directives fuel true named
    | .tagDirective handle meaning =>
      if (named.lookup handle).isSome then failure
      advance
      directives fuel versioned ((handle, meaning) :: named)
    | _ => modify fun b => { b with handles := named ++ knownHandles }

/-- A token that ends a document. -/
def endsDocument : Token → Bool
  | .versionDirective _ _ => true
  | .tagDirective _ _ => true
  | .documentStart => true
  | .documentEnd => true
  | .streamEnd => true
  | _ => false

/-- A token that starts a document explicitly. -/
def startsDocument (token : Token) : Bool :=
  endsDocument token && token != .documentEnd && token != .streamEnd

/-- Drops the marks of the end of a document. -/
def skipDocumentEnds : Build Unit := modify fun b =>
  { b with tokens := b.tokens.dropWhile (· == .documentEnd) }

/-- The only document; an empty text has an empty node. -/
def document (fuel : Nat) : Build Node := do
  let token ← peek
  if token == .streamEnd then return .empty
  let root ←
    if startsDocument token then do
      directives fuel false []
      expect .documentStart
      if endsDocument (← peek) then pure .empty else node true false fuel
    else node true false fuel
  skipDocumentEnds
  if (← peek) != .streamEnd then failure
  return root

end Build

/-- The document that tokens form. -/
def Document.ofTokens? (tokens : List Token) : Option Document := do
  let start : Builder := ⟨tokens, Build.knownHandles, [], []⟩
  let (root, builder) ← (Build.document (4 * tokens.length + 4)).run start
  return ⟨root, builder.anchored.filterMap fun (number, node) => node.map (number, ·)⟩

/-- The document that a text holds. -/
def Document.parse? (text : String) : Option Document :=
  (tokens? text.toList).bind Document.ofTokens?

end ProcedureCatalog.Yaml
