import RedisGateway.Yaml.Tag
import RedisGateway.Yaml.Token

/-!
The nodes of a YAML document, built from its tokens. Nodes are numbered in the order in which they
begin, and a node knows its parts by their numbers: an anchored node may be part of several others,
and of itself.
-/

namespace RedisGateway.Yaml

/-- A node. -/
inductive Node where
  | scalar (tag : Tag) (content : Content)
  | sequence (tag : Tag) (items : List Nat)
  | mapping (tag : Tag) (entries : List (Nat × Nat))
  deriving Repr, Inhabited

namespace Node

def tag : Node → Tag
  | .scalar t _ | .sequence t _ | .mapping t _ => t

/-- The node with another tag. -/
def withTag (t : Tag) : Node → Node
  | .scalar _ c => .scalar t c
  | .sequence _ ns => .sequence t ns
  | .mapping _ es => .mapping t es

/-- The node of nothing. -/
def empty : Node := .scalar .null {}

/-- The entries of a mapping. -/
def entries : Node → List (Nat × Nat)
  | .mapping _ es => es
  | _ => []

end Node

/-- The state of building nodes. -/
structure Builder where
  tokens : List Token
  /-- The fault behind the tokens. -/
  behind : Option Fault := none
  /-- What the handles of tags stand for. -/
  handles : List (String × String) := []
  /-- The anchors so far, with the numbers of their nodes. -/
  anchors : List (String × Nat) := []
  /-- The nodes so far, where those that are not complete are empty. -/
  nodes : Array Node := #[]

/-- A part of building nodes. -/
abbrev Build (α : Type) := StateT Builder (Except Fault) α

namespace Build

/-- A fault of tokens that do not make up a document. -/
def grammarFault : Fault := .malformedDocument .grammar

/-- A fault of nodes that do not belong together. -/
def compositionFault : Fault := .malformedDocument .composition

/-- The next token. -/
def peek : Build Token := do
  match (← get).tokens, (← get).behind with
  | t :: _, _ => return t
  | [], some f => throw f
  | [], none => return .streamEnd

/-- Goes over a token. -/
def drop : Build Unit := modify fun b => { b with tokens := b.tokens.tail }

/-- Takes a token that must be there. -/
def demand (t : Token) : Build Unit := do
  if (← peek) = t then drop else throw grammarFault

/-- Takes a token if it is there. -/
def accept (t : Token) : Build Bool := do
  if (← peek) = t then
    drop
    return true
  else return false

/-- Whether the next token is one of several. -/
def next (ts : List Token) : Build Bool := do return ts.contains (← peek)

/-- Adds a node. -/
def add (n : Node) : Build Nat :=
  modifyGet fun b => (b.nodes.size, { b with nodes := b.nodes.push n })

/-- Adds the node of nothing. -/
def empty : Build Nat := add .empty

/-- The usual handles. -/
def usualHandles : List (String × String) := [("!", "!"), ("!!", Tag.start)]

/-- Properties of a node. -/
structure Properties where
  anchor : Option String := none
  tag : Option String := none

/-- The name of a tag. -/
def tagName (handle : Option String) (suffix : String) : Build String := do
  match handle with
  | none => return suffix
  | some h => match (← get).handles.lookup h with
    | some start => return start ++ suffix
    | none => throw grammarFault

/-- An anchor, if there is one. -/
def anchor? : Build (Option String) := do
  match ← peek with
  | .anchor name =>
    drop
    return some name
  | _ => return none

/-- A tag as it is written, if there is one. -/
def tag? : Build (Option (Option String × String)) := do
  match ← peek with
  | .tag handle suffix =>
    drop
    return some (handle, suffix)
  | _ => return none

/-- The properties of a node, in either order. -/
def properties : Build Properties := do
  let (anchor, tag) ← match ← anchor? with
    | some a => pure (some a, ← tag?)
    | none => match ← tag? with
      | some t => pure (← anchor?, some t)
      | none => pure (none, none)
  let tag ← match tag with
    | some (handle, suffix) => some <$> tagName handle suffix
    | none => pure none
  return { anchor, tag }

/-- A tag that is named, unless it is left open. -/
def namedTag? (p : Properties) : Option Tag :=
  match p.tag with
  | some "!" => none
  | some name => some (.ofName name)
  | none => none

/-- The tag of a scalar: the named one, or that of its form if it is plain or its tag is left
open. -/
def scalarTag (p : Properties) (plain : Bool) (content : Content) : Tag :=
  (namedTag? p).getD (if plain || p.tag.isSome then .ofPlain content.text else .str)

/-- Names a node; each anchor is used once. -/
def nameNode (number : Nat) (name : String) : Build Unit := do
  let b ← get
  if (b.anchors.lookup name).isSome then throw compositionFault
  set { b with anchors := b.anchors ++ [(name, number)] }

/-- Adds a node that has its number and its anchor, if it has one, before its parts are built. -/
def place (p : Properties) (body : Build Node) : Build Nat := do
  let number ← empty
  p.anchor.forM (nameNode number)
  let n ← body
  modify fun b => { b with nodes := b.nodes.set! number n }
  return number

/-- The node that an alias stands for. -/
def aliased (name : String) : Build Nat := do
  match (← get).anchors.lookup name with
  | some number => return number
  | none => throw compositionFault

mutual

/-- A node; inside brackets it cannot be a block, and only as an entry of a mapping can it be a
sequence that is indented no further. -/
def node (block indentless : Bool) : Nat → Build Nat
  | 0 => throw grammarFault
  | fuel + 1 => do
    match ← peek with
    | .reference name =>
      drop
      aliased name
    | _ =>
      let p ← properties
      let tagOr (t : Tag) : Tag := (namedTag? p).getD t
      match ← peek with
      | .blockEntry =>
        if indentless then place p (.sequence (tagOr .seq) <$> entries fuel)
        else emptyOr p
      | .scalar content plain =>
        drop
        place p (pure (.scalar (scalarTag p plain content) content))
      | .flowSequenceStart =>
        place p (do drop; .sequence (tagOr .seq) <$> flowItems true fuel)
      | .flowMappingStart =>
        place p (do drop; .mapping (tagOr .map) <$> flowEntries true fuel)
      | .blockSequenceStart =>
        if block then place p (do drop; .sequence (tagOr .seq) <$> blockItems fuel)
        else emptyOr p
      | .blockMappingStart =>
        if block then place p (do drop; .mapping (tagOr .map) <$> blockEntries fuel)
        else emptyOr p
      | _ => emptyOr p

/-- Nothing, which is a node only if it has properties. -/
def emptyOr (p : Properties) : Build Nat :=
  if p.anchor.isSome || p.tag.isSome then
    place p (pure (.scalar ((namedTag? p).getD .null) {}))
  else throw grammarFault

/-- The items of a sequence in a block of its own. -/
def blockItems : Nat → Build (List Nat)
  | 0 => throw grammarFault
  | fuel + 1 => do
    if ← accept .blockEntry then
      let item ← if ← next [.blockEntry, .blockEnd] then empty else node true false fuel
      return item :: (← blockItems fuel)
    else
      demand .blockEnd
      return []

/-- The items of a sequence that is indented no further than the mapping around it. -/
def entries : Nat → Build (List Nat)
  | 0 => throw grammarFault
  | fuel + 1 => do
    if ← accept .blockEntry then
      let item ← if ← next [.blockEntry, .key, .value, .blockEnd] then empty
        else node true false fuel
      return item :: (← entries fuel)
    else return []

/-- The entries of a mapping in a block. -/
def blockEntries : Nat → Build (List (Nat × Nat))
  | 0 => throw grammarFault
  | fuel + 1 => do
    if ← accept .key then
      let key ← if ← next [.key, .value, .blockEnd] then empty else node true true fuel
      let value ← if ← accept .value then
          if ← next [.key, .value, .blockEnd] then empty else node true true fuel
        else empty
      return (key, value) :: (← blockEntries fuel)
    else
      demand .blockEnd
      return []

/-- The items of a sequence in brackets. An item with a colon is a mapping of one entry. -/
def flowItems (first : Bool) : Nat → Build (List Nat)
  | 0 => throw grammarFault
  | fuel + 1 => do
    if ← accept .flowSequenceEnd then return []
    if !first then demand .flowEntry
    if ← accept .key then
      let key ← if ← next [.value, .flowEntry, .flowSequenceEnd] then empty
        else node false false fuel
      let value ← if ← accept .value then
          if ← next [.flowEntry, .flowSequenceEnd] then empty else node false false fuel
        else empty
      let item ← add (.mapping .map [(key, value)])
      return item :: (← flowItems false fuel)
    else if ← accept .flowSequenceEnd then return []
    else
      let item ← node false false fuel
      return item :: (← flowItems false fuel)

/-- The entries of a mapping in braces. -/
def flowEntries (first : Bool) : Nat → Build (List (Nat × Nat))
  | 0 => throw grammarFault
  | fuel + 1 => do
    if ← accept .flowMappingEnd then return []
    if !first then demand .flowEntry
    if ← accept .key then
      let key ← if ← next [.value, .flowEntry, .flowMappingEnd] then empty
        else node false false fuel
      let value ← if ← accept .value then
          if ← next [.flowEntry, .flowMappingEnd] then empty else node false false fuel
        else empty
      return (key, value) :: (← flowEntries false fuel)
    else if ← accept .flowMappingEnd then return []
    else
      let key ← node false false fuel
      let value ← empty
      return (key, value) :: (← flowEntries false fuel)

end

/-- The directives in front of a document: at most one version, of the first edition, and at most
one meaning for each handle. -/
def directives : Nat → Bool → Build Unit
  | 0, _ => throw grammarFault
  | fuel + 1, versioned => do
    match ← peek with
    | .directive d =>
      drop
      match d with
      | .version major _ =>
        if versioned || major ≠ 1 then throw grammarFault
        directives fuel true
      | .tag handle start =>
        let b ← get
        if (b.handles.lookup handle).isSome then throw grammarFault
        set { b with handles := b.handles ++ [(handle, start)] }
        directives fuel versioned
      | .unknown => directives fuel versioned
    | _ => modify fun b => { b with handles := b.handles ++ usualHandles }

/-- A document's own first line, with the directives in front of it. -/
def documentStart (fuel : Nat) : Build Unit := do
  modify fun b => { b with handles := [] }
  directives fuel false
  demand .documentStart

/-- Goes over marks that end documents. -/
def dropEnds : Nat → Build Unit
  | 0 => pure ()
  | fuel + 1 => do
    if ← accept .documentEnd then dropEnds fuel

/-- Whether a token begins a document that is marked as one. -/
def beginsDocument : Token → Bool
  | .directive _ | .documentStart => true
  | _ => false

/-- Whether a token leaves a document without content. -/
def leavesEmpty : Token → Bool
  | .directive _ | .documentStart | .documentEnd | .streamEnd => true
  | _ => false

/-- The single document of a text, unless the text holds none. -/
def document (fuel : Nat) : Build (Option Nat) := do
  let t ← peek
  if t = .streamEnd then return none
  let root ←
    if beginsDocument t then do
      documentStart fuel
      if leavesEmpty (← peek) then empty else node true false fuel
    else do
      modify fun b => { b with handles := usualHandles }
      node true false fuel
  dropEnds fuel
  if (← peek) = .streamEnd then return some root
  documentStart fuel
  throw compositionFault

end Build

end RedisGateway.Yaml
