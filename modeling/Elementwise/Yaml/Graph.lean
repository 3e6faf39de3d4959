import Elementwise.Yaml.Scalar
import Elementwise.Yaml.Token

/-!
# The nodes of a configuration file

Tokens are read into nodes: scalars, sequences and mappings.  A node that has a name can stand at
several places, even inside of itself, so nodes are numbered and refer to each other by number.

## What is here

* `Yaml.Node`, `Yaml.Graph` — a node, and the nodes of a document.
* `Yaml.Graph.ofTokens` — the only document of a file.
-/

set_option autoImplicit false
namespace Elementwise
namespace Yaml

/-- A node. -/
inductive Node where
  | scalar (kind : Kind) (text : Text)
  | sequence (kind : Kind) (items : List Nat)
  | mapping (kind : Kind) (entries : List (Nat × Nat))
deriving DecidableEq, Inhabited, Repr

namespace Node

/-- The kind of a node. -/
def kind : Node → Kind
  | scalar k _ | sequence k _ | mapping k _ => k

/-- A node with another kind. -/
def withKind (k : Kind) : Node → Node
  | scalar _ t => scalar k t
  | sequence _ items => sequence k items
  | mapping _ entries => mapping k entries

/-- The scalar that stands where nothing is written. -/
def empty : Node := scalar .null []

end Node

/-- The nodes of a document. -/
structure Graph where
  nodes : Array Node := #[]
  /-- The node that holds all others. -/
  root : Nat := 0
deriving Inhabited, Repr

namespace Graph

/-- The node with a number. -/
def nodeAt (g : Graph) (i : Nat) : Node := g.nodes[i]?.getD .empty

/-- A graph in which another node has a number. -/
def setNode (g : Graph) (i : Nat) (n : Node) : Graph :=
  { g with nodes := g.nodes.setIfInBounds i n }

/-! ## Reading tokens -/

/-- Tokens yet to be read, the fault behind the last of them, and the nodes so far. -/
structure Source where
  tokens : List Token
  fault : Option Fault := none
  /-- The short names that tags may begin with, and what they stand for. -/
  handles : List (Text × Text) := []
  /-- The numbers of the nodes that have names. -/
  named : List (Text × Nat) := []
  nodes : Array Node := #[]
deriving Inhabited, Repr

/-- Reading a part of a document. -/
abbrev Reading := StateT Source (Except Fault)

/-- The file is malformed. -/
def malformed {α : Type} : Reading α := throw .malformed

/-- The next token. -/
def peek? : Reading (Option Token) := do
  match (← get).tokens, (← get).fault with
  | t :: _, _ => return some t
  | [], none => return none
  | [], some e => throw e

/-- Passes a token. -/
def pass : Reading Unit := modify fun s => { s with tokens := s.tokens.drop 1 }

/-- Whether the next token is one of some tokens. -/
def isNext (ts : List Token) : Reading Bool := return (← peek?).any ts.contains

/-- Passes the next token if it is `t`; says whether it was. -/
def take (t : Token) : Reading Bool := do
  let found ← isNext [t]
  if found then pass
  return found

/-- Passes `t`, which must come next. -/
def require (t : Token) : Reading Unit := do
  if !(← take t) then malformed

/-- Adds a node and gives its number. -/
def add (n : Node) : Reading Nat := do
  let i := (← get).nodes.size
  modify fun s => { s with nodes := s.nodes.push n }
  return i

/-- Adds the scalar that stands where nothing is written. -/
def addEmpty : Reading Nat := add .empty

/-- Puts another node in the place of a node. -/
def replace (i : Nat) (n : Node) : Reading Unit :=
  modify fun s => { s with nodes := s.nodes.setIfInBounds i n }

/-! ## Names and tags -/

/-- What stands in front of a node. -/
structure Properties where
  name : Option Text := none
  tag : Option Text := none
deriving DecidableEq, Inhabited, Repr

/-- The short names that need no directive. -/
def defaultHandles : List (Text × Text) :=
  [([.scalar '!'], [.scalar '!']), ([.scalar '!', .scalar '!'], Kind.tagStem)]

/-- A tag written out; its short name must stand for something. -/
def fullTag : Option Text → Text → Reading Text
  | none, rest => return rest
  | some handle, rest => do
    match ((← get).handles ++ defaultHandles).lookup handle with
    | some beginning => return beginning ++ rest
    | none => malformed

/-- Reads the name in front of a node, if there is one. -/
def nodeName? : Reading (Option Text) := do
  match ← peek? with
  | some (.anchor name) => pass; return some name
  | _ => return none

/-- Reads the tag in front of a node, if there is one. -/
def nodeTag? : Reading (Option (Option Text × Text)) := do
  match ← peek? with
  | some (.tag handle rest) => pass; return some (handle, rest)
  | _ => return none

/-- Reads the name and the tag in front of a node, in either order. -/
def properties : Reading Properties := do
  let before ← nodeName?
  let tag ← nodeTag?
  let name ← if before.isNone && tag.isSome then nodeName? else pure before
  match tag with
  | none => return { name }
  | some (handle, rest) => return { name, tag := some (← fullTag handle rest) }

namespace Properties

/-- The tag that leaves the kind of a node open. -/
def openTag : Text := [.scalar '!']

/-- The kind of a node, given the kind it has without a tag. -/
def kind (p : Properties) (otherwise : Kind) : Kind :=
  match p.tag with
  | none => otherwise
  | some tag => if tag = openTag then otherwise else Kind.ofTag tag

/-- The kind of a scalar.  Without a tag one in quotes is a text. -/
def scalarKind (p : Properties) (text : Text) (isPlain : Bool) : Kind :=
  if p.tag.isNone && !isPlain then .text else p.kind (kindOf text)

end Properties

/-- Adds a node with its name, which must be new. -/
def addNamed (p : Properties) (n : Node) : Reading Nat := do
  match p.name with
  | none => add n
  | some name =>
    if (← get).named.any fun e => e.1 = name then malformed
    let i ← add n
    modify fun s => { s with named := (name, i) :: s.named }
    return i

/-- The number of the node with a name. -/
def named (name : Text) : Reading Nat := do
  match (← get).named.lookup name with
  | some i => return i
  | none => malformed

/-! ## Nodes -/

mutual

/-- Reads a node.  Blocks are possible outside of flow collections only, and a sequence without
indentation only behind a key. -/
def node (isBlock mayBeIndentless : Bool) : Nat → Reading Nat
  | 0 => malformed
  | fuel + 1 => do
    if let some (.alias name) := ← peek? then
      pass
      named name
    else content isBlock mayBeIndentless (← properties) fuel

/-- Reads what follows the name and the tag of a node. -/
def content (isBlock mayBeIndentless : Bool) (p : Properties) : Nat → Reading Nat
  | 0 => malformed
  | fuel + 1 => do
    match ← peek? with
    | some (.scalar text isPlain) =>
      pass
      addNamed p (.scalar (p.scalarKind text isPlain) text)
    | some .blockEntry => if mayBeIndentless then sequence (indentlessItems fuel) else absent
    | some .flowSequence => pass; sequence (flowItems true fuel)
    | some .flowMapping => pass; mapping (flowEntries true fuel)
    | some .blockSequence => if isBlock then pass; sequence (blockItems fuel) else absent
    | some .blockMapping => if isBlock then pass; mapping (blockEntries fuel) else absent
    | _ => absent
where
  /-- Reads the items of a sequence, which has its name already inside of itself. -/
  sequence (items : Reading (List Nat)) : Reading Nat := do
    let kind := p.kind .sequence
    let i ← addNamed p (.sequence kind [])
    replace i (.sequence kind (← items))
    return i
  /-- Reads the entries of a mapping, which has its name already inside of itself. -/
  mapping (entries : Reading (List (Nat × Nat))) : Reading Nat := do
    let kind := p.kind .mapping
    let i ← addNamed p (.mapping kind [])
    replace i (.mapping kind (← entries))
    return i
  /-- Nothing can stand behind a name or a tag only. -/
  absent : Reading Nat :=
    if p.name.isSome || p.tag.isSome then addNamed p (.scalar (p.kind .null) []) else malformed

/-- Reads a node, unless one of some tokens comes next. -/
def nodeUnless (stops : List Token) (isBlock : Bool) : Nat → Reading Nat
  | 0 => malformed
  | fuel + 1 => do
    if ← isNext stops then addEmpty else node isBlock isBlock fuel

/-- Reads the items of an indented sequence and its end. -/
def blockItems : Nat → Reading (List Nat)
  | 0 => malformed
  | fuel + 1 => do
    if ← take .blockEntry then
      let item ← if ← isNext [.blockEntry, .blockEnd] then addEmpty else node true false fuel
      return item :: (← blockItems fuel)
    else
      require .blockEnd
      return []

/-- Reads the items of a sequence that is not indented. -/
def indentlessItems : Nat → Reading (List Nat)
  | 0 => malformed
  | fuel + 1 => do
    if ← take .blockEntry then
      let item ←
        if ← isNext [.blockEntry, .key, .value, .blockEnd] then addEmpty
        else node true false fuel
      return item :: (← indentlessItems fuel)
    else return []

/-- Reads the entries of an indented mapping and its end. -/
def blockEntries : Nat → Reading (List (Nat × Nat))
  | 0 => malformed
  | fuel + 1 => do
    if ← take .key then
      let key ← nodeUnless [.key, .value, .blockEnd] true fuel
      let value ←
        if ← take .value then nodeUnless [.key, .value, .blockEnd] true fuel else addEmpty
      return (key, value) :: (← blockEntries fuel)
    else
      require .blockEnd
      return []

/-- Reads the items of a sequence in brackets and the closing bracket.  A pair among them is a
mapping with one entry. -/
def flowItems (isFirst : Bool) : Nat → Reading (List Nat)
  | 0 => malformed
  | fuel + 1 => do
    if ← take .flowSequenceEnd then return []
    if !isFirst then
      require .flowEntry
      if ← take .flowSequenceEnd then return []
    let item ←
      if ← take .key then
        let key ← nodeUnless [.value, .flowEntry, .flowSequenceEnd] false fuel
        let value ←
          if ← take .value then nodeUnless [.flowEntry, .flowSequenceEnd] false fuel
          else addEmpty
        add (.mapping .mapping [(key, value)])
      else node false false fuel
    return item :: (← flowItems false fuel)

/-- Reads the entries of a mapping in braces and the closing brace. -/
def flowEntries (isFirst : Bool) : Nat → Reading (List (Nat × Nat))
  | 0 => malformed
  | fuel + 1 => do
    if ← take .flowMappingEnd then return []
    if !isFirst then
      require .flowEntry
      if ← take .flowMappingEnd then return []
    let isPair ← take .key
    let key ←
      if isPair then nodeUnless [.value, .flowEntry, .flowMappingEnd] false fuel
      else node false false fuel
    let hasValue ← if isPair then take .value else pure false
    let value ←
      if hasValue then nodeUnless [.flowEntry, .flowMappingEnd] false fuel else addEmpty
    return (key, value) :: (← flowEntries false fuel)

end

/-! ## Documents -/

/-- Passes all tokens of a kind. -/
def passAll (t : Token) : Reading Unit :=
  modify fun s => { s with tokens := s.tokens.dropWhile fun u => u = t }

/-- Reads the directives in front of a document.  The version, which must be the first one, and a
short name can be told once only. -/
def directives : Nat → Bool → Reading Unit
  | 0, _ => malformed
  | fuel + 1, hasVersion => do
    match ← peek? with
    | some (.directive d) =>
      pass
      match d with
      | .version major =>
        if hasVersion || major != 1 then malformed
        directives fuel true
      | .handle name beginning =>
        if (← get).handles.any fun e => e.1 = name then malformed
        modify fun s => { s with handles := (name, beginning) :: s.handles }
        directives fuel hasVersion
      | .other => directives fuel hasVersion
    | _ => return

/-- Whether a document is introduced by directives or a mark. -/
def isIntroduced : Reading Bool := do
  match ← peek? with
  | some (.directive _) | some .documentStart => return true
  | _ => return false

/-- Whether a document ends here. -/
def isDocumentEnd : Reading Bool := do
  match ← peek? with
  | none | some (.directive _) | some .documentStart | some .documentEnd => return true
  | _ => return false

/-- Reads the only document of a file. -/
def document (fuel : Nat) : Reading Nat := do
  let isEmpty ←
    if ← isIntroduced then
      directives fuel false
      require .documentStart
      isDocumentEnd
    else pure (← peek?).isNone
  let root ← if isEmpty then addEmpty else node true false fuel
  passAll .documentEnd
  if (← peek?).isSome then malformed
  return root

/-- The only document of a file, given its tokens up to a fault. -/
def ofTokens (tokens : List Token) (fault : Option Fault) : Except Fault Graph :=
  ((document (3 * tokens.length + 3)).run { tokens, fault }).map fun (root, s) =>
    { nodes := s.nodes, root }

end Graph
end Yaml
end Elementwise
