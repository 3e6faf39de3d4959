import Elementwise.Yaml.Graph

/-!
# The value of a configuration file

A document has a part for each of its nodes: a value, or a collection of other parts.  A repeated
key of a mapping keeps its place and takes the later value.  Only what is no collection can be a
key.

Collections are filled in the order in which they are met, each one when those met before it are
full.  So of several faults in a document the least deep one counts, and of these the first.

## What is here

* `Yaml.Part`, `Yaml.Document` — what the nodes of a document stand for.
* `Yaml.Document.ofText` — the document in the text of a file.
* `Yaml.Document.entry?` — the value of a key.
-/

set_option autoImplicit false
namespace Elementwise
namespace Yaml

/-- What a node stands for.  The parts of collections are given by their numbers. -/
inductive Part where
  | leaf (value : Value)
  | list (items : List Nat)
  | map (entries : List (Value × Nat))
  | set (members : List Value)
  | pairs (entries : List (Nat × Nat))
deriving Inhabited, Repr

/-! ## Keys -/

/-- The number that a boolean or an integer counts as. -/
def keyNumber? : Value → Option Int
  | .integer n => some n
  | .boolean b => some (if b then 1 else 0)
  | _ => none

/-- Whether two keys of mappings are the same.  Numbers and truth values are compared as numbers,
and times as points in time. -/
def sameKey : Value → Value → Bool
  | .null, .null => true
  | .text s, .text t => s = t
  | .bytes s, .bytes t => s = t
  | .date d, .date e => d = e
  | .moment m, .moment n => m.same n
  | .float x, .float y => x = y || (x.isZero && y.isZero)
  | .float x, v => (keyNumber? v).any x.isInteger
  | v, .float x => (keyNumber? v).any x.isInteger
  | v, w => (keyNumber? v).isSome && keyNumber? v = keyNumber? w

/-- Puts an entry into a mapping: a key that is there keeps its place and takes the new value. -/
def put {α : Type} (key : Value) (value : α) : List (Value × α) → List (Value × α)
  | [] => [(key, value)]
  | (k, v) :: es => if sameKey k key then (k, value) :: es else (k, v) :: put key value es

/-- The mapping of entries in order. -/
def mappingOf {α : Type} (entries : List (Value × α)) : List (Value × α) :=
  entries.foldl (fun es e => put e.1 e.2 es) []

/-! ## Building -/

/-- How far the parts of a document are built. -/
structure Building where
  graph : Graph
  parts : Array (Option Part)
  /-- The collections that were met, in order. -/
  collections : Array Nat := #[]
deriving Inhabited, Repr

namespace Building

/-- A step in which parts are built. -/
abbrev Step := StateT Building (Except Fault)

/-- The file is malformed. -/
def malformed {α : Type} : Step α := throw .malformed

/-- The node with a number. -/
def nodeAt (i : Nat) : Step Node := return (← get).graph.nodeAt i

/-- Puts another node in the place of a node. -/
def setNode (i : Nat) (n : Node) : Step Unit :=
  modify fun s => { s with graph := s.graph.setNode i n }

/-- The entries of a node, if it is a mapping. -/
def entriesAt (i : Nat) : Step (List (Nat × Nat)) := do
  match ← nodeAt i with
  | .mapping _ entries => return entries
  | _ => malformed

/-- Sets what a node stands for. -/
def setPart (i : Nat) (p : Part) : Step Unit :=
  modify fun s => { s with parts := s.parts.setIfInBounds i (some p) }

/-! ## Scalars -/

/-- The text of a node: that of a scalar, or that of the default entry of a mapping. -/
def textOf? (g : Graph) : Nat → Node → Option Text
  | _, .scalar _ t => some t
  | _, .sequence .. => none
  | 0, .mapping .. => none
  | fuel + 1, .mapping _ entries =>
    match entries.find? fun e => (g.nodeAt e.1).kind = .default with
    | some e => textOf? g fuel (g.nodeAt e.2)
    | none => none

/-- The value of a node that is no collection. -/
def leafValue (g : Graph) (n : Node) : Except Fault Value :=
  match n, textOf? g g.nodes.size n with
  | _, none => .error .malformed
  | .mapping .timestamp _, some _ => .error (.conversion .datelessCollection)
  | n, some t => scalarValue n.kind t

/-- The part for a collection of a kind that is yet to be filled. -/
def emptyPart : Kind → Part
  | .mapping => .map []
  | .set => .set []
  | .orderedMapping | .pairs => .pairs []
  | _ => .list []

/-- Builds the part for a node, unless it is there; collections are filled later. -/
def meet (i : Nat) : Step Unit := do
  let s ← get
  if (s.parts[i]?.getD none).isNone then
    let n := s.graph.nodeAt i
    if n.kind.isCollection then
      setPart i (emptyPart n.kind)
      modify fun s => { s with collections := s.collections.push i }
    else
      match leafValue s.graph n with
      | .ok v => setPart i (.leaf v)
      | .error e => throw e

/-! ## Merging -/

/-- The entries of mappings that a mapping merges: a mapping, or a sequence of mappings, of which
the last one comes first.  They are flattened in order. -/
def mergedEntries (flatten : Nat → Step Unit) (i : Nat) : Step (List (Nat × Nat)) := do
  match ← nodeAt i with
  | .mapping .. =>
    flatten i
    entriesAt i
  | .sequence _ items =>
    let lists ← items.mapM fun item => do
      let _ ← entriesAt item
      flatten item
      entriesAt item
    return lists.reverse.flatten
  | .scalar .. => malformed

/-- Makes the key of the default entry a text. -/
def plainKey (e : Nat × Nat) : Step Unit := do
  let n ← nodeAt e.1
  if n.kind = .default then setNode e.1 (n.withKind .text)

/-- Puts the entries that a mapping merges in front of its own. -/
def flatten : Nat → Nat → Step Unit
  | 0, _ => malformed
  | fuel + 1, i => do
    let entries ← entriesAt i
    let g := (← get).graph
    let isOwn (e : Nat × Nat) : Bool := (g.nodeAt e.1).kind != .merge
    match entries.dropWhile isOwn with
    | [] => entries.forM plainKey
    | merge :: rest =>
      let kind := (g.nodeAt i).kind
      setNode i (.mapping kind (entries.takeWhile isOwn ++ rest))
      let merged ← mergedEntries (flatten fuel) merge.2
      flatten fuel i
      setNode i (.mapping kind (merged ++ (← entriesAt i)))

/-- The number of entries of all mappings. -/
def entryCount (g : Graph) : Nat :=
  g.nodes.foldl (fun n node =>
    match node with
    | .mapping _ entries => n + entries.length
    | _ => n) 0

/-! ## Collections -/

/-- The entries of a mapping with the values of their keys. -/
def keyedEntries (i : Nat) : Step (List (Value × Nat)) := do
  let _ ← entriesAt i
  flatten (entryCount (← get).graph + 1) i
  let entries ← (← entriesAt i).mapM fun (k, v) => do
    meet k
    match (← get).parts[k]?.getD none with
    | some (.leaf key) =>
      meet v
      return (key, v)
    | _ => malformed
  return mappingOf entries

/-- The entries that stand in mappings of their own. -/
def singleEntries (items : List Nat) : Step (List (Nat × Nat)) :=
  items.mapM fun item => do
    match ← entriesAt item with
    | [(k, v)] =>
      meet k
      meet v
      return (k, v)
    | _ => malformed

/-- Fills a collection. -/
def fill (i : Nat) : Step Unit := do
  let n ← nodeAt i
  match n.kind, n with
  | .sequence, .sequence _ items =>
    items.forM meet
    setPart i (.list items)
  | .mapping, _ => setPart i (.map (← keyedEntries i))
  | .set, _ => setPart i (.set ((← keyedEntries i).map (·.1)))
  | .orderedMapping, .sequence _ items | .pairs, .sequence _ items =>
    setPart i (.pairs (← singleEntries items))
  | _, _ => malformed

/-- Fills the collections from the one with a number in their order on, and those met meanwhile. -/
def fillFrom : Nat → Nat → Step Unit
  | 0, _ => return
  | fuel + 1, k => do
    match (← get).collections[k]? with
    | some i =>
      fill i
      fillFrom fuel (k + 1)
    | none => return

/-- Builds all parts. -/
def build (g : Graph) : Step Unit := do
  meet g.root
  fillFrom g.nodes.size 0

end Building

/-! ## Documents -/

/-- What the nodes of a document stand for. -/
structure Document where
  parts : Array (Option Part) := #[]
  root : Nat := 0
deriving Inhabited, Repr

namespace Document

/-- The document that nodes stand for. -/
def ofGraph (g : Graph) : Except Fault Document :=
  ((Building.build g).run { graph := g, parts := Array.replicate g.nodes.size none }).map
    fun (_, s) => { parts := s.parts, root := g.root }

/-- The document in the text of a file. -/
def ofText (t : Text) : Except Fault Document := do
  let (tokens, fault) := tokens t
  ofGraph (← Graph.ofTokens tokens fault)

/-- The value of a part inside of some collections. -/
def valueIn (d : Document) : Nat → List Nat → Nat → Value
  | 0, _, _ => .null
  | fuel + 1, around, i =>
    let inside (j : Nat) : Value := valueIn d fuel (i :: around) j
    match d.parts[i]?.getD none with
    | none => .null
    | some (.leaf v) => v
    | some (.list items) => if around.contains i then .around false else .list (items.map inside)
    | some (.map entries) =>
      if around.contains i then .around true
      else .map (entries.map fun e => (e.1, inside e.2))
    | some (.set members) => .set members
    | some (.pairs entries) =>
      if around.contains i then .around false
      else .list (entries.map fun e => .pair (inside e.1) (inside e.2))

/-- The value of a part. -/
def valueAt (d : Document) (i : Nat) : Value := d.valueIn (d.parts.size + 1) [] i

/-- The entries of a document that is a mapping; one without a value has none. -/
def entries? (d : Document) : Option (List (Value × Nat)) :=
  match d.parts[d.root]?.getD none with
  | some (.map entries) => some entries
  | some (.leaf .null) => some []
  | _ => none

/-- The value of a key of a document that is a mapping. -/
def entry? (d : Document) (key : Text) : Option Value :=
  ((d.entries?.getD []).find? fun e => e.1.text? = some key).map fun e => d.valueAt e.2

end Document
end Yaml
end Elementwise
