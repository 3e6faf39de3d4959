import Elementwise.Proofs.ConsultedName
import Elementwise.Proofs.PrefixExchange

/-!
# Moving and renaming a tree

A tree can be moved to other offsets, and its variables can be given other names, without being
changed in any other way.  Flattening looks at a tree through its sites only, and these move and
change along with it.

## What is here

* `Relabelling` — where the offsets go and what the names of variables become.
* `Node.relabel`, `Occurrence.relabel`, `Site.relabel`, `Edit.relabel` — what becomes of a tree and
  of what is read off it.
* `Occurrence.inside_relabel`, `Node.occurrences_relabel` — a tree that is moved and renamed holds
  the same nodes in the same rôles.
* `Edit.Arranges.relabel`, `EditBuffer.apply_relabel` — edits that are moved in order are put
  together as before.
-/

set_option autoImplicit false
namespace Elementwise

/-- Where the offsets of a tree go, and what the names of its variables become. -/
structure Relabelling where
  offset : Nat → Nat
  name : Text → Text

namespace Relabelling

/-- Moves what is only a word, whose name is kept. -/
def words (l : Relabelling) : Relabelling := { l with name := id }

/-- Where a span goes. -/
def span (l : Relabelling) (s : Span) : Span := ⟨l.offset s.start, l.offset s.stop⟩

@[simp] theorem span_words (l : Relabelling) (s : Span) : l.words.span s = l.span s := rfl

@[simp] theorem name_words (l : Relabelling) (x : Text) : l.words.name x = x := rfl

end Relabelling

/-! ## Trees -/

namespace Node

mutual

/-- A tree that is moved and whose variables are renamed.  The names of properties and of keys,
which stand for no variable, are kept. -/
def relabel : Relabelling → Node → Node
  | l, identifier s x => identifier (l.span s) (l.name x)
  | l, literal s v => literal (l.span s) v
  | l, this s => this (l.span s)
  | l, superReference s => superReference (l.span s)
  | l, importReference s => importReference (l.span s)
  | l, metaProperty s head key =>
    metaProperty (l.span s) (head.relabel l.words) (key.relabel l.words)
  | l, templateElement s raw cooked tail => templateElement (l.span s) raw cooked tail
  | l, template s quasis expressions =>
    template (l.span s) (relabelAll l quasis) (relabelAll l expressions)
  | l, taggedTemplate s tag quasi => taggedTemplate (l.span s) (tag.relabel l) (quasi.relabel l)
  | l, array s elements => array (l.span s) (relabelAll l elements)
  | l, object s properties => object (l.span s) (relabelAll l properties)
  | l, property s kind computed method shorthand key value =>
    property (l.span s) kind computed method shorthand
      (key.relabel (if computed then l else l.words)) (value.relabel l)
  | l, spread s argument => spread (l.span s) (argument.relabel l)
  | _, hole => hole
  | l, function s isDeclaration isAsync isGenerator id params body =>
    function (l.span s) isDeclaration isAsync isGenerator (relabel? l id) (relabelAll l params)
      (body.relabel l)
  | l, arrow s isAsync params body =>
    arrow (l.span s) isAsync (relabelAll l params) (body.relabel l)
  | l, arrowParameters isAsync params => arrowParameters isAsync (relabelAll l params)
  | l, class_ s isDeclaration id superClass body =>
    class_ (l.span s) isDeclaration (relabel? l id) (relabel? l superClass) (body.relabel l)
  | l, classBody s members => classBody (l.span s) (relabelAll l members)
  | l, classMember s kind isStatic computed key value =>
    classMember (l.span s) kind isStatic computed
      (key.relabel (if computed then l else l.words)) (value.relabel l)
  | l, member s computed owner key =>
    member (l.span s) computed (owner.relabel l) (key.relabel (if computed then l else l.words))
  | l, call s callee arguments => call (l.span s) (callee.relabel l) (relabelAll l arguments)
  | l, new s callee arguments => new (l.span s) (callee.relabel l) (relabelAll l arguments)
  | l, update s op before argument => update (l.span s) op before (argument.relabel l)
  | l, unary s op argument => unary (l.span s) op (argument.relabel l)
  | l, await s argument => await (l.span s) (argument.relabel l)
  | l, binary s op left right => binary (l.span s) op (left.relabel l) (right.relabel l)
  | l, conditional s test consequent alternate =>
    conditional (l.span s) (test.relabel l) (consequent.relabel l) (alternate.relabel l)
  | l, yield s delegate argument => yield (l.span s) delegate (relabel? l argument)
  | l, assignment s op left right => assignment (l.span s) op (left.relabel l) (right.relabel l)
  | l, sequence s expressions => sequence (l.span s) (relabelAll l expressions)
  | l, arrayPattern s elements => arrayPattern (l.span s) (relabelAll l elements)
  | l, objectPattern s properties => objectPattern (l.span s) (relabelAll l properties)
  | l, assignmentPattern s left right =>
    assignmentPattern (l.span s) (left.relabel l) (right.relabel l)
  | l, rest s argument => rest (l.span s) (argument.relabel l)
  | l, block s body => block (l.span s) (relabelAll l body)
  | l, empty s => empty (l.span s)
  | l, expression s e directive => expression (l.span s) (e.relabel l) directive
  | l, ifElse s test consequent alternate =>
    ifElse (l.span s) (test.relabel l) (consequent.relabel l) (relabel? l alternate)
  | l, doWhile s body test => doWhile (l.span s) (body.relabel l) (test.relabel l)
  | l, whileDo s test body => whileDo (l.span s) (test.relabel l) (body.relabel l)
  | l, loop s init test step body =>
    loop (l.span s) (relabel? l init) (relabel? l test) (relabel? l step) (body.relabel l)
  | l, forIn s left right body =>
    forIn (l.span s) (left.relabel l) (right.relabel l) (body.relabel l)
  | l, forOf s left right body =>
    forOf (l.span s) (left.relabel l) (right.relabel l) (body.relabel l)
  | l, continueTo s label => continueTo (l.span s) (relabel? l label)
  | l, breakTo s label => breakTo (l.span s) (relabel? l label)
  | l, returning s argument => returning (l.span s) (relabel? l argument)
  | l, withObject s owner body => withObject (l.span s) (owner.relabel l) (body.relabel l)
  | l, switch s discriminant cases =>
    switch (l.span s) (discriminant.relabel l) (relabelAll l cases)
  | l, switchCase s test consequent =>
    switchCase (l.span s) (relabel? l test) (relabelAll l consequent)
  | l, labeled s label body => labeled (l.span s) (label.relabel l) (body.relabel l)
  | l, throwing s argument => throwing (l.span s) (argument.relabel l)
  | l, trying s body handler finalizer =>
    trying (l.span s) (body.relabel l) (relabel? l handler) (relabel? l finalizer)
  | l, catching s param body => catching (l.span s) (param.relabel l) (body.relabel l)
  | l, debugger s => debugger (l.span s)
  | l, declaration s kind declarations =>
    declaration (l.span s) kind (relabelAll l declarations)
  | l, declarator s id init => declarator (l.span s) (id.relabel l) (relabel? l init)

/-- The nodes of a list, moved and renamed. -/
def relabelAll : Relabelling → List Node → List Node
  | _, [] => []
  | l, node :: nodes => node.relabel l :: relabelAll l nodes

/-- A node that may be absent, moved and renamed. -/
def relabel? : Relabelling → Option Node → Option Node
  | _, none => none
  | l, some node => some (node.relabel l)

end

variable (l : Relabelling)

theorem relabelAll_eq (nodes : List Node) : relabelAll l nodes = nodes.map (relabel l) := by
  induction nodes with
  | nil => rfl
  | cons n nodes ih => rw [relabelAll, ih, List.map_cons]

/-- What is only a word is called the same. -/
theorem name?_relabel_words (n : Node) : (n.relabel l.words).name? = n.name? := by
  cases n <;> rfl

end Node

/-! ## Rôles and sites -/

/-- The rôle of a node that is moved and renamed. -/
def Role.relabel (l : Relabelling) : Role → Role
  | shorthand key => shorthand (key.relabel l.words)
  | role => role

namespace Occurrence

/-- An occurrence that is moved and renamed; what is only a word keeps its name. -/
def relabel (l : Relabelling) : Occurrence → Occurrence
  | ⟨.word, node⟩ => ⟨.word, node.relabel l.words⟩
  | ⟨role, node⟩ => ⟨role.relabel l, node.relabel l⟩

end Occurrence

/-- A site that is moved and renamed.  The key of a shorthand property is kept. -/
def Site.relabel (l : Relabelling) : Site → Site
  | «variable» s x usage key => .variable (l.span s) (l.name x) usage key
  | thisProperty s p => .thisProperty (l.span s) p
  | string s value => .string (l.span s) value
  | this s inMember => .this (l.span s) inMember
  | withObject s => .withObject (l.span s)

namespace Occurrence

variable (l : Relabelling)

theorem relabel_value (p : Position) (n : Node) :
    relabel l ⟨.value p, n⟩ = ⟨.value p, n.relabel l⟩ := rfl

/-- The parts of a construct, each on its own. -/
def ofParts (parts : List Part) : List Occurrence :=
  parts.map fun part => ⟨.value part.position, part.node⟩

theorem ofParts_cons (part : Part) (parts : List Part) :
    ofParts (part :: parts) = ⟨.value part.position, part.node⟩ :: ofParts parts := rfl

theorem ofParts_nil : ofParts [] = [] := rfl

theorem ofParts_append (as bs : List Part) :
    ofParts (as ++ bs) = ofParts as ++ ofParts bs := List.map_append

theorem ofParts_partsOf (role : String) (nodes : List Node) :
    ofParts (Node.partsOf role (Node.relabelAll l nodes)) =
      (ofParts (Node.partsOf role nodes)).map (relabel l) := by
  simp only [ofParts, Node.partsOf, Node.relabelAll_eq, List.map_map]
  rfl

theorem ofParts_partOf? (role : String) (node? : Option Node) :
    ofParts (Node.partOf? role (Node.relabel? l node?)) =
      (ofParts (Node.partOf? role node?)).map (relabel l) := by
  cases node? <;> rfl

/-- An element that an array leaves out is left out wherever the array is moved. -/
theorem ofParts_elements (nodes : List Node) :
    ofParts (Node.array default (Node.relabelAll l nodes)).parts =
      (ofParts (Node.array default nodes).parts).map (relabel l) := by
  have hfilter (f : Node → Bool) (hf : ∀ n, f (n.relabel l) = f n) :
      (Node.relabelAll l nodes).filter f = Node.relabelAll l (nodes.filter f) := by
    simp only [Node.relabelAll_eq, List.filter_map, Function.comp_def, hf]
  refine (congrArg (fun ns => ofParts (Node.partsOf "elements" ns)) (hfilter _ fun n => ?_)).trans
    (ofParts_partsOf l "elements" _)
  cases n <;> rfl

/-- Whether a construct has a part that may be only a word. -/
def mayHoldWord : Node → Bool
  | .metaProperty .. | .property _ _ false .. | .classMember _ _ _ false ..
  | .member _ false .. => true
  | _ => false

/-- The parts of a construct of which none is only a word are moved and renamed. -/
theorem ofParts_parts {n : Node} (h : mayHoldWord n = false) :
    ofParts (n.relabel l).parts = (ofParts n.parts).map (relabel l) := by
  cases n
  case metaProperty => cases h
  case property s kind computed _ _ _ _ => cases computed; cases h; rfl
  case classMember s _ _ computed _ _ => cases computed; cases h; rfl
  case member s computed _ _ => cases computed; cases h; rfl
  case array s elements => exact ofParts_elements l elements
  case arrayPattern s elements => exact ofParts_elements l elements
  case template | object | function | arrow | arrowParameters | class_ | classBody | call | new
    | yield | sequence | objectPattern | block | ifElse | loop | continueTo | breakTo | returning
    | switch | switchCase | trying | declaration | declarator =>
    simp only [Node.relabel, Node.parts, ofParts_append, ofParts_cons, ofParts_nil,
      ofParts_partsOf, ofParts_partOf?, List.map_append, List.map_cons, List.map_nil,
      relabel_value]
  all_goals rfl

/-- **A tree that is moved and renamed holds the same nodes in the same rôles.** -/
theorem inside_relabel (o : Occurrence) : (o.relabel l).inside = o.inside.map (relabel l) := by
  obtain ⟨role, n⟩ := o
  cases role
  case word => rfl
  all_goals
    cases n
    case metaProperty => rfl
    case property s kind computed method shorthand key value =>
      cases computed
      case true => rfl
      case false =>
        cases shorthand
        case true => rfl
        case false => cases key <;> rfl
    case classMember s kind isStatic computed key value => cases computed <;> rfl
    case member s computed owner key => cases computed <;> rfl
    case assignmentPattern s left right => cases left <;> rfl
    all_goals exact ofParts_parts l rfl

theorem below_relabel (o : Occurrence) : (o.relabel l).below = o.below.map (relabel l) := by
  have hinside : o.inside.flatMap (fun c => (c.relabel l).below) =
      o.inside.flatMap fun c => c.below.map (relabel l) :=
    List.flatMap_congr fun c hc =>
      have := sizeOf_lt_of_mem_inside hc
      below_relabel c
  rw [below_eq, below_eq o, inside_relabel, List.flatMap_map, hinside, List.map_cons,
    List.map_flatMap]
termination_by sizeOf o.node

/-- What an occurrence is to flattening moves and changes along with it. -/
theorem site?_relabel (o : Occurrence) : (o.relabel l).site? = o.site?.map (Site.relabel l) := by
  obtain ⟨role, n⟩ := o
  cases n
  case identifier s x =>
    cases role
    case shorthand key =>
      exact congrArg (fun k => some (Site.variable (l.span s) (l.name x) ⟨false, true⟩ (some k)))
        (congrArg (Option.getD · Node.namelessKey) (Node.name?_relabel_words l key))
    all_goals rfl
  case member s computed owner key =>
    have hname :=
      congrArg (fun x? : Option Text => some (Site.thisProperty (l.span s) (x?.getD [])))
      (Node.name?_relabel_words l key)
    cases computed
    case true => cases role <;> rfl
    case false => cases owner <;> cases role <;> first | rfl | exact hname
  case literal s value => cases value <;> cases role <;> rfl
  all_goals cases role <;> rfl

end Occurrence

/-- **The nodes of a tree that is moved and renamed** are those of the tree, moved and renamed. -/
theorem Node.occurrences_relabel (l : Relabelling) (n : Node) :
    (n.relabel l).occurrences = n.occurrences.map (Occurrence.relabel l) :=
  Occurrence.below_relabel l ⟨.value .plain, n⟩

/-- **The sites of a tree move and change along with it.** -/
theorem Node.filterMap_site?_relabel (l : Relabelling) (n : Node) :
    (n.relabel l).occurrences.filterMap Occurrence.site? =
      (n.occurrences.filterMap Occurrence.site?).map (Site.relabel l) := by
  rw [occurrences_relabel, List.filterMap_map, List.map_filterMap]
  exact congrArg (List.filterMap · n.occurrences) (funext (Occurrence.site?_relabel l))

end Elementwise
