import Elementwise.Site
import Mathlib.Data.List.Basic
import Mathlib.Logic.Relation

/-!
# The nodes of a tree and their rôles

What flattening does with a node depends on what the node is to the constructs around it: a name
behind a point is no variable, and neither is a plain key.  An `Occurrence` is a node together with
that rôle, and `Node.occurrences` lists all of them from left to right, every node of the tree once.

## What is here

* `Occurrence.inside` — the occurrences directly inside one; the rôles are given out here and
  nowhere else.
* `Node.occurrences` — all occurrences of a tree, each in front of those inside it;
  `Occurrence.mem_below_iff` says which these are.
* `Occurrence.site?` — what one occurrence is to flattening.
* `Node.cut_sites` — the sites of a tree are those of its occurrences, one after another, up to the
  first `with` statement.
-/

set_option autoImplicit false
namespace Elementwise

/-! ## Rôles -/

/-- What a node is to the constructs around it. -/
inductive Role where
  /-- It is read or written on its own. -/
  | value (position : Position)
  /-- The object of a member access by name. -/
  | owner
  /-- What stands for both the key and the value of a shorthand property. -/
  | shorthand (key : Node)
  /-- A name or a key that is only a word. -/
  | word

/-- The position in which a node of this rôle is found. -/
def Role.position : Role → Position
  | value p => p
  | owner => .memberPart
  | shorthand _ | word => .plain

/-- A node with its rôle. -/
structure Occurrence where
  role : Role
  node : Node

namespace Node

/-- Whether a node is a literal. -/
def isLiteral : Node → Bool
  | literal .. => true
  | _ => false

/-- The rôle of a key without brackets in a property that is not shorthand: a literal is treated as
one, and anything else is a word. -/
def keyRole (key : Node) : Role := if key.isLiteral then .value .plain else .word

/-- The rôle of the target of a default in a shorthand property. -/
def targetRole (key target : Node) : Role :=
  if target.isIdentifier then .shorthand key else .value .plain

end Node

namespace Occurrence

/-- The occurrences directly inside an occurrence, from left to right. -/
def inside : Occurrence → List Occurrence
  | ⟨.word, _⟩ => []
  | ⟨_, .metaProperty _ head key⟩ => [⟨.word, head⟩, ⟨.word, key⟩]
  | ⟨_, .member _ false owner key⟩ => [⟨.owner, owner⟩, ⟨.word, key⟩]
  | ⟨_, .property _ _ false _ true key value⟩ => [⟨.word, key⟩, ⟨.shorthand key, value⟩]
  | ⟨_, .property _ _ false _ false key value⟩ => [⟨key.keyRole, key⟩, ⟨.value .plain, value⟩]
  | ⟨_, .classMember _ _ _ false key value⟩ => [⟨.word, key⟩, ⟨.value .plain, value⟩]
  | ⟨.shorthand key, .assignmentPattern _ left right⟩ =>
    [⟨key.targetRole left, left⟩, ⟨.value .plain, right⟩]
  | ⟨_, node⟩ => node.parts.map fun part => ⟨.value part.position, part.node⟩

section

variable {role : Role} (h : role ≠ .word) (s : Span) (key : Node)

include h

theorem inside_metaProperty (head : Node) :
    inside ⟨role, .metaProperty s head key⟩ = [⟨.word, head⟩, ⟨.word, key⟩] := by
  cases role <;> first | rfl | exact absurd rfl h

theorem inside_member (owner : Node) :
    inside ⟨role, .member s false owner key⟩ = [⟨.owner, owner⟩, ⟨.word, key⟩] := by
  cases role <;> first | rfl | exact absurd rfl h

theorem inside_shorthand (kind : PropertyKind) (isMethod : Bool) (value : Node) :
    inside ⟨role, .property s kind false isMethod true key value⟩ =
      [⟨.word, key⟩, ⟨.shorthand key, value⟩] := by
  cases role <;> first | rfl | exact absurd rfl h

theorem inside_keyed (kind : PropertyKind) (isMethod : Bool) (value : Node) :
    inside ⟨role, .property s kind false isMethod false key value⟩ =
      [⟨key.keyRole, key⟩, ⟨.value .plain, value⟩] := by
  cases role <;> first | rfl | exact absurd rfl h

theorem inside_classMember (kind : MemberKind) (isStatic : Bool) (value : Node) :
    inside ⟨role, .classMember s kind isStatic false key value⟩ =
      [⟨.word, key⟩, ⟨.value .plain, value⟩] := by
  cases role <;> first | rfl | exact absurd rfl h

end

end Occurrence

/-! ## All occurrences

A tree is finite: what is directly inside a node is smaller than the node. -/

namespace Node

theorem sizeOf_lt_of_mem_partsOf {role : String} {nodes : List Node} {p : Part}
    (h : p ∈ partsOf role nodes) : sizeOf p.node < sizeOf nodes := by
  obtain ⟨m, hm, rfl⟩ := List.mem_map.1 h
  exact List.sizeOf_lt_of_mem hm

theorem mem_partsOf_of_mem_filter {role : String} {nodes : List Node} {f : Node → Bool} {p : Part}
    (h : p ∈ partsOf role (nodes.filter f)) : p ∈ partsOf role nodes := by
  obtain ⟨m, hm, rfl⟩ := List.mem_map.1 h
  exact List.mem_map.2 ⟨m, (List.mem_filter.1 hm).1, rfl⟩

theorem sizeOf_lt_of_mem_partOf? {role : String} {node? : Option Node} {p : Part}
    (h : p ∈ partOf? role node?) : sizeOf p.node < sizeOf node? := by
  cases node? with
  | none => exact absurd h (by simp [partOf?, partsOf])
  | some n =>
    obtain rfl : p = ⟨role, n, .plain⟩ := by simpa [partOf?, partsOf] using h
    simp

theorem sizeOf_lt_of_mem_parts {n : Node} {p : Part} (h : p ∈ n.parts) :
    sizeOf p.node < sizeOf n := by
  cases n <;>
    simp only [parts, List.mem_append, List.mem_cons, List.not_mem_nil, or_false] at h <;>
    grind [→ sizeOf_lt_of_mem_partsOf, → mem_partsOf_of_mem_filter, → sizeOf_lt_of_mem_partOf?]

end Node

namespace Occurrence

theorem sizeOf_lt_of_mem_inside {o c : Occurrence} (h : c ∈ o.inside) :
    sizeOf c.node < sizeOf o.node := by
  unfold inside at h
  split at h
  case h_1 => exact absurd h List.not_mem_nil
  case h_8 =>
    obtain ⟨p, hp, rfl⟩ := List.mem_map.1 h
    exact Node.sizeOf_lt_of_mem_parts hp
  all_goals
    simp only [List.mem_cons, List.not_mem_nil, or_false] at h
    grind

/-- What holds of an occurrence if it holds of those directly inside it holds of all. -/
theorem inside_induction {P : Occurrence → Prop} (step : ∀ o, (∀ c ∈ o.inside, P c) → P o)
    (o : Occurrence) : P o :=
  step o fun c hc =>
    have := sizeOf_lt_of_mem_inside hc
    inside_induction step c
termination_by sizeOf o.node

/-- An occurrence and all those inside it, each in front of those inside it. -/
def below (o : Occurrence) : List Occurrence :=
  o :: o.inside.attach.flatMap fun c => c.1.below
termination_by sizeOf o.node
decreasing_by exact sizeOf_lt_of_mem_inside c.2

theorem below_eq (o : Occurrence) : o.below = o :: o.inside.flatMap below := by
  rw [below, List.flatMap_subtype (fun _ _ => rfl), List.unattach_attach]

/-- An occurrence lies in another one, at any depth; every occurrence lies in itself. -/
def Holds (o c : Occurrence) : Prop := Relation.ReflTransGen (fun a b => b ∈ a.inside) o c

theorem Holds.of_mem_below {o c : Occurrence} (h : c ∈ o.below) : o.Holds c := by
  rw [below_eq, List.mem_cons, List.mem_flatMap] at h
  rcases h with rfl | ⟨d, hd, hc⟩
  · exact .refl
  · have := sizeOf_lt_of_mem_inside hd
    exact .head hd (Holds.of_mem_below hc)
termination_by sizeOf o.node

theorem mem_below_iff {o c : Occurrence} : c ∈ o.below ↔ o.Holds c := by
  refine ⟨Holds.of_mem_below, fun h => ?_⟩
  induction h using Relation.ReflTransGen.head_induction_on with
  | refl =>
    rw [below_eq]
    exact List.mem_cons_self
  | head hd _ ih =>
    rw [below_eq]
    exact List.mem_cons_of_mem _ (List.mem_flatMap.2 ⟨_, hd, ih⟩)

end Occurrence

/-- All nodes of a tree with their rôles, from left to right. -/
def Node.occurrences (n : Node) : List Occurrence := Occurrence.below ⟨.value .plain, n⟩

/-! ## The sites of a tree -/

/-- The key that is written in front of a variable that stands for a shorthand property. -/
def Role.key? : Role → Option Text
  | shorthand key => some key.shorthandKey
  | _ => none

/-- The part of the text at a site. -/
def Site.span : Site → Span
  | .variable s .. | .thisProperty s _ | .string s _ | .this s _ | .withObject s => s

namespace Occurrence

/-- The site of an occurrence, if it is of any concern. -/
def site? : Occurrence → Option Site
  | ⟨.word, _⟩ | ⟨.owner, .this _⟩ => none
  | ⟨role, .identifier s name⟩ => some (.variable s name role.position.usage role.key?)
  | ⟨_, .literal s (.string value)⟩ => some (.string s value)
  | ⟨role, .this s⟩ => some (.this s (role.position = .memberPart))
  | ⟨_, .withObject s _ _⟩ => some (.withObject s)
  | ⟨_, .member s false (.this _) key⟩ => some (.thisProperty s (key.name?.getD []))
  | _ => none

theorem span?_of_site? {o : Occurrence} {site : Site} (h : o.site? = some site) :
    o.node.span? = some site.span := by
  obtain ⟨role, node⟩ := o
  cases node
  case literal s value =>
    cases value
    case string => cases role <;> cases h <;> rfl
    all_goals cases role <;> cases h
  case member s computed owner key =>
    cases computed
    case true => cases role <;> cases h
    case false => cases owner <;> cases role <;> cases h <;> rfl
  all_goals cases role <;> cases h <;> rfl

/-- The sites of an occurrence and of all those inside it. -/
def sites (o : Occurrence) : List Site := o.below.filterMap site?

theorem sites_eq (o : Occurrence) : o.sites = o.site?.toList ++ o.inside.flatMap sites := by
  rw [sites, below_eq, List.filterMap_cons, List.filterMap_flatMap]
  cases o.site? <;> rfl

end Occurrence

/-! ### Up to the first `with`

The walk does not enter a `with` statement, because the routine is rejected there.  So sites are
compared only as far as it goes. -/

namespace Site

/-- Whether a site is a `with` statement. -/
def isWithObject : Site → Bool
  | withObject _ => true
  | _ => false

/-- The sites up to the first `with` statement, which is included. -/
def cut : List Site → List Site
  | [] => []
  | s :: ss => if s.isWithObject then [s] else s :: cut ss

theorem cut_append (a b : List Site) :
    cut (a ++ b) = if a.any isWithObject then cut a else a ++ cut b := by
  induction a with
  | nil => simp
  | cons s a ih =>
    rw [List.cons_append, cut, ih, List.any_cons, cut]
    cases hs : s.isWithObject <;> cases ha : a.any isWithObject <;> simp

theorem any_cut (a : List Site) : (cut a).any isWithObject = a.any isWithObject := by
  induction a with
  | nil => rfl
  | cons s a ih =>
    rw [cut]
    cases hs : s.isWithObject <;> simp [hs, ih]

theorem cut_eq_self {a : List Site} (h : a.any isWithObject = false) : cut a = a := by
  have := cut_append a []
  rwa [h, List.append_nil, cut, List.append_nil] at this

theorem cut_append_congr {a a' b b' : List Site} (ha : cut a = cut a') (hb : cut b = cut b') :
    cut (a ++ b) = cut (a' ++ b') := by
  have hany : a.any isWithObject = a'.any isWithObject := by rw [← any_cut, ha, any_cut]
  rw [cut_append, cut_append, ← hany]
  cases h : a.any isWithObject with
  | true => exact ha
  | false =>
    rw [cut_eq_self h, cut_eq_self (hany ▸ h)] at ha
    rw [ha, hb]

end Site

/-! ### The walk, one step at a time -/

namespace Node

theorem sitesOfAll_eq (nodes : List Node) :
    sitesOfAll nodes = nodes.flatMap fun n => n.sites .plain := by
  induction nodes with
  | nil => rfl
  | cons n nodes ih => rw [sitesOfAll, ih, List.flatMap_cons]

/-- An element that an array leaves out has no sites. -/
theorem sitesOfAll_filter (nodes : List Node) :
    sitesOfAll (nodes.filter fun | hole => false | _ => true) = sitesOfAll nodes := by
  induction nodes with
  | nil => rfl
  | cons n nodes ih =>
    cases n
    case hole => exact ih
    all_goals exact congrArg (sites _ .plain ++ ·) ih

theorem flatMap_partsOf (role : String) (nodes : List Node) :
    ((partsOf role nodes).flatMap fun part => part.node.sites part.position) =
      sitesOfAll nodes := by
  rw [partsOf, List.flatMap_map, sitesOfAll_eq]

theorem flatMap_partOf? (role : String) (node? : Option Node) :
    ((partOf? role node?).flatMap fun part => part.node.sites part.position) =
      sitesOf? node? := by
  cases node? <;> simp [partOf?, partsOf, sitesOf?]

end Node

namespace Occurrence

/-- The sites that the walk meets at an occurrence and inside it. -/
def walk : Occurrence → List Site
  | ⟨.word, _⟩ | ⟨.owner, .this _⟩ => []
  | ⟨.shorthand key, .identifier s name⟩ => Node.shorthandSites key (.identifier s name)
  | ⟨.shorthand key, .assignmentPattern _ (.identifier s name) right⟩ =>
    Node.shorthandSites key (.identifier s name) ++ right.sites .plain
  | ⟨role, node⟩ => node.sites role.position

@[simp] theorem walk_value (p : Position) (n : Node) : walk ⟨.value p, n⟩ = n.sites p := by
  cases n <;> rfl

/-- Whether a rôle makes a difference for a node: words are left alone, `this` is if it owns a
property, and the name in a shorthand property carries its key. -/
def isSpecial : Occurrence → Bool
  | ⟨.word, _⟩ | ⟨.owner, .this _⟩ | ⟨.shorthand _, .identifier ..⟩
  | ⟨.shorthand _, .assignmentPattern _ (.identifier ..) _⟩ => true
  | _ => false

theorem inside_of_ordinary {role : Role} {n : Node} (h : isSpecial ⟨role, n⟩ = false) :
    inside ⟨role, n⟩ = inside ⟨.value role.position, n⟩ := by
  cases role
  case value p => rfl
  case word => cases h
  all_goals
    cases n
    case property _ _ computed _ shorthand _ _ => cases computed <;> cases shorthand <;> rfl
    case classMember _ _ _ computed _ _ => cases computed <;> rfl
    case member _ computed _ _ => cases computed <;> rfl
    case assignmentPattern _ left _ => cases left <;> first | rfl | cases h
    all_goals rfl

theorem site?_of_ordinary {role : Role} {n : Node} (h : isSpecial ⟨role, n⟩ = false) :
    site? ⟨role, n⟩ = site? ⟨.value role.position, n⟩ := by
  cases role
  case value p => rfl
  case word => cases h
  all_goals
    cases n
    case literal _ value => cases value <;> rfl
    case member _ computed owner _ => cases computed <;> cases owner <;> rfl
    all_goals first | rfl | cases h

theorem walk_of_ordinary {role : Role} {n : Node} (h : isSpecial ⟨role, n⟩ = false) :
    walk ⟨role, n⟩ = n.sites role.position := by
  cases role
  case value p => exact walk_value p n
  case word => cases h
  all_goals
    cases n
    case assignmentPattern _ left _ => cases left <;> first | rfl | cases h
    all_goals first | rfl | cases h

/-- The walk takes one step: the site of a node comes first, and then those of what is directly
inside the node. -/
theorem walk_value_eq {n : Node} {p : Position} (h : ∀ s a b, n ≠ .withObject s a b) :
    n.sites p = (site? ⟨.value p, n⟩).toList ++ (inside ⟨.value p, n⟩).flatMap walk := by
  have hparts : (n.parts.map fun part => ⟨.value part.position, part.node⟩).flatMap walk =
      n.parts.flatMap fun part => part.node.sites part.position := by
    simp only [List.flatMap_map, walk_value]
  -- in most cases the two sides are the same list, but for an empty one at the end
  cases n
  case identifier => rfl
  case this => rfl
  case literal s value => cases value <;> rfl
  case withObject s a b => exact absurd rfl (h s a b)
  case array s elements =>
    refine Eq.trans ?_ hparts.symm
    rw [Node.parts, Node.flatMap_partsOf]
    exact (Node.sitesOfAll_filter elements).symm
  case arrayPattern s elements =>
    refine Eq.trans ?_ hparts.symm
    rw [Node.parts, Node.flatMap_partsOf]
    exact (Node.sitesOfAll_filter elements).symm
  case property s kind computed isMethod shorthand key value =>
    cases computed with
    | true => exact congrArg (key.sites .plain ++ ·) (List.append_nil _).symm
    | false =>
      cases shorthand with
      | false =>
        cases key
        case literal t text =>
          exact congrArg ((Node.literal t text).sites .plain ++ ·) (List.append_nil _).symm
        all_goals exact (List.append_nil _).symm
      | true =>
        cases value
        case assignmentPattern t left right => cases left <;> exact (List.append_nil _).symm
        all_goals exact (List.append_nil _).symm
  case classMember s kind isStatic computed key value =>
    cases computed with
    | true => exact congrArg (key.sites .plain ++ ·) (List.append_nil _).symm
    | false => exact (List.append_nil _).symm
  case member s computed owner key =>
    cases computed with
    | true => exact congrArg (owner.sites .memberPart ++ ·) (List.append_nil _).symm
    | false =>
      cases owner
      case this => rfl
      all_goals exact (List.append_nil _).symm
  case metaProperty => rfl
  all_goals
    refine Eq.trans ?_ hparts.symm
    simp only [Node.parts, List.flatMap_append, List.flatMap_cons, List.flatMap_nil,
      List.append_nil, Node.flatMap_partsOf, Node.flatMap_partOf?]
    -- three parts in a row are put together from the left
    first
      | rfl
      | exact List.append_assoc _ _ _

theorem walk_eq {o : Occurrence} (h : ∀ s a b, o.node ≠ .withObject s a b) :
    o.walk = o.site?.toList ++ o.inside.flatMap walk := by
  cases hspecial : o.isSpecial with
  | false =>
    obtain ⟨role, n⟩ := o
    rw [walk_of_ordinary hspecial, walk_value_eq h, site?_of_ordinary hspecial,
      inside_of_ordinary hspecial]
  | true =>
    unfold isSpecial at hspecial
    split at hspecial
    · rfl
    · rfl
    · rfl
    · exact congrArg (_ ++ ·) (List.append_nil _).symm
    · cases hspecial

theorem cut_walk (o : Occurrence) : Site.cut o.walk = Site.cut o.sites := by
  by_cases hwith : ∃ s a b, o.node = .withObject s a b
  · obtain ⟨s, a, b, hnode⟩ := hwith
    obtain ⟨role, n⟩ := o
    obtain rfl : n = .withObject s a b := hnode
    rw [sites_eq]
    cases role <;> rfl
  · have hwith : ∀ s a b, o.node ≠ .withObject s a b := fun s a b hs => hwith ⟨s, a, b, hs⟩
    rw [walk_eq hwith, sites_eq]
    refine Site.cut_append_congr rfl ?_
    have hinside : ∀ c ∈ o.inside, Site.cut c.walk = Site.cut c.sites := fun c hc =>
      have := sizeOf_lt_of_mem_inside hc
      cut_walk c
    generalize o.inside = os at hinside
    induction os with
    | nil => rfl
    | cons c os ih =>
      rw [List.flatMap_cons, List.flatMap_cons]
      exact Site.cut_append_congr (hinside c (by simp)) (ih fun d hd => hinside d (by simp [hd]))
termination_by sizeOf o.node

end Occurrence

/-- **The walk meets the sites of the occurrences**, one after another and each once, up to the
first `with` statement. -/
theorem Node.cut_sites (n : Node) (p : Position) :
    Site.cut (n.sites p) = Site.cut (Occurrence.sites ⟨.value p, n⟩) := by
  rw [← Occurrence.walk_value, Occurrence.cut_walk]

end Elementwise
