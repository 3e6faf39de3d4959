import Elementwise.Proofs.Occurrence
import Elementwise.Proofs.PropertyHead
import Elementwise.Proofs.Splice
import Elementwise.Syntax.Pattern

/-!
# The layout of a tree

Flattening replaces parts of a text, and it can only do so if these parts lie one behind the other.
A `Mark` is such a part, and `Node.marks` lists the marks of a tree from left to right.  In a tree
that was parsed they follow each other, with one exception: behind `async` a shorthand property may
have its key in brackets, and then the name `async` that stands for the value covers the key as
well.  The span of such a property is the `zone` of the marks in it.

A mark that is a name is no part of a longer name in the text, since words are read as far as they
go.  There is one exception here as well: what is declared by `var` may be the string `'let'`.

In front of the value of a property lies a part that stays as it is.  It is a mark, too: the `head`
of the property if it begins with it, or else the way from a key that is a string to what is behind
the colon.

## What is here

* `Node.marks` — the marks of a tree; `Node.zone_of_mem_marks` says what a zone is, and
  `Node.setsPrototype` which property sets the prototype.
* `Mark.Suits` — what stands around a mark in a text.
* `Fits` — marks that lie one behind the other between two offsets, as far as they are not in one
  zone.
* `Node.Lies` — a tree that is laid out between two offsets.
-/

set_option autoImplicit false
namespace Elementwise

/-! ## Marks -/

/-- What is known of a string: its value, and its spelling if it is a directive. -/
structure Quotation where
  value : Text
  spelling? : Option Text

/-- A part of a text is a string as it is known. -/
def Quotation.Stands (q : Quotation) (t : Text) (s : Span) : Prop :=
  ∃ spelling, t.Quotes s q.value spelling ∧ ∀ r ∈ q.spelling?, r = spelling

/-- What a part of a text that may be replaced is, or one in front of a value that stays. -/
inductive MarkKind where
  | name
  | property
  | string (quotation? : Option Quotation)
  /-- A property begins with it, and this tells whether it sets the prototype. -/
  | head (sets : Bool)
  /-- It follows a key, and this tells whether a colon does. -/
  | colon (stands : Bool)
  /-- It follows the name that a shorthand property is, which begins where this tells. -/
  | tail (start : Nat)

/-- The same kind, if nothing is known of a string. -/
def MarkKind.plain : MarkKind → MarkKind
  | string _ => string none
  | kind => kind

/-- Whether a part of a text stays as it is. -/
def MarkKind.isFixed : MarkKind → Bool
  | head _ | colon _ | tail _ => true
  | _ => false

/-- What is told by a part that stays, whatever follows it. -/
def MarkKind.Tells (t : Text) (s : Span) : MarkKind → Prop
  | head sets => ∀ u, (t.slice s ++ u).setsPrototype = sets
  | colon stands => ∀ u (p : Place) braces, 0 < p.index →
    Reader.isAtColon ⟨p, t.slice s ++ u, braces⟩ = stands
  | tail start => ∀ u, (t.slice ⟨start, s.stop⟩ ++ u).setsPrototype = false
  | _ => True

/-- A part of a text that may be replaced, or one that stays, and the ambiguous property in which it
lies. -/
structure Mark where
  span : Span
  kind : MarkKind
  zone : Option Span := none

namespace Mark

/-- Whether a mark ends before another one begins, or lies in it, in the same ambiguous property.  A
mark that begins with a parenthesis does not begin where another one ends, unless one of them
stays. -/
def Precedes (t : Text) (a b : Mark) : Prop :=
  a.span.stop ≤ b.span.start ∧
      (a.kind.isFixed = false → b.kind.isFixed = false → t.Clears a.span.stop b.span.start) ∨
    a.zone.isSome ∧ a.zone = b.zone ∧ a.span.Within b.span.start b.span.stop

theorem Precedes.of_clears {t : Text} {a b : Mark} (h : t.Clears a.span.stop b.span.start) :
    Precedes t a b := .inl ⟨h.1, fun _ _ => h⟩

/-- The same mark in an ambiguous property. -/
def inZone (zone : Span) (m : Mark) : Mark := { m with zone := some zone }

/-- A mark wherever it lies, and whatever string it is. -/
def withoutZone (m : Mark) : Mark := { m with kind := m.kind.plain, zone := none }

@[simp] theorem isFixed_withoutZone (m : Mark) : m.withoutZone.kind.isFixed = m.kind.isFixed := by
  obtain ⟨s, kind, zone⟩ := m
  cases kind <;> rfl

/-- What stands at a mark in the text and around it: a name that is written as one is no part of a
longer name, a property begins with a word or a parenthesis and ends where its name does, and a
string is what is known of it. -/
structure Suits (m : Mark) (t : Text) : Prop where
  nonempty : m.span.start < m.span.stop
  name : m.kind = .name → t.StartsName m.span.start → t.StandsAlone m.span
  property : m.kind = .property → t.StartsOwner m.span.start ∧ t.NoName m.span.stop
  string : ∀ q, m.kind = .string (some q) → q.Stands t m.span
  tells : m.kind.Tells t m.span

theorem Suits.withoutZone {m : Mark} {t : Text} (h : m.Suits t) : m.withoutZone.Suits t := by
  obtain ⟨s, kind, zone⟩ := m
  cases kind with
  | string q => exact ⟨h.nonempty, nofun, nofun, nofun, trivial⟩
  | name => exact ⟨h.nonempty, h.name, nofun, nofun, trivial⟩
  | property => exact ⟨h.nonempty, nofun, h.property, nofun, trivial⟩
  | head | colon | tail => exact ⟨h.nonempty, nofun, nofun, nofun, h.tells⟩

end Mark

namespace Node

/-- Where a tree begins. -/
def start (n : Node) : Nat := n.span?.elim 0 Span.start

/-- Where a tree ends. -/
def stop (n : Node) : Nat := n.span?.elim 0 Span.stop

/-- Where the value of a property is past what tells that it is one: a method begins with a
parenthesis, and any other value is behind a colon. -/
def entry (isMethod : Bool) (value : Node) : Nat := value.start + isMethod.toNat

/-- Whether a node is a string. -/
def isString : Node → Bool
  | literal _ (.string _) => true
  | _ => false

/-- Whether a property sets the prototype of its object: its key is `__proto__`, as a name or as a
string and not in brackets, and it is a value that is written behind the key. -/
def setsPrototype : Node → Bool
  | property _ .value false false false key _ => key.isKey Word.proto
  | _ => false

/-- The marks of a property with a key of its own, given those of its key and of its value.  A key
that is only a word is no mark. -/
def keyedMarks (s : Span) (kind : PropertyKind) (computed isMethod : Bool) (key value : Node)
    (ofKey ofValue : List Mark) : List Mark :=
  let sets := (property s kind computed isMethod false key value).setsPrototype
  if computed || key.isString && s.start ≠ key.start then
    ⟨⟨s.start, key.start⟩, .head sets, none⟩ :: (ofKey ++ ofValue)
  else if key.isString then
    ofKey ++
      ⟨⟨key.stop, value.entry isMethod⟩, .colon (kind = .value && !isMethod), none⟩ :: ofValue
  else
    ⟨⟨s.start, value.entry isMethod⟩, .head sets, none⟩ :: ofValue

/-- The mark behind a shorthand property up to an offset. -/
def tailMarks (next : Nat) : Node → List Mark
  | property _ _ false _ true _ (identifier s _) => [⟨⟨s.stop, next⟩, .tail s.start, none⟩]
  | _ => []

/-- Neither a method nor an accessor sets the prototype. -/
theorem setsPrototype_eq_false {kind : PropertyKind} {isMethod : Bool}
    (h : kind ≠ .value ∨ isMethod = true) (s : Span) (computed shorthand : Bool)
    (key value : Node) :
    (property s kind computed isMethod shorthand key value).setsPrototype = false := by
  rcases h with h | rfl
  · cases kind <;> first | rfl | exact (h rfl).elim
  · cases kind <;> cases computed <;> rfl

mutual

/-- The parts that may be replaced in a tree, from left to right, with those in front of the values
of properties.  A `yield` without operand counts as one, because it may turn out to be a name.  Of a
directive the spelling is known. -/
def marks : Node → List Mark
  | identifier s _ | yield s _ none => [⟨s, .name, none⟩]
  | literal s (.string v) => [⟨s, .string (some ⟨v, none⟩), none⟩]
  | expression _ e directive =>
    match directive, e with
    | some spelling, literal s (.string v) => [⟨s, .string (some ⟨v, some spelling⟩), none⟩]
    | _, _ => e.marks
  | member s false (this _) _ => [⟨s, .property, none⟩]
  | literal .. | this _ | superReference _ | importReference _ | metaProperty ..
  | templateElement .. | hole | empty _ | debugger _ => []
  | template _ quasis expressions => marksOfAll quasis ++ marksOfAll expressions
  | taggedTemplate _ tag quasi => tag.marks ++ quasi.marks
  | array _ nodes | arrayPattern _ nodes | objectPattern _ nodes | arrowParameters _ nodes
  | classBody _ nodes | sequence _ nodes | block _ nodes | declaration _ _ nodes => marksOfAll nodes
  | object s nodes => marksOfProperties s.stop nodes
  | property s _ true _ true key value => (key.marks ++ value.marks).map (Mark.inZone s)
  | property _ _ false _ true _ value => value.marks
  | property s kind computed isMethod false key value =>
    keyedMarks s kind computed isMethod key value key.marks value.marks
  | spread _ e | rest _ e | update _ _ _ e | unary _ _ e | await _ e | yield _ _ (some e)
  | throwing _ e => e.marks
  | function _ _ _ _ id params body => marksOf? id ++ (marksOfAll params ++ body.marks)
  | arrow _ _ params body => marksOfAll params ++ body.marks
  | class_ _ _ id superClass body => marksOf? id ++ (marksOf? superClass ++ body.marks)
  | classMember _ _ _ _ key value => key.marks ++ value.marks
  | member _ _ owner key => owner.marks ++ key.marks
  | call _ callee arguments | new _ callee arguments => callee.marks ++ marksOfAll arguments
  | binary _ _ left right | assignment _ _ left right | assignmentPattern _ left right =>
    left.marks ++ right.marks
  | conditional _ test consequent alternate => test.marks ++ (consequent.marks ++ alternate.marks)
  | ifElse _ test consequent alternate =>
    test.marks ++ (consequent.marks ++ marksOf? alternate)
  | doWhile _ a b | whileDo _ a b | withObject _ a b | labeled _ a b | catching _ a b =>
    a.marks ++ b.marks
  | loop _ init test step body =>
    marksOf? init ++ (marksOf? test ++ (marksOf? step ++ body.marks))
  | forIn _ left right body | forOf _ left right body => left.marks ++ (right.marks ++ body.marks)
  | continueTo _ node? | breakTo _ node? | returning _ node? => marksOf? node?
  | switch _ discriminant cases => discriminant.marks ++ marksOfAll cases
  | switchCase _ test consequent => marksOf? test ++ marksOfAll consequent
  | trying _ body handler finalizer => body.marks ++ (marksOf? handler ++ marksOf? finalizer)
  | declarator _ id init => id.marks ++ marksOf? init

/-- The marks of a list of trees. -/
def marksOfAll : List Node → List Mark
  | [] => []
  | node :: nodes => node.marks ++ marksOfAll nodes

/-- The marks of the properties of an object that ends at an offset. -/
def marksOfProperties (stop : Nat) : List Node → List Mark
  | [] => []
  | node :: nodes => node.marks ++
    (node.tailMarks (nodes.head?.elim stop start) ++ marksOfProperties stop nodes)

/-- The marks of a tree that may be absent. -/
def marksOf? : Option Node → List Mark
  | none => []
  | some node => node.marks

end

@[simp] theorem marksOfAll_nil : marksOfAll [] = [] := rfl

@[simp] theorem marksOfAll_cons (n : Node) (ns : List Node) :
    marksOfAll (n :: ns) = n.marks ++ marksOfAll ns := rfl

@[simp] theorem marksOfAll_append (ms ns : List Node) :
    marksOfAll (ms ++ ns) = marksOfAll ms ++ marksOfAll ns := by
  induction ms with
  | nil => rfl
  | cons m ms ih => simp [ih]

@[simp] theorem marksOf?_none : marksOf? none = [] := rfl

@[simp] theorem marksOf?_some (n : Node) : marksOf? (some n) = n.marks := rfl

/-! ### The marks of the parts -/

@[simp] theorem marksOfAll_filter (ns : List Node) :
    marksOfAll (ns.filter fun | hole => false | _ => true) = marksOfAll ns := by
  induction ns with
  | nil => rfl
  | cons n ns ih =>
    cases n
    case hole => exact ih
    all_goals exact congrArg (marks _ ++ ·) ih

theorem marks_partsOf (role : String) (ns : List Node) :
    ((partsOf role ns).flatMap fun p => p.node.marks) = marksOfAll ns := by
  induction ns with
  | nil => rfl
  | cons n ns ih => exact congrArg (n.marks ++ ·) ih

theorem marks_partOf? (role : String) (n? : Option Node) :
    ((partOf? role n?).flatMap fun p => p.node.marks) = marksOf? n? := by
  cases n? <;> simp [partOf?, partsOf]

theorem marks_keyed (s : Span) (kind : PropertyKind) (computed isMethod : Bool) (key value : Node) :
    (property s kind computed isMethod false key value).marks =
      keyedMarks s kind computed isMethod key value key.marks value.marks := by
  cases computed <;> rfl

section

variable {s : Span} {kind : PropertyKind} {computed isMethod : Bool} {key value : Node}
  {ofKey ofValue : List Mark} {m : Mark}

theorem mem_keyedMarks (h : m ∈ keyedMarks s kind computed isMethod key value ofKey ofValue) :
    m ∈ ofKey ∨ m ∈ ofValue ∨ m.kind.isFixed = true ∧ m.zone = none := by
  unfold keyedMarks at h
  split at h
  · rcases List.mem_cons.1 h with rfl | h
    · exact .inr (.inr ⟨rfl, rfl⟩)
    · exact (List.mem_append.1 h).imp_right .inl
  split at h
  · rcases List.mem_append.1 h with h | h
    · exact .inl h
    rcases List.mem_cons.1 h with rfl | h
    · exact .inr (.inr ⟨rfl, rfl⟩)
    · exact .inr (.inl h)
  · rcases List.mem_cons.1 h with rfl | h
    · exact .inr (.inr ⟨rfl, rfl⟩)
    · exact .inr (.inl h)

theorem suffix_keyedMarks :
    ofValue <:+ keyedMarks s kind computed isMethod key value ofKey ofValue := by
  unfold keyedMarks
  split
  · exact (List.suffix_append _ _).trans (List.suffix_cons _ _)
  split
  · exact (List.suffix_cons _ _).trans (List.suffix_append _ _)
  · exact List.suffix_cons _ _

theorem suffix_keyedMarks_computed :
    ofKey ++ ofValue <:+ keyedMarks s kind true isMethod key value ofKey ofValue :=
  List.suffix_cons _ _

theorem keyedMarks_mono {ofValue' : List Mark} (h : ofValue.Sublist ofValue') :
    (keyedMarks s kind computed isMethod key value ofKey ofValue).Sublist
      (keyedMarks s kind computed isMethod key value ofKey ofValue') := by
  rw [keyedMarks, keyedMarks]
  split
  · exact (h.append_left ofKey).cons_cons _
  split
  · exact (h.cons_cons _).append_left ofKey
  · exact h.cons_cons _

/-- The marks of a key that is more than a word are marks of the property. -/
theorem sublist_keyedMarks (h : computed = true ∨ key.isString = true) :
    (ofKey ++ ofValue).Sublist (keyedMarks s kind computed isMethod key value ofKey ofValue) := by
  unfold keyedMarks
  split
  · exact List.sublist_cons_self _ _
  split
  · exact (List.sublist_cons_self _ _).append_left ofKey
  · next hno hstring => simp_all

end

section

variable {stop : Nat} {n : Node} {ns : List Node} {m : Mark}

theorem marksOfProperties_append_singleton (stop : Nat) (ns : List Node) (n : Node) :
    marksOfProperties stop (ns ++ [n]) =
      marksOfProperties n.start ns ++ (n.marks ++ n.tailMarks stop) := by
  induction ns with
  | nil => exact congrArg (n.marks ++ ·) (List.append_nil _)
  | cons a ns ih =>
    have hnext : (ns ++ [n]).head?.elim stop start = ns.head?.elim n.start start := by
      cases ns <;> rfl
    rw [List.cons_append, marksOfProperties, marksOfProperties, ih, hnext]
    simp only [List.append_assoc]

theorem tailMarks_eq (next : Nat) (n : Node) :
    n.tailMarks next = [] ∨
      ∃ s : Span, n.tailMarks next = [⟨⟨s.stop, next⟩, .tail s.start, none⟩] := by
  unfold tailMarks
  split
  · exact .inr ⟨_, rfl⟩
  · exact .inl rfl

/-- Only behind a shorthand property is there such a mark. -/
theorem tailMarks_keyed (next : Nat) (s : Span) (kind : PropertyKind) (computed isMethod : Bool)
    (key value : Node) :
    (property s kind computed isMethod false key value).tailMarks next = [] := by
  cases computed <;> rfl

theorem fixed_of_mem_tailMarks {next : Nat} (h : m ∈ n.tailMarks next) :
    m.kind.isFixed = true ∧ m.zone = none := by
  obtain heq | ⟨s, heq⟩ := tailMarks_eq next n
  · rw [heq] at h
    cases h
  · rw [heq] at h
    rw [List.mem_singleton.1 h]
    exact ⟨rfl, rfl⟩

theorem mem_marksOfProperties (h : m ∈ marksOfProperties stop ns) :
    (∃ n ∈ ns, m ∈ n.marks) ∨ m.kind.isFixed = true ∧ m.zone = none := by
  induction ns with
  | nil => cases h
  | cons n ns ih =>
    rcases List.mem_append.1 h with h | h
    · exact .inl ⟨n, List.mem_cons_self, h⟩
    rcases List.mem_append.1 h with h | h
    · exact .inr (fixed_of_mem_tailMarks h)
    · exact (ih h).imp_left fun ⟨n, hn, h⟩ => ⟨n, List.mem_cons_of_mem _ hn, h⟩

/-- The marks of a property lie one behind the other, with what follows them. -/
theorem infix_marksOfProperties (stop : Nat) (h : n ∈ ns) :
    ∃ next, n.marks ++ n.tailMarks next <:+: marksOfProperties stop ns := by
  induction ns with
  | nil => cases h
  | cons a ns ih =>
    rcases List.mem_cons.1 h with rfl | h
    · refine ⟨ns.head?.elim stop start, ?_⟩
      rw [marksOfProperties, ← List.append_assoc]
      exact (List.prefix_append _ _).isInfix
    · obtain ⟨next, hnext⟩ := ih h
      exact ⟨next, hnext.trans ((List.suffix_append _ _).trans (List.suffix_append _ _)).isInfix⟩

theorem sublist_marksOfProperties (stop : Nat) (ns : List Node) :
    (marksOfAll ns).Sublist (marksOfProperties stop ns) := by
  induction ns with
  | nil => exact .slnil
  | cons n ns ih => exact (ih.trans (List.sublist_append_right _ _)).append_left n.marks

end

/-- The marks of the parts of a tree. -/
def innerMarks (n : Node) : List Mark := n.parts.flatMap fun p => p.node.marks

theorem marks_eq (n : Node) : n.marks =
    match n with
    | identifier s _ | yield s _ none => [⟨s, .name, none⟩]
    | literal s (.string v) => [⟨s, .string (some ⟨v, none⟩), none⟩]
    | member s false (this _) _ => [⟨s, .property, none⟩]
    | expression _ (literal s (.string v)) (some spelling) =>
      [⟨s, .string (some ⟨v, some spelling⟩), none⟩]
    | metaProperty .. => []
    | object s nodes => marksOfProperties s.stop nodes
    | property s _ true _ true _ _ => n.innerMarks.map (Mark.inZone s)
    | property _ _ false _ true _ value => value.marks
    | property s kind computed isMethod false key value =>
      keyedMarks s kind computed isMethod key value key.marks value.marks
    | n => n.innerMarks := by
  cases n
  case literal s value => cases value <;> rfl
  case yield s delegate argument =>
    cases argument with
    | none => rfl
    | some e => exact (List.append_nil _).symm
  case member s computed owner key =>
    have hboth : owner.marks ++ key.marks = owner.marks ++ (key.marks ++ []) :=
      congrArg (owner.marks ++ ·) (List.append_nil _).symm
    cases computed
    case true => exact hboth
    case false =>
      cases owner
      case this => rfl
      all_goals exact hboth
  case property s kind computed isMethod shorthand key value =>
    have hboth : key.marks ++ value.marks = key.marks ++ (value.marks ++ []) :=
      congrArg (key.marks ++ ·) (List.append_nil _).symm
    cases computed <;> cases shorthand
    case true.true => exact congrArg (List.map (Mark.inZone s)) hboth
    all_goals rfl
  case expression s e directive =>
    cases e
    case literal r value => cases directive <;> cases value <;> rfl
    all_goals cases directive <;> exact (List.append_nil _).symm
  case array s nodes => exact ((marks_partsOf _ _).trans (marksOfAll_filter nodes)).symm
  case arrayPattern s nodes => exact ((marks_partsOf _ _).trans (marksOfAll_filter nodes)).symm
  all_goals
    simp only [innerMarks, parts, List.flatMap_append, List.flatMap_cons, List.flatMap_nil,
      List.append_nil, List.nil_append, marks_partsOf, marks_partOf?, List.append_assoc,
      List.cons_append]
    rfl

/-- A string is the same mark whether it is a directive or not. -/
theorem map_withoutZone_marks_expression (s : Span) (e : Node) (directive : Option Text) :
    (expression s e directive).marks.map Mark.withoutZone = e.marks.map Mark.withoutZone := by
  cases directive with
  | none => rfl
  | some spelling =>
    cases e
    case literal r value => cases value <;> rfl
    all_goals rfl

/-- A tree lies in another one, at any depth; every tree lies in itself. -/
def Contains (n m : Node) : Prop := Relation.ReflTransGen (fun a b => ∃ p ∈ a.parts, p.node = b) n m

/-- The span of an ambiguous property of a tree. -/
def HasZone (n : Node) (z : Span) : Prop :=
  ∃ kind isMethod key value, n.Contains (property z kind true isMethod true key value)

theorem HasZone.of_mem_parts {n : Node} {z : Span} {p : Part} (hp : p ∈ n.parts)
    (h : p.node.HasZone z) : n.HasZone z :=
  have ⟨kind, isMethod, key, value, hcontains⟩ := h
  ⟨kind, isMethod, key, value, .head ⟨p, hp, rfl⟩ hcontains⟩

theorem zone_of_mem_marks {n : Node} {m : Mark} {z : Span} (hm : m ∈ n.marks) (hz : z ∈ m.zone) :
    n.HasZone z := by
  have hpart {p : Part} (hp : p ∈ n.parts) (hm : m ∈ p.node.marks) : n.HasZone z :=
    have := sizeOf_lt_of_mem_parts hp
    (zone_of_mem_marks hm hz).of_mem_parts hp
  rw [marks_eq] at hm
  split at hm
  case h_6 => cases hm
  case h_7 s nodes =>
    rcases mem_marksOfProperties hm with ⟨p, hp, hm⟩ | ⟨-, hnone⟩
    · exact hpart (p := ⟨"properties", p, .plain⟩) (List.mem_map_of_mem hp) hm
    · rw [hnone] at hz
      cases hz
  case h_8 s kind isMethod key value =>
    obtain ⟨m', -, rfl⟩ := List.mem_map.1 hm
    cases hz
    exact ⟨kind, isMethod, key, value, .refl⟩
  case h_9 s kind isMethod key value =>
    exact hpart (p := ⟨"value", value, .plain⟩) (by simp [parts]) hm
  case h_10 s kind computed isMethod key value =>
    rcases mem_keyedMarks hm with hm | hm | ⟨-, hnone⟩
    · exact hpart (p := ⟨"key", key, .plain⟩) (by simp [parts]) hm
    · exact hpart (p := ⟨"value", value, .plain⟩) (by simp [parts]) hm
    · rw [hnone] at hz
      cases hz
  case h_11 =>
    obtain ⟨p, hp, hm⟩ := List.mem_flatMap.1 hm
    exact hpart hp hm
  all_goals
    rw [List.mem_singleton.1 hm] at hz
    cases hz
termination_by sizeOf n

/-! ### Patterns

An expression that turns out to be a pattern keeps its span, and its marks but for those behind
shorthand properties. -/

@[simp] theorem span?_asPattern (n : Node) : n.asPattern.span? = n.span? := by
  cases n <;> rfl

theorem keyedMarks_asPattern (s : Span) (kind : PropertyKind) (computed isMethod : Bool)
    (key value : Node) (ofKey ofValue : List Mark) :
    keyedMarks s kind computed isMethod key value.asPattern ofKey ofValue =
      keyedMarks s kind computed isMethod key value ofKey ofValue := by
  have hsets : (property s kind computed isMethod false key value.asPattern).setsPrototype =
      (property s kind computed isMethod false key value).setsPrototype := by
    cases kind <;> cases computed <;> cases isMethod <;> rfl
  have hentry : value.asPattern.entry isMethod = value.entry isMethod := by
    rw [entry, entry, start, start, span?_asPattern]
  rw [keyedMarks, keyedMarks, hentry, hsets]

mutual

theorem sublist_marks_asPattern (n : Node) : n.asPattern.marks.Sublist n.marks := by
  cases n
  case spread s e => exact sublist_marks_asPattern e
  case array s nodes => exact sublist_marksOfAll_asPatterns nodes
  case object s nodes =>
    exact (sublist_marksOfAll_asPropertyPatterns nodes).trans (sublist_marksOfProperties _ _)
  case assignment s op left right => exact (sublist_marks_asPattern left).append_right right.marks
  all_goals exact .refl _

theorem sublist_marksOfAll_asPatterns (ns : List Node) :
    (marksOfAll (asPatterns ns)).Sublist (marksOfAll ns) := by
  cases ns with
  | nil => exact .slnil
  | cons n ns => exact (sublist_marks_asPattern n).append (sublist_marksOfAll_asPatterns ns)

theorem sublist_marksOfAll_asPropertyPatterns (ns : List Node) :
    (marksOfAll (asPropertyPatterns ns)).Sublist (marksOfAll ns) := by
  cases ns with
  | nil => exact .slnil
  | cons n ns =>
    have hn := sublist_marks_asPattern n
    have hns := sublist_marksOfAll_asPropertyPatterns ns
    cases n
    case property s kind computed isMethod shorthand key value =>
      have hvalue := sublist_marks_asPattern value
      suffices hp : (property s kind computed isMethod shorthand key value.asPattern).marks.Sublist
        (property s kind computed isMethod shorthand key value).marks from hp.append hns
      cases shorthand with
      | false =>
        rw [marks_keyed, marks_keyed, keyedMarks_asPattern]
        exact keyedMarks_mono hvalue
      | true =>
        cases computed with
        | false => exact hvalue
        | true => exact (hvalue.append_left key.marks).map _
    all_goals exact hn.append hns

end

theorem sublist_marksOfAll_map_asPattern (ns : List Node) :
    (marksOfAll (ns.map asPattern)).Sublist (marksOfAll ns) := by
  induction ns with
  | nil => exact .slnil
  | cons n ns ih => exact (sublist_marks_asPattern n).append ih

end Node

/-! ## Marks one behind the other -/

/-- Marks of a text lie between two offsets, each in its zone and one behind the other as far as
they are not in the same one. -/
structure Fits (t : Text) (start stop : Nat) (ms : List Mark) : Prop where
  within : ∀ m ∈ ms, m.span.Within start stop
  zoned : ∀ m ∈ ms, ∀ z ∈ m.zone, m.span.Within z.start z.stop
  suited : ∀ m ∈ ms, m.Suits t
  precedes : ms.Pairwise (Mark.Precedes t)

namespace Fits

variable {t : Text} {start stop i j k l : Nat} {a b : List Mark}

theorem nil (t : Text) (start stop : Nat) : Fits t start stop [] :=
  ⟨List.forall_mem_nil _, List.forall_mem_nil _, List.forall_mem_nil _, .nil⟩

theorem single {s : Span} {kind : MarkKind} (h : s.Within start stop)
    (hsuits : Mark.Suits ⟨s, kind, none⟩ t) : Fits t start stop [⟨s, kind, none⟩] :=
  ⟨by simpa using h, by simp, by simpa using hsuits, List.pairwise_singleton _ _⟩

theorem mono (h : Fits t i j a) (hout : start ≤ i ∧ j ≤ stop) : Fits t start stop a := by
  refine ⟨fun m hm => ?_, h.zoned, h.suited, h.precedes⟩
  obtain ⟨h₁, h₂, h₃⟩ := h.within m hm
  exact ⟨by omega, h₂, by omega⟩

/-- Marks in front of an offset, and marks behind it. -/
theorem append (ha : Fits t i j a) (hb : Fits t k l b) (hjk : t.Clears j k) (hout : i ≤ k ∧ j ≤ l) :
    Fits t i l (a ++ b) := by
  have ha' : Fits t i l a := ha.mono ⟨Nat.le_refl i, hout.2⟩
  have hb' : Fits t i l b := hb.mono ⟨hout.1, Nat.le_refl l⟩
  refine ⟨fun m hm => ?_, fun m hm => ?_, fun m hm => ?_,
    List.pairwise_append.2 ⟨ha.precedes, hb.precedes, ?_⟩⟩
  · exact (List.mem_append.1 hm).elim (ha'.within m) (hb'.within m)
  · exact (List.mem_append.1 hm).elim (ha.zoned m) (hb.zoned m)
  · exact (List.mem_append.1 hm).elim (ha.suited m) (hb.suited m)
  · intro m hm n hn
    exact .of_clears (hjk.mono (ha.within m hm).2.2 (hb.within n hn).1)

theorem sublist (h : Fits t start stop b) (hab : a.Sublist b) : Fits t start stop a :=
  ⟨fun m hm => h.within m (hab.subset hm), fun m hm => h.zoned m (hab.subset hm),
    fun m hm => h.suited m (hab.subset hm), h.precedes.sublist hab⟩

/-- A part that stays between marks in front of it and marks behind it. -/
theorem insert {m : Mark} (h : Fits t start stop (a ++ b)) (hwithin : m.span.Within start stop)
    (hfixed : m.kind.isFixed = true) (hzone : m.zone = none) (hsuits : m.Suits t)
    (ha : ∀ n ∈ a, n.span.stop ≤ m.span.start) (hb : ∀ n ∈ b, m.span.stop ≤ n.span.start) :
    Fits t start stop (a ++ m :: b) := by
  have hmem {n : Mark} (hn : n ∈ a ++ m :: b) : n = m ∨ n ∈ a ++ b := by
    simp only [List.mem_append, List.mem_cons] at hn ⊢
    tauto
  refine ⟨fun n hn => ?_, fun n hn => ?_, fun n hn => ?_, ?_⟩
  · rcases hmem hn with rfl | hn
    exacts [hwithin, h.within n hn]
  · rcases hmem hn with rfl | hn
    · simp [hzone]
    · exact h.zoned n hn
  · rcases hmem hn with rfl | hn
    exacts [hsuits, h.suited n hn]
  · obtain ⟨hpa, hpb, hab⟩ := List.pairwise_append.1 h.precedes
    refine List.pairwise_append.2
      ⟨hpa, List.pairwise_cons.2 ⟨fun n hn => .inl ⟨hb n hn, ?_⟩, hpb⟩, ?_⟩
    · simp [hfixed]
    · rintro n hn k hk
      rcases List.mem_cons.1 hk with rfl | hk
      · exact .inl ⟨ha n hn, by simp [hfixed]⟩
      · exact hab n hn k hk

/-- The marks of an ambiguous property lie one behind the other, but for those of its key, which the
name that stands for the value covers. -/
theorem inZone (ha : Fits t start stop a) (hb : Fits t start stop b)
    (hcovers : ∀ m ∈ a, ∀ n ∈ b,
      t.Clears m.span.stop n.span.start ∨ m.span.Within n.span.start n.span.stop) :
    Fits t start stop ((a ++ b).map (Mark.inZone ⟨start, stop⟩)) := by
  have hwithin : ∀ m ∈ a ++ b, m.span.Within start stop := fun m hm =>
    (List.mem_append.1 hm).elim (ha.within m) (hb.within m)
  have hzone {m n : Mark} (h : m.Precedes t n) :
      Mark.Precedes t (m.inZone ⟨start, stop⟩) (n.inZone ⟨start, stop⟩) :=
    h.imp_right fun h => ⟨rfl, rfl, h.2.2⟩
  refine ⟨List.forall_mem_map.2 hwithin, List.forall_mem_map.2 ?_, List.forall_mem_map.2 ?_, ?_⟩
  · rintro m hm _ ⟨⟩
    exact hwithin m hm
  · intro m hm
    have hsuits : m.Suits t := (List.mem_append.1 hm).elim (ha.suited m) (hb.suited m)
    exact ⟨hsuits.nonempty, hsuits.name, hsuits.property, hsuits.string, hsuits.tells⟩
  · rw [List.map_append]
    refine List.pairwise_append.2 ⟨List.pairwise_map.2 (ha.precedes.imp hzone),
      List.pairwise_map.2 (hb.precedes.imp hzone), ?_⟩
    simp only [List.forall_mem_map]
    exact fun m hm n hn =>
      (hcovers m hm n hn).imp (fun h => ⟨h.1, fun _ _ => h⟩) fun h => ⟨rfl, rfl, h⟩

end Fits

/-! ### The properties of an object -/

namespace Node

/-- Properties, the last one first, lie one behind the other between two offsets, and so does what
follows each of them. -/
def Strung (t : Text) (start : Nat) : List Node → Nat → Prop
  | [], next => start ≤ next
  | n :: ns, next =>
    (∃ stop ≤ next, n.start ≤ stop ∧ (∀ m ∈ n.marks, m.span.Within n.start stop) ∧
      ∀ m ∈ n.tailMarks next, m.Suits t ∧ m.span.start = stop) ∧ Strung t start ns n.start

namespace Strung

variable {t : Text} {start stop next : Nat} {ns : List Node} {rest : List Mark}

theorem stop_le (h : Strung t start ns next) :
    start ≤ next ∧ ∀ m ∈ marksOfAll ns.reverse, m.span.stop ≤ next := by
  induction ns generalizing next with
  | nil => exact ⟨h, nofun⟩
  | cons n ns ih =>
    obtain ⟨⟨stop, hstop, hstart, hwithin, -⟩, h⟩ := h
    obtain ⟨h₁, h₂⟩ := ih h
    refine ⟨by omega, ?_⟩
    rw [List.reverse_cons, marksOfAll_append, marksOfAll_cons, marksOfAll_nil, List.append_nil]
    refine List.forall_mem_append.2 ⟨fun m hm => ?_, fun m hm => ?_⟩
    · exact (h₂ m hm).trans (hstart.trans hstop)
    · exact (hwithin m hm).2.2.trans hstop

/-- The marks of properties one behind the other stay so with what is between the properties. -/
theorem fits (h : Strung t start ns next)
    (hfits : Fits t start stop (marksOfAll ns.reverse ++ rest))
    (hnext : next ≤ stop) (hrest : ∀ m ∈ rest, next ≤ m.span.start) :
    Fits t start stop (marksOfProperties next ns.reverse ++ rest) := by
  induction ns generalizing next rest with
  | nil => exact hfits
  | cons n ns ih =>
    obtain ⟨⟨i, hi, hstart, hwithin, htail⟩, h⟩ := h
    obtain ⟨hout, hbefore⟩ := h.stop_le
    rw [List.reverse_cons, marksOfAll_append, marksOfAll_cons, marksOfAll_nil, List.append_nil,
      List.append_assoc] at hfits
    rw [List.reverse_cons, marksOfProperties_append_singleton, List.append_assoc, List.append_assoc]
    have hmarks : ∀ m ∈ n.marks, n.start ≤ m.span.start := fun m hm => (hwithin m hm).1
    have hbehind : ∀ m ∈ rest, n.start ≤ m.span.start := fun m hm =>
      (hstart.trans hi).trans (hrest m hm)
    obtain heq | ⟨s, heq⟩ := tailMarks_eq next n
    · rw [heq, List.nil_append]
      exact ih h hfits (by omega) (List.forall_mem_append.2 ⟨hmarks, hbehind⟩)
    · rw [heq] at htail ⊢
      obtain ⟨hsuits, rfl⟩ := htail _ List.mem_cons_self
      dsimp only at hi hstart hwithin
      refine ih h ?_ (by omega)
        (List.forall_mem_append.2 ⟨hmarks, List.forall_mem_cons.2 ⟨hstart, hbehind⟩⟩)
      rw [← List.append_assoc] at hfits ⊢
      refine hfits.insert ⟨by show start ≤ s.stop; omega, hi, hnext⟩ rfl rfl hsuits ?_ hrest
      refine List.forall_mem_append.2 ⟨fun m hm => ?_, fun m hm => (hwithin m hm).2.2⟩
      exact (hbefore m hm).trans hstart

end Strung
end Node

/-! ## Trees that are laid out -/

namespace Node

/-- Whether a tree has a span, which ends at an offset at the latest and covers the marks. -/
def IsPlaced (t : Text) (stop : Nat) (n : Node) : Prop :=
  ∃ s, n.span? = some s ∧ s.start ≤ s.stop ∧ s.stop ≤ stop ∧ Fits t s.start s.stop n.marks

/-- What can be told from a tree about its parts without looking deeper: where spans are needed,
there are spans, and the parameters of a function lie in front of its body.  An element that is left
out is no tree. -/
def IsShaped (t : Text) : Node → Prop
  | hole => False
  | function span _ _ _ _ params body | arrow span _ params body =>
    (∀ p ∈ params, p.span?.isSome) ∧ Fits t span.start body.start (marksOfAll params) ∧
      span.stop ≤ t.length ∧ body.IsPlaced t span.stop
  | arrowParameters _ nodes | sequence _ nodes => ∀ n ∈ nodes, n.span?.isSome
  | call _ callee _ => callee.IsShaped t
  | expression _ e _ => e.IsShaped t
  | _ => True

/-- A tree is laid out between two offsets of a text. -/
structure Lies (t : Text) (start stop : Nat) (n : Node) : Prop where
  fits : Fits t start stop n.marks
  framed : ∀ s ∈ n.span?, s.Within start stop ∧ Fits t s.start s.stop n.marks
  shaped : n.IsShaped t

namespace Lies

variable {t : Text} {start stop i j : Nat} {n : Node}

theorem mono (h : n.Lies t i j) (hout : start ≤ i ∧ j ≤ stop) : n.Lies t start stop := by
  refine ⟨h.fits.mono hout, fun s hs => ?_, h.shaped⟩
  obtain ⟨⟨h₁, h₂, h₃⟩, hfits⟩ := h.framed s hs
  exact ⟨⟨by omega, h₂, by omega⟩, hfits⟩

/-- A tree that covers all that was read for it. -/
theorem of_fits (hspan : n.span? = some ⟨start, stop⟩) (hfits : Fits t i j n.marks)
    (hshaped : n.IsShaped t) (hle : start ≤ stop) (hout : start ≤ i ∧ j ≤ stop) :
    n.Lies t start stop := by
  refine ⟨hfits.mono hout, fun s hs => ?_, hshaped⟩
  obtain rfl : s = ⟨start, stop⟩ := by simpa [hspan, eq_comm] using hs
  exact ⟨⟨Nat.le_refl _, hle, Nat.le_refl _⟩, hfits.mono hout⟩

/-- A tree with a span begins where this does, and so do its marks at the earliest. -/
theorem start_le (h : n.Lies t start stop) (hspanned : n.span?.isSome) :
    start ≤ n.start ∧ n.start ≤ stop ∧ ∀ m ∈ n.marks, n.start ≤ m.span.start := by
  obtain ⟨s, hs⟩ := Option.isSome_iff_exists.1 hspanned
  obtain ⟨⟨h₁, h₂, h₃⟩, hfits⟩ := h.framed s hs
  rw [Node.start, hs]
  exact ⟨h₁, Nat.le_trans h₂ h₃, fun m hm => (hfits.within m hm).1⟩

theorem isPlaced (h : n.Lies t start stop) (hspan : n.span?.isSome) : n.IsPlaced t stop := by
  obtain ⟨s, hs⟩ := Option.isSome_iff_exists.1 hspan
  obtain ⟨⟨_, hle, hstop⟩, hfits⟩ := h.framed s hs
  exact ⟨s, hs, hle, hstop, hfits⟩

/-- Only a list in parentheses that stands for parameters has no span. -/
theorem spanned (h : n.Lies t start stop) (hlist : ∀ a ps, n ≠ arrowParameters a ps) :
    n.span?.isSome := by
  cases n
  case hole => exact h.shaped.elim
  case arrowParameters a ps => exact (hlist a ps rfl).elim
  all_goals rfl

/-- An expression that turns out to be a pattern is laid out as it was. -/
theorem asPattern (h : n.Lies t start stop) : n.asPattern.Lies t start stop := by
  refine ⟨h.fits.sublist n.sublist_marks_asPattern, fun s hs => ?_, ?_⟩
  · rw [span?_asPattern] at hs
    exact (h.framed s hs).imp_right fun hfits => hfits.sublist n.sublist_marks_asPattern
  cases n
  case spread | array | object | assignment => trivial
  all_goals exact h.shaped

end Lies
end Node
end Elementwise
