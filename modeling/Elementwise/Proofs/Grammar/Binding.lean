import Elementwise.Grammar.Binding
import Elementwise.Proofs.Contract
import Elementwise.Proofs.Layout

/-!
# The layout of patterns

Every parser lays its tree out between the token it looks at first and the last one it consumes.
`Node.Read` says so, and `Node.Whole` says of trees that surely have a span that they do.  What
several parsers read one after another is covered by the way from the first to the last, and that
is all the contracts are made of.

## What is here

* `Parse.Covers` — marks on the way from one spot to a later one.
* `Node.Read`, `Node.Whole` — trees that lie where they were read.
* `Parse.Deeper.Lawful` — the contract of what lies deeper.
* `Parse.bindingPattern_gives`, `Parse.restParameter_gives` … — the contracts of the parsers of keys
  and patterns.
-/

set_option autoImplicit false
namespace Elementwise

namespace Parse

/-- Marks lie on the way from one spot to a later one. -/
structure Covers (t : Text) (x y : Spot) (ms : List Mark) : Prop where
  later : x.Later y
  fits : Fits t x.next y.done ms
  consumed : ms = [] ∨ x.Past y

namespace Covers

variable {t : Text} {x y z w : Spot} {a b : List Mark}

theorem nil (h : x.Later y) : Covers t x y [] := ⟨h, .nil _ _ _, .inl rfl⟩

theorem mono (h : Covers t y z a) (hout : x.Later y ∧ z.Later w) : Covers t x w a := by
  have ⟨hyz, hfits, hconsumed⟩ := h
  rcases hconsumed with rfl | hpast
  · exact .nil (by omega)
  · exact ⟨by omega, hfits.mono (by omega), .inr (by omega)⟩

theorem sublist (h : Covers t x y b) (hab : a.Sublist b) : Covers t x y a := by
  refine ⟨h.later, h.fits.sublist hab, h.consumed.imp_left ?_⟩
  rintro rfl
  exact List.sublist_nil.1 hab

/-- A part that stays between marks in front of it and marks behind it. -/
theorem insert {m : Mark} (h : Covers t x y (a ++ b)) (hpast : x.Past y)
    (hwithin : m.span.Within x.next y.done) (hfixed : m.kind.isFixed = true) (hzone : m.zone = none)
    (hsuits : m.Suits t) (ha : ∀ n ∈ a, n.span.stop ≤ m.span.start)
    (hb : ∀ n ∈ b, m.span.stop ≤ n.span.start) : Covers t x y (a ++ m :: b) :=
  ⟨h.later, h.fits.insert hwithin hfixed hzone hsuits ha hb, .inr hpast⟩

/-- In an ambiguous property the name that stands for the value may cover the marks of the key. -/
theorem inZone (ha : Covers t x y a) (hb : Covers t x y b)
    (hcovers : ∀ m ∈ a, ∀ n ∈ b,
      t.Clears m.span.stop n.span.start ∨ m.span.Within n.span.start n.span.stop) :
    Covers t x y ((a ++ b).map (Mark.inZone ⟨x.next, y.done⟩)) := by
  have ⟨hlater, hafits, ha'⟩ := ha
  have ⟨_, hbfits, hb'⟩ := hb
  refine ⟨hlater, hafits.inZone hbfits hcovers, ?_⟩
  rcases ha' with rfl | hpast
  · rcases hb' with rfl | hpast
    · exact .inl rfl
    · exact .inr hpast
  · exact .inr hpast

end Covers

/-- Marks on the way from one spot to a later one that do not end where a parenthesis stands at the
end of the way. -/
structure Closed (t : Text) (x y : Spot) (ms : List Mark) : Prop extends Covers t x y ms where
  clear : ms = [] ∨ ∃ j, Fits t x.next j ms ∧ t.Clears j y.next

/-- Marks on the way from one spot to a later one, behind a token, or nothing at all. -/
def Follows (t : Text) (x z : Spot) (ms : List Mark) : Prop :=
  ms = [] ∧ z = x ∨ ∃ y, x.Consumes t y ∧ Covers t y z ms

/-- Marks on the way from one spot to a later one, between two tokens. -/
def Enclosed (t : Text) (x z : Spot) (ms : List Mark) : Prop :=
  ∃ y, x.Consumes t y ∧ Closed t y z ms

section

variable {t : Text} {x y z w : Spot} {a b : List Mark}

namespace Covers

theorem closed_of_clears (h : Covers t x y a) (hyz : y.Later z) (hclear : t.Clears y.done z.next) :
    Closed t x z a := ⟨h.mono (by omega), .inr ⟨y.done, h.fits, hclear⟩⟩

/-- Marks in front of a token that has been consumed. -/
theorem closed (h : Covers t x y a) (hyz : y.Consumes t z) : Closed t x z a := by
  rcases h.consumed with rfl | hpast
  · exact ⟨h.mono (by omega), .inl rfl⟩
  · exact h.closed_of_clears (.inr hyz.1) (hyz.2.mono hpast.2 hyz.1.2)

/-- Marks on a way behind which there is no parenthesis. -/
theorem closed_of_ne (h : Covers t x y a) (hy : t[y.next]? ≠ some (.scalar '(')) :
    Closed t x y a := by
  rcases h.consumed with rfl | hpast
  · exact ⟨h, .inl rfl⟩
  · exact h.closed_of_clears (.refl y) ⟨hpast.2, fun _ => hy⟩

/-- Marks behind a token that has been consumed. -/
theorem follows (h : Covers t y z a) (hxy : x.Consumes t y) : Follows t x z a := .inr ⟨y, hxy, h⟩

end Covers

namespace Closed

theorem nil (h : x.Later y) : Closed t x y [] := ⟨.nil h, .inl rfl⟩

theorem mono (h : Closed t y z a) (hout : x.Later y ∧ z.Later w) : Closed t x w a := by
  obtain ⟨hcovers, hclear⟩ := h
  refine ⟨hcovers.mono hout, hclear.imp_right fun ⟨j, hfits, hclear⟩ => ⟨j, ?_⟩⟩
  exact ⟨hfits.mono (by omega), hclear.mono (Nat.le_refl j) (by omega)⟩

/-- Marks on one way and marks on another one behind it. -/
theorem append (ha : Closed t x y a) (hb : Covers t z w b) (hyz : y.Later z) :
    Covers t x w (a ++ b) := by
  rcases ha.clear with rfl | ⟨j, hafits, hclear⟩
  · exact hb.mono (by have := ha.later; omega)
  rcases ha.consumed with rfl | ha'
  · exact hb.mono (by have := ha.later; omega)
  rcases hb.consumed with rfl | hb'
  · rw [List.append_nil]
    exact ha.toCovers.mono (by have := hb.later; omega)
  · have hclear := hclear.mono (k := y.next) (l := z.next) (Nat.le_refl j) (by omega)
    have hj := hclear.1
    exact ⟨by omega, hafits.append hb.fits hclear (by omega), .inr (by omega)⟩

theorem append_closed (ha : Closed t x y a) (hb : Closed t z w b) (hyz : y.Later z) :
    Closed t x w (a ++ b) := by
  refine ⟨ha.append hb.toCovers hyz, ?_⟩
  rcases ha.clear with rfl | ⟨j, hafits, hclear⟩
  · exact (hb.mono ⟨(ha.later).trans hyz, .refl w⟩).clear
  rcases hb.clear with rfl | ⟨k, hbfits, hclear'⟩
  · rw [List.append_nil]
    exact (ha.mono ⟨.refl x, hyz.trans hb.later⟩).clear
  cases b with
  | nil =>
    rw [List.append_nil]
    exact (ha.mono ⟨.refl x, hyz.trans hb.later⟩).clear
  | cons m b =>
    obtain ⟨hstart, hm, hstop⟩ := hbfits.within m List.mem_cons_self
    have hx := ha.later
    have hclear := hclear.mono (l := z.next) (Nat.le_refl j) (by omega)
    have hj := hclear.1
    exact .inr ⟨k, hafits.append hbfits hclear (by omega), hclear'⟩

end Closed

theorem Follows.covers (h : Follows t x y a) : Covers t x y a := by
  obtain ⟨rfl, rfl⟩ | ⟨z, hz, h⟩ := h
  · exact .nil (.refl y)
  · exact h.mono (by omega)

/-- Marks on one way and marks behind a token that follows. -/
theorem Covers.append (ha : Covers t x y a) (hb : Follows t y z b) : Covers t x z (a ++ b) := by
  obtain ⟨rfl, rfl⟩ | ⟨w, hw, h⟩ := hb
  · rw [List.append_nil]
    exact ha
  · exact (ha.closed hw).append h (.refl w)

theorem Follows.append (ha : Follows t x y a) (hb : Follows t y z b) : Follows t x z (a ++ b) := by
  obtain ⟨rfl, rfl⟩ | ⟨w, hw, h⟩ := ha
  · exact hb
  · exact .inr ⟨w, hw, h.append hb⟩

theorem Enclosed.closed (h : Enclosed t x y a) : Closed t x y a := by
  obtain ⟨z, hz, h⟩ := h
  exact h.mono (by omega)

theorem Enclosed.past (h : Enclosed t x y a) : x.Past y := by
  obtain ⟨z, hz, h⟩ := h
  have hy := h.later
  omega

theorem Enclosed.follows (h : Enclosed t x y a) : Follows t x y a := by
  obtain ⟨z, hz, h⟩ := h
  exact h.toCovers.follows hz

/-- Marks between a parenthesis and another token. -/
theorem Enclosed.lt (h : Enclosed t x y a) (hparen : t[x.next]? = some (.scalar '(')) :
    x.next < y.done ∧ ∀ m ∈ a, x.next < m.span.start := by
  obtain ⟨z, ⟨hz, hclears⟩, h⟩ := h
  have hlt : x.next < z.done := Nat.lt_of_le_of_ne hz.1 fun heq => hclears.2 heq (heq ▸ hparen)
  have hy := h.later
  refine ⟨by omega, fun m hm => ?_⟩
  have := (h.fits.within m hm).1
  omega

theorem Enclosed.append (ha : Enclosed t x y a) (hb : Enclosed t y z b) :
    Enclosed t x z (a ++ b) := by
  obtain ⟨w, hw, ha⟩ := ha
  exact ⟨w, hw, ha.append_closed hb.closed (.refl y)⟩

/-- Marks on one way and marks between two tokens that follow. -/
theorem Covers.append_enclosed (ha : Covers t x y a) (hb : Enclosed t y z b) :
    Closed t x z (a ++ b) := by
  obtain ⟨w, hw, hb⟩ := hb
  exact (ha.closed hw).append_closed hb (.refl w)

/-- One more tree behind those that have been read, which are held last one first. -/
theorem Closed.snoc {n : Node} {ns : List Node} (hns : Closed t x y (Node.marksOfAll ns.reverse))
    (hn : Covers t z w n.marks) (hyz : y.Later z) :
    Covers t x w (Node.marksOfAll (n :: ns).reverse) := by
  rw [List.reverse_cons, Node.marksOfAll_append, Node.marksOfAll_cons, Node.marksOfAll_nil,
    List.append_nil]
  exact hns.append hn hyz

theorem Closed.snoc_closed {n : Node} {ns : List Node}
    (hns : Closed t x y (Node.marksOfAll ns.reverse)) (hn : Closed t z w n.marks)
    (hyz : y.Later z) :
    Closed t x w (Node.marksOfAll (n :: ns).reverse) := by
  rw [List.reverse_cons, Node.marksOfAll_append, Node.marksOfAll_cons, Node.marksOfAll_nil,
    List.append_nil]
  exact hns.append_closed hn hyz

end

end Parse

/-! ## Trees that have been read -/

open Parse

namespace Node

variable {t : Text} {x y z w : Spot} {n : Node}

/-- A string that was read where a string starts is that one. -/
def Leads (t : Text) (i : Nat) (n : Node) : Prop :=
  ∀ s v, n = literal s (.string v) → t.StartsString i → s.start = i

/-- A tree has been read between two spots of a text, and lies between them. -/
structure Read (t : Text) (x y : Spot) (n : Node) : Prop where
  past : x.Past y
  lies : n.Lies t x.next y.done
  leads : n.Leads t x.next

/-- A tree that has been read and has a span. -/
structure Whole (t : Text) (x y : Spot) (n : Node) : Prop extends n.Read t x y where
  spanned : n.span?.isSome

/-- A tree that has been read and does not end where a parenthesis stands. -/
structure Sealed (t : Text) (x y : Spot) (n : Node) : Prop extends n.Read t x y where
  closed : Closed t x y n.marks

theorem Read.covers (h : n.Read t x y) : Covers t x y n.marks :=
  ⟨.inr h.past, h.lies.fits, .inr h.past⟩

theorem Read.mono (h : n.Read t x z) (hzw : z.Later w) : n.Read t x w := by
  have ⟨hpast, hlies, hleads⟩ := h
  exact ⟨by omega, hlies.mono (by omega), hleads⟩

theorem Whole.mono (h : n.Whole t x z) (hzw : z.Later w) : n.Whole t x w :=
  ⟨h.toRead.mono hzw, h.spanned⟩

/-- A tree in front of which something else has been read. -/
theorem Read.behind (h : n.Read t y z) (hout : x.Later y ∧ z.Later w)
    (hno : ¬t.StartsString x.next) : n.Read t x w := by
  have ⟨hpast, hlies, _⟩ := h
  exact ⟨by omega, hlies.mono (by omega), fun _ _ _ hstarts => (hno hstarts).elim⟩

/-- A tree that covers all that was read for it, given the marks of its parts. -/
theorem Whole.of_covers (h : Covers t y z n.marks) (hspan : n.span? = some ⟨x.next, w.done⟩)
    (hshaped : n.IsShaped t) (hout : x.Past w ∧ x.Later y ∧ z.Later w) : n.Whole t x w := by
  have hfits : Fits t x.next w.done n.marks := (h.mono hout.2).fits
  refine ⟨⟨hout.1, .of_fits hspan hfits hshaped (by omega) (by omega), ?_⟩, by rw [hspan]; rfl⟩
  rintro s v rfl -
  obtain rfl : s = ⟨x.next, w.done⟩ := Option.some.inj hspan
  rfl

/-- A name, or something else that is replaced as a whole. -/
theorem Whole.of_single {kind : MarkKind} (hxy : x.Past y)
    (hsuits : Mark.Suits ⟨⟨x.next, y.done⟩, kind, none⟩ t)
    (hmarks : n.marks = [⟨⟨x.next, y.done⟩, kind, none⟩])
    (hspan : n.span? = some ⟨x.next, y.done⟩) (hshaped : n.IsShaped t) :
    n.Whole t x y := by
  have hcovers : Covers t x y n.marks := by
    rw [hmarks]
    exact ⟨.inr hxy, .single ⟨Nat.le_refl _, hxy.1, Nat.le_refl _⟩ hsuits, .inr hxy⟩
  exact .of_covers hcovers hspan hshaped (by omega)

/-- A name that covers a part of the text which suits it. -/
theorem Whole.identifier (name : Text) (hxy : x.Past y)
    (hsuits : Mark.Suits ⟨⟨x.next, y.done⟩, .name, none⟩ t) :
    (Node.identifier ⟨x.next, y.done⟩ name).Whole t x y :=
  .of_single hxy hsuits rfl rfl trivial

/-- A tree that covers all that was read for it and ends with a token, or in front of one that is no
parenthesis. -/
theorem Sealed.of_closed (h : Closed t y z n.marks) (hspan : n.span? = some ⟨x.next, w.done⟩)
    (hshaped : n.IsShaped t) (hout : x.Past w ∧ x.Later y ∧ z.Later w) : n.Sealed t x w :=
  ⟨(Whole.of_covers h.toCovers hspan hshaped hout).toRead, h.mono hout.2⟩

theorem Read.of_covers (h : Covers t y z n.marks) (hspan : n.span? = some ⟨x.next, w.done⟩)
    (hshaped : n.IsShaped t) (hout : x.Past w ∧ x.Later y ∧ z.Later w) : n.Read t x w :=
  (Whole.of_covers h hspan hshaped hout).toRead

/-! ### Properties -/

/-- What was read for a key that begins a property, in brackets or not. -/
inductive KeyAt (t : Text) (x y : Spot) : Bool → Node → Prop
  | name {name : Text} (hlt : x.next < y.done)
    (hspelled : Name.Begins name (t.drop x.next) (t.drop y.done)) :
    KeyAt t x y false (identifier ⟨x.next, y.done⟩ name)
  | string {value : Text} (hlt : x.next < y.done) :
    KeyAt t x y false (literal ⟨x.next, y.done⟩ (.string value))
  | number {value : Numeral} (helse : t.StartsElse x.next) :
    KeyAt t x y false (literal ⟨x.next, y.done⟩ (.number value))
  | computed {key : Node} (helse : t.StartsElse x.next) (hstart : x.next < key.start) :
    KeyAt t x y true key

/-- What was read for the value of a property behind its key: a colon and a value, or a method. -/
structure ValueAt (t : Text) (i stop : Nat) (isMethod : Bool) (value : Node) : Prop where
  symbol : t[i]? = some (if isMethod then .scalar '(' else .scalar ':')
  lt : i < value.entry isMethod
  le : value.entry isMethod ≤ stop
  behind : ∀ m ∈ value.marks, value.entry isMethod ≤ m.span.start

/-- A value behind a colon. -/
theorem Whole.valueAt {i : Nat} {value : Node} (h : value.Whole t z w) (hi : t[i]? = some ':')
    (hlt : i < z.next) : ValueAt t i w.done false value := by
  obtain ⟨h₁, h₂, h₃⟩ := h.lies.start_le h.spanned
  exact ⟨hi, Nat.lt_of_lt_of_le hlt h₁, h₂, h₃⟩

section

variable {kind : PropertyKind} {computed isMethod : Bool} {key value : Node} {k : Nat}

/-- A property with a key and a value of its own that begins with something that cannot set the
prototype. -/
theorem Whole.property_of_neverSets (hcovers : Covers t x w (key.marks ++ value.marks))
    (hpast : x.Past w)
    (hnever : t.NeverSets x.next k) (hkey : computed = true ∨ key.isString = true → k ≤ key.start)
    (hmarks : ∀ m ∈ key.marks, key.start ≤ m.span.start) (hstart : key.start ≤ value.entry isMethod)
    (hk : k ≤ value.entry isMethod) (hstop : value.entry isMethod ≤ w.done)
    (hbehind : ∀ m ∈ value.marks, value.entry isMethod ≤ m.span.start)
    (hsets : (Node.property ⟨x.next, w.done⟩ kind computed isMethod false key value).setsPrototype =
      false) :
    (Node.property ⟨x.next, w.done⟩ kind computed isMethod false key value).Whole t x w := by
  have hlt := hnever.lt
  -- the mark goes from the beginning of the property to that of the key, or of the value
  have hsuits {j : Nat} (hj : k ≤ j) : Mark.Suits ⟨⟨x.next, j⟩, .head false, none⟩ t :=
    ⟨by show x.next < j; omega, nofun, nofun, nofun, hnever.slice j hj⟩
  refine .of_covers (y := x) (z := w) ?_ rfl trivial (by omega)
  rw [marks_keyed, keyedMarks, hsets]
  dsimp only
  split
  · next hfront =>
    have hj := hkey (by simp_all; tauto)
    refine hcovers.insert (a := []) hpast ⟨Nat.le_refl _, ?_, ?_⟩ rfl rfl (hsuits hj)
      (List.forall_mem_nil _) ?_
    · exact Nat.le_trans (Nat.le_of_lt hlt) hj
    · exact Nat.le_trans hstart hstop
    · refine List.forall_mem_append.2 ⟨hmarks, fun m hm => ?_⟩
      exact Nat.le_trans hstart (hbehind m hm)
  split
  · next hfront hstring =>
    have hj := hkey (.inr hstring)
    have : x.next ≠ key.start := by omega
    simp_all
  · exact (hcovers.sublist (List.sublist_append_right _ _)).insert (a := []) hpast
      ⟨Nat.le_refl _, Nat.le_trans (Nat.le_of_lt hlt) hk, hstop⟩ rfl rfl (hsuits hk)
      (List.forall_mem_nil _)
      hbehind

/-- **A property with a key and a value of its own**, without a word in front of the key. -/
theorem Whole.property (hkey : KeyAt t x y computed key) (hread : key.Whole t x y)
    (hgap : t.Gap y.done y.next) (hvalue : ValueAt t y.next w.done isMethod value)
    (hcovers : Covers t x w (key.marks ++ value.marks)) (hpast : x.Past w) :
    (Node.property ⟨x.next, w.done⟩ .value computed isMethod false key value).Whole t x w := by
  obtain ⟨hsymbol, hlt, hle, hbehind⟩ := hvalue
  have hy := hread.past
  obtain ⟨_, hstart, hmarks⟩ := hread.lies.start_le hread.spanned
  cases hkey with
  | number helse =>
    exact .property_of_neverSets hcovers hpast helse.neverSets
      (by simp [isString]) hmarks (by omega)
      (by omega) hle hbehind (by cases isMethod <;> rfl)
  | computed helse hkeystart =>
    exact .property_of_neverSets hcovers hpast helse.neverSets
      (fun _ => hkeystart) hmarks (by omega)
      (by omega) hle hbehind (by cases isMethod <;> rfl)
  | @name name hlt' hspelled =>
    refine .of_covers (y := x) (z := w) ?_ rfl trivial (by omega)
    have hend : CodePoint.IsKeyEnd (if isMethod then .scalar '(' else .scalar ':') := by
      cases isMethod
      exacts [.inl rfl, .inr (.inl rfl)]
    have hsuits : Mark.Suits ⟨⟨x.next, value.entry isMethod⟩,
        .head (Node.property ⟨x.next, w.done⟩ .value false isMethod false
          (Node.identifier ⟨x.next, y.done⟩ name) value).setsPrototype, none⟩ t := by
      refine ⟨by show x.next < value.entry isMethod; omega, nofun, nofun, nofun, fun u => ?_⟩
      rw [Text.setsPrototype_slice_of_key hspelled hlt' hgap hy.2 hsymbol hend hlt]
      cases isMethod with
      | false => exact Bool.and_true _
      | true => exact Bool.and_false _
    have hwithin : Span.Within x.next w.done ⟨x.next, value.entry isMethod⟩ :=
      ⟨Nat.le_refl _, by show x.next ≤ value.entry isMethod; omega, hle⟩
    exact (hcovers.sublist (List.sublist_append_right _ _)).insert (a := [])
      hpast hwithin rfl rfl hsuits
      nofun hbehind
  | @string v hlt' =>
    refine .of_covers (y := x) (z := w) ?_ rfl trivial (by omega)
    have hend : CodePoint.IsKeyEnd (if isMethod then .scalar '(' else .scalar ':') := by
      cases isMethod
      exacts [.inl rfl, .inr (.inl rfl)]
    have hsuits : Mark.Suits ⟨⟨y.done, value.entry isMethod⟩,
        .colon (PropertyKind.value = .value && !isMethod), none⟩ t := by
      refine ⟨by show y.done < value.entry isMethod; omega, nofun, nofun, nofun,
        fun u p braces hp => ?_⟩
      rw [hgap.isAtColon hy.2 (by omega) hsymbol hend hlt u hp]
      cases isMethod <;> simp
    have hwithin : Span.Within x.next w.done ⟨y.done, value.entry isMethod⟩ :=
      ⟨hy.1, by show y.done ≤ value.entry isMethod; omega, hle⟩
    rw [marks_keyed, keyedMarks, if_neg (by simp [start, span?])]
    simp only [isString, if_true]
    exact hcovers.insert hpast hwithin rfl rfl hsuits (List.forall_mem_singleton.2 (Nat.le_refl _))
      hbehind

end

/-- Trees lie on the way from one spot to a later one, and each of them has a span. -/
structure AllWhole (t : Text) (x y : Spot) (ns : List Node) : Prop where
  covers : Covers t x y (marksOfAll ns)
  spanned : ∀ n ∈ ns, n.span?.isSome

namespace AllWhole

variable {ns : List Node}

theorem nil (h : x.Later y) : AllWhole t x y [] := ⟨.nil h, by simp⟩

theorem mono (h : AllWhole t y z ns) (hout : x.Later y ∧ z.Later w) : AllWhole t x w ns :=
  ⟨h.covers.mono hout, h.spanned⟩

theorem single (hn : n.Whole t x y) : AllWhole t x y [n] := by
  refine ⟨?_, List.forall_mem_singleton.2 hn.spanned⟩
  rw [marksOfAll_cons, marksOfAll_nil, List.append_nil]
  exact hn.covers

theorem snoc (hns : Closed t x y (marksOfAll ns.reverse))
    (hspanned : ∀ n ∈ ns.reverse, n.span?.isSome) (hn : n.Whole t z w) (hyz : y.Later z) :
    AllWhole t x w (n :: ns).reverse := by
  refine ⟨hns.snoc hn.covers hyz, ?_⟩
  rw [List.reverse_cons]
  exact List.forall_mem_append.2 ⟨hspanned, List.forall_mem_singleton.2 hn.spanned⟩

theorem map_asPattern (h : AllWhole t x y ns) : AllWhole t x y (ns.map asPattern) :=
  ⟨h.covers.sublist (sublist_marksOfAll_map_asPattern ns), by simpa using h.spanned⟩

end AllWhole
end Node

/-! ## Keys and patterns -/

namespace Parse

/-- How to parse what lies deeper is lawful if the trees lie where they were read.  Assignments have
a span, and what follows a statement does not begin with a parenthesis where it ends. -/
structure Deeper.Lawful (t : Text) (d : Deeper) : Prop where
  read : ∀ g x, Gives t x (d.parse g) fun n y => n.Read t x y
  whole : ∀ x, Gives t x (d.parse .assignment) fun n y => n.Whole t x y
  item : ∀ x, Gives t x (d.parse .item) fun n y => n.Sealed t x y
  statement : ∀ x, Gives t x (d.parse .statement) fun n y => n.Sealed t x y

variable {t : Text} {x : Spot} {d : Deeper}

theorem Gives.read {p : Parse Node} (h : Gives t x p fun n y => n.Whole t x y) :
    Gives t x p fun n y => n.Read t x y := h.mono fun _ _ _ hn => hn.toRead

/-- Trees that are collected lie one behind the other, if none of them ends where a parenthesis
stands. -/
theorem Gives.collectNodes {step : Parse (Option Node)} {n : Nat}
    (hstep : ∀ y, Gives t y step fun r z => ∀ a ∈ r, Closed t y z a.marks) :
    Gives t x (Parse.collect step n) fun as y => Closed t x y (Node.marksOfAll as) :=
  .collect (I := fun x y as => Closed t x y (Node.marksOfAll as)) fun y =>
    (hstep y).mono fun _ _ hz hr =>
      ⟨fun _ => .nil hz, fun a ha _ _ has => (hr a ha).append_closed has (.refl _)⟩

/-- Trees that are collected lie one behind the other, if there is a token in front of each. -/
theorem Gives.collectFollowing {step : Parse (Option Node)} {n : Nat} {P : Node → Prop}
    (hstep : ∀ y, Gives t y step fun r z =>
      (r = none → z = y) ∧ ∀ a ∈ r, Follows t y z a.marks ∧ P a) :
    Gives t x (Parse.collect step n) fun as y =>
      Follows t x y (Node.marksOfAll as) ∧ ∀ a ∈ as, P a :=
  .collect (I := fun x y as => Follows t x y (Node.marksOfAll as) ∧ ∀ a ∈ as, P a) fun y =>
    (hstep y).mono fun _ _ _ ⟨hnone, hr⟩ =>
      ⟨fun heq => ⟨.inl ⟨rfl, hnone heq⟩, nofun⟩, fun a ha _ _ ⟨has, hall⟩ =>
        ⟨(hr a ha).1.append has, List.forall_mem_cons.2 ⟨(hr a ha).2, hall⟩⟩⟩

/-- A name that covers a token of the text suits it. -/
theorem suits_name {kind : TokenKind} {s : Span} (h : kind.Occupies t s)
    (hinside : s.start < t.length) : Mark.Suits ⟨s, .name, none⟩ t :=
  ⟨h.nonempty hinside, fun _ => h.named, nofun, nofun, trivial⟩

/-- A string that covers a token of the text suits it, if it is read there. -/
theorem suits_string {value spelling : Text} {octal : Bool} {s : Span}
    (h : (TokenKind.string value spelling octal).Occupies t s) :
    Mark.Suits ⟨s, .string (some ⟨value, none⟩), none⟩ t := by
  refine ⟨h.nonempty (h.inside nofun), nofun, nofun, ?_, trivial⟩
  rintro _ ⟨⟩
  exact ⟨spelling, h.string _ _ _ rfl, nofun⟩

/-- A name goes as far as it can. -/
theorem identifierName_ends : Gives t x identifierName fun n y =>
    n.Whole t x y ∧ x.next < y.done ∧ t.NoName y.done := by
  refine .here <| advance_gives.bind fun a y _ ⟨hy, _, ha⟩ => .check .refuse fun hword => ?_
  have hkind : a.kind.IsWord := Token.isWord_kind (by simpa using hword)
  have hinside := ha.inside hkind.ne_endOfText
  refine .spanFrom <| .pure ⟨.identifier _ hy.1 (suits_name ha hinside), ?_⟩
  exact ⟨ha.nonempty hinside, (ha.named (ha.word.1 hkind)).behind⟩

theorem identifierName_gives : Gives t x identifierName fun n y => n.Whole t x y :=
  identifierName_ends.mono fun _ _ _ h => h.1

/-- A key that is read where a property begins. -/
theorem propertyKey_givesFrom (hd : d.Lawful t) {s : State} (hs : s.Sound t) :
    GivesFrom t s (propertyKey d) fun key y => key.Whole t s.spot y ∧
      Node.KeyAt t s.spot y (s.token.kind = .punctuator .leftBracket) key := by
  refine .here <| (advance_givesFrom hs).bind ?_
  rintro a y - ⟨rfl, hy, hdone⟩
  have ha : s.token.kind.Occupies t ⟨s.spot.next, y.done⟩ := hdone ▸ hs.occupies
  refine .get fun _ _ _ => ?_
  split
  next hkind =>
    have hsuits := suits_string (hkind ▸ ha)
    refine .guard .refuseFor <| .spanFrom <| .pure ⟨.of_single hy hsuits rfl rfl trivial, ?_⟩
    rw [decide_eq_false (by simp [hkind])]
    exact .string hsuits.nonempty
  next hkind =>
    refine .guard .refuseFor <| .spanFrom <|
      .pure ⟨.of_covers (.nil (.refl y)) rfl trivial (by omega), ?_⟩
    rw [decide_eq_false (by simp [hkind])]
    exact .number (ha.startsElse (by simp [hkind]) (by simp [hkind, TokenKind.IsWord])
      (by simp [hkind]))
  next hkind =>
    have helse :=
      ha.startsElse (by simp [hkind]) (by simp [hkind, TokenKind.IsWord]) (by simp [hkind])
    refine (hd.whole y).isolate.bind fun key z _ hkey => ?_
    refine (expect_gives _).bind fun _ w _ hw =>
      .pure ⟨⟨hkey.toRead.behind (by omega) helse.string, ?_⟩, ?_⟩
    · exact hkey.spanned
    · rw [decide_eq_true hkind]
      have hlt : s.spot.next < y.done := ha.nonempty helse.inside
      have hstart := (hkey.lies.start_le hkey.spanned).1
      exact .computed helse (by omega)
  · next hbracket =>
    refine .dite (fun hword => .spanFrom <| .pure ?_) fun _ => .refuse
    have hword := Token.isWord_kind hword
    have hinside := ha.inside hword.ne_endOfText
    refine ⟨.identifier _ hy (suits_name ha hinside), ?_⟩
    rw [decide_eq_false hbracket]
    exact .name (ha.nonempty hinside) (ha.spelled _ hword.word?_eq)

/-- A piece of a template is no key. -/
theorem propertyKey_template {s : State} (hs : s.Sound t) {raw cooked : Text} {isHead isTail : Bool}
    (hkind : s.token.kind = .template raw cooked isHead isTail) :
    GivesFrom t s (propertyKey d) fun _ _ => False := by
  refine .here <| (advance_givesFrom hs).bind ?_
  rintro a y - ⟨rfl, -, -⟩
  refine .get fun _ _ _ => ?_
  simp only [hkind]
  refine .dite (fun hword => ?_) fun _ => .refuse
  have hword := Token.isWord_kind hword
  rw [hkind] at hword
  exact hword.elim

theorem propertyKey_gives (hd : d.Lawful t) :
    Gives t x (propertyKey d) fun n y => n.Whole t x y := by
  rintro s hs rfl
  exact (propertyKey_givesFrom hd hs).mono fun _ _ h => h.1

/-- A key that is read together with whether it is in brackets. -/
theorem Gives.keyed (hd : d.Lawful t) {β : Type} {f : Bool → Node → Parse β}
    {R : β → Spot → Prop} (hf : ∀ computed key y, x.Past y → key.Whole t x y →
      Node.KeyAt t x y computed key → Gives t y (f computed key) R) :
    Gives t x (do f (← Parse.isAt .leftBracket) (← propertyKey d)) R := by
  rintro s hs rfl
  exact GivesFrom.isAt <| (propertyKey_givesFrom hd hs).bind fun key y _ ⟨hwhole, hkey⟩ =>
    hf _ key y hwhole.past hwhole hkey

theorem bindingIdentifier_suits (kind : Option VariableKind) :
    Gives t x (bindingIdentifier kind) fun n y =>
      n.Whole t x y ∧ Mark.Suits ⟨⟨x.next, y.done⟩, .name, none⟩ t ∧
        (kind = none → Node.KeyAt t x y false n) := by
  refine .here <| advance_gives.bind fun a y _ ⟨hy, _, ha⟩ => .get fun _ _ _ => ?_
  have hname (hkind : a.kind ≠ .endOfText) (hword : kind = none → a.kind.IsWord) :
      Gives t y (do return Node.identifier (← spanFrom x.next) a.text) fun n (y : Spot) =>
        n.Whole t x y ∧ Mark.Suits ⟨⟨x.next, y.done⟩, .name, none⟩ t ∧
          (kind = none → Node.KeyAt t x y false n) :=
    have hsuits := suits_name ha (ha.inside hkind)
    .spanFrom <| .pure ⟨.identifier _ hy.1 hsuits, hsuits, fun hnone =>
      .name hsuits.nonempty (ha.spelled _ (hword hnone).word?_eq)⟩
  have hword (hkind : a.kind.IsWord) := hname hkind.ne_endOfText fun _ => hkind
  dsimp only
  split
  next hkind =>
    exact .guard .refuseFor <| .guard .refuse <| hword (by simp [hkind, TokenKind.IsWord])
  next hkind => exact .guard .refuse <| hword (by simp [hkind, TokenKind.IsWord])
  next hkind =>
    exact .guard .refuseFor <| .guard .refuse <| hword (by simp [hkind, TokenKind.IsWord])
  · refine .check .refuse fun hlet => hname (fun hkind => hlet ?_) fun hnone => (hlet ?_).elim
    · have htext : a.text ≠ Keyword.let_.text := by
        rw [Token.text, hkind]
        decide
      simp [htext]
    · simp [hnone]

theorem bindingIdentifier_gives (kind : Option VariableKind) :
    Gives t x (bindingIdentifier kind) fun n y => n.Whole t x y :=
  (bindingIdentifier_suits kind).mono fun _ _ _ h => h.1

/-- A parser of patterns is lawful if these lie where they were read and have a span. -/
def LawfulPattern (t : Text) (p : Parse Bound) : Prop :=
  ∀ x, Gives t x p fun b y => b.1.Whole t x y

theorem withDefault_gives (hd : d.Lawful t) {pattern : Parse Bound}
    (hpattern : LawfulPattern t pattern) :
    Gives t x (withDefault d pattern) fun b y => b.1.Whole t x y := by
  refine .here <| (hpattern x).bind fun ⟨left, names⟩ y _ hleft => ?_
  have hy := hleft.past
  refine .choice (accept_gives _) (fun z hz => ?_) (.pure hleft)
  refine .get fun _ _ _ => .modifyContext <| (hd.whole z).isolate.bind fun right w _ hright => ?_
  have hw := hright.past
  have hcovers := hleft.covers.append (hright.covers.follows hz)
  exact .modifyContext <| .spanFrom <| .pure <| .of_covers hcovers rfl trivial (by omega)

theorem arrayPatternElements_gives (hd : d.Lawful t) {pattern : Parse Bound}
    (hpattern : LawfulPattern t pattern) :
    Gives t x (arrayPatternElements d pattern) fun r y => Covers t x y (Node.marksOfAll r.1) := by
  refine .iterate (I := fun r y => Closed t x y (Node.marksOfAll r.1.reverse)) ?_ (.nil (by omega))
  intro ⟨nodes, names⟩ y hnodes
  refine .isAt fun _ => .ite (.pure hnodes.toCovers) ?_
  refine .choice (accept_gives _) (fun z hz => .pure ?_) ?_
  · exact (hnodes.snoc (z := y) (n := .hole) (.nil (.refl y)) (.refl y)).closed hz
  refine .isAt fun _ => .ite ?_ ?_
  · refine .here <| (expect_gives _).bind fun _ w _ hw => ?_
    refine (hpattern w).bind fun ⟨argument, more⟩ v _ hargument => .spanFrom <| .pure ?_
    have hv := hargument.past
    exact hnodes.snoc (n := .rest _ _) hargument.covers (by omega)
  · refine (withDefault_gives hd hpattern).bind fun ⟨element, more⟩ w _ helement => ?_
    have hw := helement.past
    have hnext : Covers t x w (Node.marksOfAll (element :: nodes).reverse) :=
      hnodes.snoc helement.covers (.refl y)
    refine .isAtOr nofun (fun hclose => .pure (hnext.closed_of_ne hclose)) ?_
    exact (expect_gives _).bind fun _ v _ hv => .pure (hnext.closed hv)

theorem propertyPattern_gives (hd : d.Lawful t) {pattern : Parse Bound}
    (hpattern : LawfulPattern t pattern) :
    Gives t x (propertyPattern d pattern) fun b y => b.1.Whole t x y := by
  refine .here <| .token fun a ha => ?_
  split
  next name _ =>
    refine (bindingIdentifier_suits none).bind fun key y _ ⟨hkey, hsuits, hkeyAt⟩ => .spanFrom ?_
    have hy := hkey.past
    have htarget : (Node.identifier ⟨x.next, y.done⟩ name).Whole t x y := .identifier name hy hsuits
    refine .choice (accept_gives _) (fun z hz => ?_) ?_
    · refine (hd.whole z).bind fun init w _ hinit => .spanFrom <| .spanFrom <| .pure ?_
      have hw := hinit.past
      rw [ha]
      exact .of_covers (htarget.covers.append (hinit.covers.follows hz)) rfl trivial (by omega)
    · refine .gap fun hgap =>
        .choice (accept_symbol .colon ':' rfl nofun) (fun w ⟨hw, hcolon⟩ => ?_) <|
        .spanFrom <| .pure ?_
      · refine (withDefault_gives hd hpattern).bind fun ⟨value, names⟩ v _ hvalue => ?_
        have hv := hvalue.past
        have hcovers := hkey.covers.append (hvalue.covers.follows hw)
        exact .spanFrom <| .pure <| .property (hkeyAt rfl) hkey hgap
          (hvalue.valueAt hcolon.1 (by omega)) hcovers (by omega)
      · exact .of_covers htarget.covers rfl trivial (by omega)
  next =>
    refine .keyed hd fun computed key y hy hkey hkeyAt => .gap fun hgap => ?_
    refine (expect_symbol .colon ':' rfl nofun).bind fun _ z _ ⟨hz, hcolon⟩ => ?_
    refine (withDefault_gives hd hpattern).bind fun ⟨value, names⟩ v _ hvalue => ?_
    have hv := hvalue.past
    have hcovers := hkey.covers.append (hvalue.covers.follows hz)
    exact .spanFrom <| .pure <|
      .property hkeyAt hkey hgap (hvalue.valueAt hcolon.1 (by omega)) hcovers
      (by omega)

theorem restProperty_gives {pattern : Parse Bound} (hpattern : LawfulPattern t pattern) :
    Gives t x (restProperty pattern) fun b y => b.1.Whole t x y := by
  refine .here <| (expect_gives _).bind fun _ y _ hy => ?_
  refine (hpattern y).bind fun ⟨argument, names⟩ z _ hargument => ?_
  have hz := hargument.past
  refine .isAt fun _ => .guard .refuseHere <| .isAt fun _ => .ite ?_ <|
    .absurd .refuseHere
  exact .spanFrom <| .pure <| .of_covers hargument.covers rfl trivial (by omega)

theorem objectPatternProperties_gives (hd : d.Lawful t) {pattern restPattern : Parse Bound}
    (hpattern : LawfulPattern t pattern) (hrest : LawfulPattern t restPattern) :
    Gives t x (objectPatternProperties d pattern restPattern) fun r y =>
      Covers t x y (Node.marksOfAll r.1) := by
  refine .iterate (I := fun r y => Closed t x y (Node.marksOfAll r.1.reverse)) ?_ (.nil (by omega))
  intro ⟨nodes, names⟩ y hnodes
  refine .isAt fun _ => .ite (.pure hnodes.toCovers) <| .isAt fun _ =>
    .ite ((restProperty_gives hrest).bind ?next) ((propertyPattern_gives hd hpattern).bind ?next)
  intro ⟨property, more⟩ z _ hproperty
  have hnext : Covers t x z (Node.marksOfAll (property :: nodes).reverse) :=
    hnodes.snoc hproperty.covers (.refl y)
  refine .isAtOr nofun (fun hclose => .pure (hnext.closed_of_ne hclose)) ?_
  exact (expect_gives _).bind fun _ w _ hw => .pure (hnext.closed hw)

theorem pattern_lawful (hd : d.Lawful t) :
    ∀ (depth : Nat) (kind : Option VariableKind), LawfulPattern t (pattern d depth kind)
  | 0, _, _ => .refuseHere
  | depth + 1, kind, x => by
    refine .here <| .choice (accept_gives _) (fun y hy => ?_) <|
      .choice (accept_gives _) (fun z hz => ?_) ?_
    · refine (arrayPatternElements_gives hd (pattern_lawful hd depth kind)).bind ?_
      intro ⟨elements, names⟩ z hz helements
      refine (expect_gives _).bind fun _ w _ hw => .spanFrom <| .pure ?_
      exact .of_covers helements rfl trivial (by omega)
    · refine (objectPatternProperties_gives hd (pattern_lawful hd depth kind)
        (pattern_lawful hd depth none)).bind ?_
      intro ⟨properties, names⟩ w hw hproperties
      refine (expect_gives _).bind fun _ v _ hv => .spanFrom <| .pure ?_
      exact .of_covers hproperties rfl trivial (by omega)
    · refine .token fun a _ => .guard .refuseFor ?_
      exact (bindingIdentifier_gives kind).bind fun n w _ hn => .pure hn

theorem bindingPattern_gives (hd : d.Lawful t) (kind : Option VariableKind) :
    Gives t x (bindingPattern d kind) fun b y => b.1.Whole t x y := pattern_lawful hd d.bound kind x

theorem restParameter_gives (hd : d.Lawful t) :
    Gives t x (restParameter d) fun b y => b.1.Whole t x y := by
  refine .here <| (expect_gives _).bind fun _ y _ hy => ?_
  refine (bindingPattern_gives hd none).bind fun ⟨argument, names⟩ z _ hargument => ?_
  have hz := hargument.past
  refine .isAt fun _ => .guard .refuseHere <| .isAt fun _ => .ite ?_ <|
    .absurd .refuseHere
  exact .spanFrom <| .pure <| .of_covers hargument.covers rfl trivial (by omega)

end Parse
end Elementwise
