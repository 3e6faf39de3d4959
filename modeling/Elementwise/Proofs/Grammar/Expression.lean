import Elementwise.Grammar.Expression
import Elementwise.Proofs.Grammar.Class

/-!
# The layout of expressions

The contracts of the parsers of expressions.  A tree without a span can only come from parentheses
that turned out to hold parameters; what is read as an assignment always has one.
-/

set_option autoImplicit false
namespace Elementwise

namespace Node

/-- The span of a function or of a call without arguments. -/
def enclosable? : Node → Option Span
  | function s .. | arrow s .. | call s _ [] => some s
  | _ => none

/-- A tree is neither a function nor a call without arguments, and not `this`. -/
def IsPlain (n : Node) : Prop := n.enclosable? = none ∧ ∀ s, n ≠ this s

/-- A tree that has been read, and if it is `this`, in parentheses or not, so as to begin with a
word or with a parenthesis. -/
structure Heads (t : Text) (x y : Parse.Spot) (n : Node) : Prop extends n.Read t x y where
  owner : ∀ s, n = this s → t.StartsOwner x.next

end Node

namespace Parse

variable {t : Text} {x y z w : Spot} {d : Deeper}

/-! ## Plain expressions -/

/-- A parser gives plain trees only. -/
abbrev Plain (p : Parse Node) : Prop := Returns p Node.IsPlain

/-- What is plain is not `this`. -/
theorem Plain.heads {p : Parse Node} (hplain : Plain p)
    (h : Gives t x p fun n y => n.Whole t x y) : Gives t x p fun n y => n.Heads t x y :=
  (h.and (hplain.gives h)).mono fun _ _ _ ⟨hn, hne⟩ => ⟨hn.toRead, fun s hs => (hne.2 s hs).elim⟩

theorem identifierName_plain : Plain identifierName :=
  .bind fun _ => .bind fun _ => .ite (.bind fun _ => .bind fun _ => .pure ⟨rfl, nofun⟩) <|
    .bind fun _ => .pure ⟨rfl, nofun⟩

theorem literal_plain (value : Literal) : Plain (literal value) :=
  .bind fun _ => .bind fun _ => .bind fun _ => .bind fun _ => .pure ⟨rfl, nofun⟩

theorem regex_plain : Plain regex := by
  refine .bind fun _ => .bind fun _ => ?_
  dsimp only
  split
  · exact .throw
  · exact .bind fun _ => .bind fun _ => .bind fun _ => .pure ⟨rfl, nofun⟩

theorem template_plain (d : Deeper) : Plain (template d) :=
  .bind fun _ => .bind fun _ =>
    .ite (.bind fun _ => .bind fun _ => .bind fun _ => .pure ⟨rfl, nofun⟩) <|
    .bind fun _ => .bind fun _ => .bind fun _ => .bind fun _ => .pure ⟨rfl, nofun⟩

theorem arrayLiteral_plain (d : Deeper) : Plain (arrayLiteral d) :=
  .bind fun _ => .bind fun _ => .bind fun _ => .bind fun _ => .bind fun _ => .pure ⟨rfl, nofun⟩

theorem objectLiteral_plain (d : Deeper) : Plain (objectLiteral d) :=
  .bind fun _ => .bind fun _ => .bind fun _ => .bind fun _ => .bind fun _ => .pure ⟨rfl, nofun⟩

theorem classExpression_plain (d : Deeper) : Plain (classExpression d) :=
  .bind fun _ => .bind fun _ => .bind fun _ => .bind fun _ => .bind fun _ => .bind fun _ =>
    .ite (.bind fun _ => .bind fun _ => .bind fun _ => .bind fun _ => .bind fun _ =>
      .pure ⟨rfl, nofun⟩) <|
      .bind fun _ => .bind fun _ => .bind fun _ => .bind fun _ => .pure ⟨rfl, nofun⟩

theorem newExpression_plain (d : Deeper) : Plain (newExpression d) := by
  refine .bind fun _ => .bind fun _ => .bind fun _ => .ite ?_ ?_
  · exact .bind fun _ =>
      .ite (.bind fun _ => .bind fun _ => .pure ⟨rfl, nofun⟩) (.bind fun _ => .refuse)
  · refine .bind fun _ => .ite (.bind fun _ => .refuse) ?_
    refine .bind fun _ => .bind fun _ => .ite ?_ ?_
    · exact .bind fun _ => .bind fun _ => .bind fun _ => .pure ⟨rfl, nofun⟩
    · exact .bind fun _ => .bind fun _ => .bind fun _ => .pure ⟨rfl, nofun⟩

/-! ## Templates -/

theorem isAtTemplate_gives : Gives t x isAtTemplate fun b y =>
    y = x ∧ (b = true → t[x.next]? ≠ some (.scalar '(')) := by
  refine .fromToken fun s hs hx => ?_
  subst hx
  split
  · next hkind =>
    refine Gives.pure ⟨rfl, fun _ hc => ?_⟩ s hs rfl
    have := hs.kind_of_leftParen hc
    simp [hkind] at this
  · exact Gives.pure ⟨rfl, nofun⟩ s hs rfl

theorem templateElement_gives :
    Gives t x templateElement fun r y => x.Consumes t y ∧ r.1.marks = [] := by
  refine .here <| .token fun _ _ => ?_
  split
  · exact advance_gives.bind fun _ y _ ⟨hy, _⟩ => .spanFrom <| .pure ⟨hy, rfl⟩
  · exact .refuseHere

theorem template_gives (hd : d.Lawful t) :
    Gives t x (template d) fun n y => n.Whole t x y := by
  refine .here <| isAtTemplate_gives.bind fun _ y _ ⟨hy, _⟩ => .ite ?_ (.absurd .throw)
  subst hy
  refine templateElement_gives.bind fun ⟨first, tail⟩ z _ ⟨hz, hfirst⟩ => ?_
  -- the pieces have no marks
  refine (Gives.iterate (I := fun r w => Node.marksOfAll r.1.reverse = [] ∧
      Closed t z w (Node.marksOfAll r.2.1.reverse))
    (R := fun r w => Node.marksOfAll r.1 = [] ∧ Closed t z w (Node.marksOfAll r.2)) ?_ ?_).bind ?_
  · intro ⟨quasis, expressions, tail⟩ w ⟨hquasis, hexpressions⟩
    refine .ite (.pure ⟨hquasis, hexpressions⟩) <| (expression_gives hd).bind fun e v _ he => ?_
    refine templateElement_gives.bind fun ⟨quasi, tail⟩ u _ ⟨hu, hquasi⟩ => .pure ⟨?_, ?_⟩
    · simp [hquasis, hquasi]
    · exact (hexpressions.snoc he.covers (.refl w)).closed hu
  · exact ⟨by simp [hfirst], .nil (by omega)⟩
  · intro ⟨quasis, expressions⟩ w _ ⟨hquasis, hexpressions⟩
    have hw := hexpressions.later
    have hcovers : Covers t z w (Node.marksOfAll quasis ++ Node.marksOfAll expressions) := by
      rw [hquasis]
      exact hexpressions.toCovers
    exact .spanFrom <| .pure <| .of_covers hcovers rfl trivial (by omega)

/-! ## Arrays and objects -/

theorem spreadElement_gives (hd : d.Lawful t) :
    Gives t x (spreadElement d) fun n y => n.Whole t x y := by
  refine .here <| (expect_gives _).bind fun _ y _ hy => ?_
  refine (hd.whole y).inherit.bind fun argument z _ hargument => .spanFrom <| .pure ?_
  have hz := hargument.past
  exact .of_covers hargument.covers rfl trivial (by omega)

/-- What is spread is no shorthand property. -/
theorem spreadElement_returns (d : Deeper) :
    Returns (spreadElement d) fun n => ∀ next, n.tailMarks next = [] :=
  .bind fun _ => .bind fun _ => .bind fun _ => .bind fun _ => .pure fun _ => rfl

theorem arrayLiteral_gives (hd : d.Lawful t) :
    Gives t x (arrayLiteral d) fun n y => n.Whole t x y := by
  refine .here <| (expect_gives _).bind fun _ y _ hy => ?_
  refine (Gives.collectNodes fun z => ?_).bind fun elements z hz helements => ?_
  · refine .isAt fun _ => .ite (.pure (by simp)) <|
      .choice (accept_gives _) (fun w hw => .pure ?_) ?_
    · rintro _ ⟨⟩
      exact .nil (.inr hw.1)
    refine .isAt fun _ => .ite ?_ ?_
    · refine (spreadElement_gives hd).bind fun e v _ he => ?_
      refine .isAtOr nofun (fun hclose => .pure ?_) ?_
      · rintro _ ⟨⟩
        exact he.covers.closed_of_ne hclose
      · refine .markValue <| (expect_gives _).bind fun _ u _ hu => .pure ?_
        rintro _ ⟨⟩
        exact he.covers.closed hu
    · refine (hd.whole z).inherit.bind fun e v _ he => ?_
      refine .isAtOr nofun (fun hclose => .pure ?_) ?_
      · rintro _ ⟨⟩
        exact he.covers.closed_of_ne hclose
      · refine (expect_gives _).bind fun _ u _ hu => .pure ?_
        rintro _ ⟨⟩
        exact he.covers.closed hu
  · refine (expect_gives _).bind fun _ w _ hw => .spanFrom <| .pure ?_
    exact .of_covers helements.toCovers rfl trivial (by omega)

theorem propertyValue_gives (hd : d.Lawful t) (key : Node) (computed isAsync hasProto : Bool) :
    Gives t x (propertyValue d key computed isAsync hasProto) fun r y =>
      (∀ v ∈ r.1, Follows t x y v.1.marks ∧ x.Past y ∧ Node.ValueAt t x.next y.done v.2 v.1 ∧
        (isAsync = true → v.2 = true)) ∧ (r.1 = none → y = x) := by
  refine .tokenSymbol fun next hsymbol => .dite (fun hcond => ?_) fun _ =>
    .ite (.ite ?_ ?_) (.pure (by simp))
  · simp only [Bool.and_eq_true, decide_eq_true_eq, Bool.not_eq_true'] at hcond
    have hcolon : t[x.next]? = some ':' := hsymbol .colon ':' hcond.1 rfl nofun
    refine .guard .refuseLine <| advance_gives.bind fun _ y _ ⟨hy, _, hoccupies⟩ => ?_
    have hlt : x.next < y.done := hoccupies.nonempty (List.getElem?_eq_some_iff.1 hcolon).1
    refine (hd.whole y).inherit.bind fun value z _ hvalue => .pure ⟨?_, nofun⟩
    have hz := hvalue.past
    rintro _ ⟨⟩
    exact ⟨hvalue.covers.follows hy, by omega, hvalue.valueAt hcolon (by omega), by simp [hcond.2]⟩
  · refine (method_gives hd _ fun _ _ => .pure rfl).bind fun value y _ hvalue => .pure ⟨?_, nofun⟩
    rintro _ ⟨⟩
    exact ⟨hvalue.enclosed.follows, hvalue.whole.past, hvalue.valueAt, fun _ => rfl⟩
  · refine (plainMethod_gives hd).bind fun value y _ hvalue => .pure ⟨?_, nofun⟩
    rintro _ ⟨⟩
    exact ⟨hvalue.enclosed.follows, hvalue.whole.past, hvalue.valueAt, fun _ => rfl⟩

/-- A property that begins with something that cannot set the prototype, and has a key and a method
behind it. -/
theorem keyed_whole {kind : PropertyKind} {computed isMethod : Bool} {key value : Node}
    (hxy : x.Past y) (hfront : ∃ k ≤ y.next, t.NeverSets x.next k) (hkey : key.Whole t y z)
    (hvalue : IsMethod t z w value) (hkind : kind ≠ .value ∨ isMethod = true) :
    (Node.property ⟨x.next, w.done⟩ kind computed isMethod false key value).Whole t x w := by
  obtain ⟨k, hk, hnever⟩ := hfront
  obtain ⟨h₁, h₂, hmarks⟩ := hkey.lies.start_le hkey.spanned
  obtain ⟨h₃, hstop, hbehind⟩ := hvalue.entry isMethod
  have hz := hkey.past
  have hw := hvalue.whole.past
  have hcovers := (hkey.covers.append_enclosed hvalue.enclosed).toCovers
  exact .property_of_neverSets (hcovers.mono (by omega)) (by omega) hnever
    (fun _ => by omega) hmarks
    (by omega) (by omega) hstop hbehind (Node.setsPrototype_eq_false hkind _ _ _ _ _)

/-- A key with which a property begins, or one behind the word `async`.  What follows a name may be
a bracket, and then it is no key. -/
def KeyFrom (t : Text) (x y : Spot) (computed isAsync : Bool) (key : Node) : Prop :=
  if isAsync then ∃ z, x.Past z ∧ (∃ k ≤ z.next, t.NeverSets x.next k) ∧ key.Whole t z y
  else key.Whole t x y ∧ (Node.KeyAt t x y computed key ∨ computed = true ∧ t[y.next]? = some '[')

theorem KeyFrom.covers {computed isAsync : Bool} {key : Node}
    (h : KeyFrom t x y computed isAsync key) :
    Covers t x y key.marks := by
  cases isAsync with
  | false => exact h.1.covers
  | true =>
    obtain ⟨z, hz, -, hkey⟩ := h
    exact hkey.covers.mono (by omega)

/-- A property with a key and a value behind it. -/
theorem KeyFrom.whole {computed isAsync isMethod : Bool} {key value : Node}
    (hkey : KeyFrom t x y computed isAsync key) (hgap : t.Gap y.done y.next)
    (hfollows : Follows t y w value.marks) (hvalue : Node.ValueAt t y.next w.done isMethod value)
    (hasync : isAsync = true → isMethod = true) (hpast : y.Past w) :
    (Node.property ⟨x.next, w.done⟩ .value computed isMethod false key value).Whole t x w := by
  have hcovers := hkey.covers.append hfollows
  cases isAsync with
  | false =>
    obtain ⟨hwhole, hkey | ⟨-, hbracket⟩⟩ := hkey
    · have hy := hwhole.past
      exact .property hkey hwhole hgap hvalue hcovers (by omega)
    · have hsymbol := hvalue.symbol
      rw [hbracket] at hsymbol
      cases isMethod <;> cases hsymbol
  | true =>
    obtain ⟨z, hz, ⟨k, hk, hnever⟩, hwhole⟩ := hkey
    obtain ⟨h₁, h₂, hmarks⟩ := hwhole.lies.start_le hwhole.spanned
    have hy := hwhole.past
    have hlt := hvalue.lt
    exact .property_of_neverSets hcovers (by omega) hnever (fun _ => by omega) hmarks
      (by omega) (by omega)
      hvalue.le hvalue.behind (Node.setsPrototype_eq_false (.inr (hasync rfl)) _ _ _ _ _)

/-- A shorthand property: its value stands for the key as well, and if the key is in brackets it
lies in the name that is the value, or starts it. -/
theorem shorthand_whole {isMethod computed : Bool} {kind : PropertyKind} {key value : Node}
    (hkey : Covers t x y key.marks) (hvalue : Covers t x z value.marks)
    (hcovers : ∀ n ∈ value.marks, t.Clears y.done n.span.start ∨ n.span = ⟨x.next, y.done⟩)
    (hpast : x.Past y) (hyz : y.Later z) :
    (Node.property ⟨x.next, z.done⟩ kind computed isMethod true key value).Whole t x z := by
  cases computed with
  | false => exact .of_covers hvalue rfl trivial (by omega)
  | true =>
    refine .of_covers ((hkey.mono (by omega)).inZone hvalue fun m hm n hn => ?_)
      rfl trivial (by omega)
    obtain ⟨h₁, h₂, h₃⟩ := hkey.fits.within m hm
    rcases hcovers n hn with hclear | heq
    · exact .inl (hclear.mono h₃ (Nat.le_refl _))
    · rw [heq]
      exact .inr ⟨h₁, h₂, h₃⟩

/-- What has been read is no key in front of what ends a property. -/
def Abbreviates (t : Text) (x y : Spot) : Prop :=
  ∀ c : CodePoint, c = ',' ∨ c = '}' → t[y.next]? = some c → t.NeverSets x.next (y.next + 1)

theorem Abbreviates.of_neverSets {k : Nat} (h : t.NeverSets x.next k) (hk : k ≤ y.next) :
    Abbreviates t x y := fun _ _ _ => h.mono (by omega)

theorem Abbreviates.of_name {name : Text} (h : Name.Begins name (t.drop x.next) (t.drop y.done))
    (hlt : x.next < y.done) (hgap : t.Gap y.done y.next) (hle : y.done ≤ y.next) :
    Abbreviates t x y := by
  intro c hc hsymbol
  refine ⟨by omega, fun j hj u => ?_⟩
  have hcolon : c ≠ ':' := by
    rintro rfl
    rcases hc with h | h <;> cases h
  rw [Text.setsPrototype_slice_of_key h hlt hgap hle hsymbol (.inr (.inr hc)) (by omega) u,
    decide_eq_false hcolon, Bool.and_false]

/-- Where a property ends, the name of a shorthand one is known not to be a key. -/
def Trails (t : Text) (y : Spot) (n : Node) : Prop :=
  ∀ c : CodePoint, c = ',' ∨ c = '}' → t[y.next]? = some c → ∀ next, y.next < next →
    ∀ m ∈ n.tailMarks next, m.Suits t ∧ m.span.start = y.done

theorem Trails.of_eq_nil {n : Node} (h : ∀ next, n.tailMarks next = []) : Trails t y n := by
  intro _ _ _ next _ m hm
  rw [h next] at hm
  cases hm

theorem Abbreviates.trails {kind : PropertyKind} {isMethod computed : Bool} {key : Node}
    {name : Text} (h : Abbreviates t x y) (hle : y.done ≤ y.next) :
    Trails t y (.property ⟨x.next, y.done⟩ kind computed isMethod true key
      (.identifier ⟨x.next, y.done⟩ name)) := by
  cases computed with
  | true => exact .of_eq_nil fun _ => rfl
  | false =>
    refine fun c hc hsymbol next hnext =>
      List.forall_mem_singleton.2 ⟨⟨?_, nofun, nofun, nofun, ?_⟩, rfl⟩
    · show y.done < next
      omega
    · exact (h c hc hsymbol).slice next hnext

/-- What a shorthand property stands for is a name, if what follows does not go on with one. -/
theorem objectProperty_gives (hd : d.Lawful t) (hasProto : Bool) :
    Gives t x (objectProperty d hasProto) fun r y =>
      x.Past y ∧ (t.NoName y.done → r.1.Whole t x y) ∧ Trails t y r.1 := by
  have hwhole {s : Span} {kind : PropertyKind} {computed isMethod : Bool} {key value : Node}
      {y : Spot} (h : (Node.property s kind computed isMethod false key value).Whole t x y) :
      x.Past y ∧ (t.NoName y.done →
        (Node.property s kind computed isMethod false key value).Whole t x y) ∧
        Trails t y (Node.property s kind computed isMethod false key value) :=
    ⟨h.past, fun _ => h, .of_eq_nil fun next => Node.tailMarks_keyed next _ _ _ _ _ _⟩
  refine .here fun s hs hx => .token ?_
  have hinside := hs.occupies.inside
  generalize hfirst : s.token = first at hinside ⊢
  extract_lets name? isGenerator rest
  have hname? (hname : name?.isSome) : first.kind ≠ .endOfText := by
    dsimp only [name?] at hname
    rintro heq
    simp [heq] at hname
  have hspelled (name : Text) (hname : name? = some name) : first.kind.word? = some name := by
    dsimp only [name?] at hname
    split at hname
    · next hkind =>
      rw [hkind]
      exact hname
    · cases hname
  clear_value name?
  -- a key has been read, or a word or a star in front of one
  have hrest {y : Spot} {key? : Option Node} (computed isAsync : Bool) (hy : x.Past y)
      (hfront : name?.isSome → x.next < y.done ∧ t.Parted x.next ∧ Abbreviates t x y)
      (hnever : isGenerator ∨ name? = some Word.get ∨ name? = some Word.set →
        ∃ k ≤ y.next, t.NeverSets x.next k)
      (hkey? : ∀ key ∈ key?, KeyFrom t x y computed isAsync key) :
      Gives t y (rest (key?, computed, isAsync)) fun r z =>
        x.Past z ∧ (t.NoName z.done → r.1.Whole t x z) ∧ Trails t z r.1 := by
    have hkeyed {p : Parse Node} {kind : PropertyKind} {isMethod : Bool}
        (hkind : kind ≠ .value ∨ isMethod = true) (hnever : ∃ k ≤ y.next, t.NeverSets x.next k)
        (hp : ∀ z, Gives t z p fun n w => IsMethod t z w n) :
        Gives t y (do
          let computed ← isAt .leftBracket
          let key ← propertyKey d
          let value ← p
          return (Node.property (← spanFrom x.next) kind computed isMethod false key value,
            hasProto))
          fun r z => x.Past z ∧ (t.NoName z.done → r.1.Whole t x z) ∧ Trails t z r.1 := by
      refine .isAt fun _ => (propertyKey_gives hd).bind fun key z _ hkey => ?_
      exact (hp z).bind fun value w _ hvalue => .spanFrom <| .pure <| hwhole <|
        keyed_whole hy hnever hkey hvalue hkind
    refine .token fun next _ => .dite (fun hget => ?_) fun _ => .dite (fun hset => ?_) fun _ =>
      .dite (fun hgenerator => ?_) fun _ => ?_
    · simp only [Bool.and_eq_true, decide_eq_true_eq] at hget
      exact hkeyed (.inl nofun) (hnever (.inr (.inl hget.1.1))) (p := do
        modifyContext fun c => { c with allowYield := false }
        getter d) fun z => .modifyContext (getter_gives hd)
    · simp only [Bool.and_eq_true, decide_eq_true_eq] at hset
      exact hkeyed (.inl nofun) (hnever (.inr (.inr hset.1.1))) fun z => setter_gives hd
    · simp only [Bool.and_eq_true, decide_eq_true_eq] at hgenerator
      exact hkeyed (.inr rfl) (hnever (.inl hgenerator.1)) fun z =>
        method_gives hd _ fun _ _ => .pure rfl
    · cases key? with
      | none => exact .refuseToken
      | some key =>
        have hkey := hkey? key rfl
        refine .gap fun hgap => (propertyValue_gives hd _ _ _ _).bind
          fun ⟨value?, hasProto⟩ z hz ⟨hvalue, hnone⟩ => ?_
        match value?, name? with
        | some (value, isMethod), _ =>
          obtain ⟨hfollows, hpast, hvalueAt, hasync⟩ := hvalue _ rfl
          exact .spanFrom <| .pure <| hwhole <| hkey.whole hgap hfollows hvalueAt hasync hpast
        | none, some name =>
          obtain rfl := hnone rfl
          obtain ⟨hlt, hparted, habbreviates⟩ := hfront rfl
          have htarget (hends : t.NoName z.done) :
              (Node.identifier ⟨x.next, z.done⟩ name).Whole t x z :=
            .identifier name hy ⟨hlt, fun _ hstarts => ⟨hparted hstarts, hends⟩, nofun,
              nofun, trivial⟩
          refine .spanFrom <| .isAtSymbol (p := .assign none) (c := '=') rfl (by decide) nofun hy.2
            (fun hends _ => ?_) ?_
          · refine .token fun _ _ => .modifyContext <| advance_gives.bind fun _ w _ ⟨hw, _⟩ => ?_
            refine (hd.whole w).isolate.bind fun init v _ hinit => .spanFrom <| .spanFrom ?_
            have hv := hinit.past
            have hcovers := (htarget hends).covers.append (hinit.covers.follows hw)
            refine .pure ⟨by omega, fun _ => shorthand_whole hkey.covers hcovers ?_ hy (by omega),
              .of_eq_nil fun _ => by cases computed <;> rfl⟩
            refine List.forall_mem_cons.2 ⟨.inr rfl, fun n hn => .inl ?_⟩
            have hstart := (hinit.lies.fits.within n hn).1
            exact hw.2.mono hy.2 (by omega)
          · refine .spanFrom <| .pure ⟨hy, fun hends => ?_, habbreviates.trails hy.2⟩
            refine shorthand_whole hkey.covers (htarget hends).covers ?_ hy (.refl z)
            exact List.forall_mem_singleton.2 (.inr rfl)
        | none, none => exact advance_gives.bind fun _ _ _ _ => .refuse
  clear_value rest
  subst hfirst hx
  cases name? with
  | some name =>
    refine (advance_givesFrom hs).bind ?_
    rintro a y - ⟨rfl, hy, hdone⟩
    have hfirst : s.token.kind.Occupies t ⟨s.spot.next, y.done⟩ := hdone ▸ hs.occupies
    have hword := hspelled name rfl
    have hlt : s.spot.next < y.done := hfirst.nonempty (hinside (hname? rfl))
    have hparted : t.Parted s.spot.next := fun hstarts => (hfirst.named hstarts).front
    have hbegins := hfirst.spelled name hword
    have hnever {w : Text} (hname : name = w) (hhead : w.head? ≠ some (.scalar '_')) :
        ∃ k ≤ y.next, t.NeverSets s.spot.next k :=
      ⟨y.done, hy.2, Text.neverSets_of_name hbegins hlt (hname ▸ hhead)⟩
    have hmodifier : isGenerator ∨ some name = some Word.get ∨ some name = some Word.set →
        ∃ k ≤ y.next, t.NeverSets s.spot.next k := by
      rintro (hgenerator | hget | hset)
      · rw [show s.token.kind = _ from hgenerator] at hword
        cases hword
      · exact hnever (Option.some.inj hget) (by decide)
      · exact hnever (Option.some.inj hset) (by decide)
    refine .getFrom fun s' hs' hspot => .isAt ?_
    subst hspot
    dsimp only
    split
    · next hasync =>
      simp only [Bool.and_eq_true, decide_eq_true_eq] at hasync
      refine (propertyKey_givesFrom hd hs').bind fun key z hz ⟨hkey, _⟩ => .pure_bind ?_
      have hnever := hnever hasync.1.1.1.1.2 (by decide)
      obtain ⟨k, hk, hnever⟩ := hnever
      have hz := hkey.past
      refine hrest _ true (by omega) (fun _ => ⟨by omega, hparted, .of_neverSets hnever (by omega)⟩)
        (fun _ => ⟨k, by omega, hnever⟩) ?_
      rintro _ ⟨⟩
      exact ⟨_, hy, ⟨k, hk, hnever⟩, hkey⟩
    · refine Gives.spanFrom (.pure_bind ?_) s' hs' rfl
      refine hrest _ false hy
        (fun _ => ⟨hlt, hparted, .of_name hbegins hlt hs'.gap hy.2⟩) hmodifier ?_
      rintro _ ⟨⟩
      refine ⟨.identifier name hy (suits_name hfirst (hinside (hname? rfl))), ?_⟩
      by_cases hbracket : s'.token.kind = .punctuator .leftBracket
      · exact .inr ⟨decide_eq_true hbracket, (hs'.symbol (c := '[') hbracket rfl nofun).1⟩
      · rw [decide_eq_false hbracket]
        exact .inl (.name hlt hbegins)
  | none =>
    have hnameless {p : Prop} : (none : Option Text).isSome → p := by simp
    dsimp only
    split
    · next hgenerator =>
      refine (advance_givesFrom hs).bind fun a y _ ⟨_, hy, hdone⟩ => .pure_bind ?_
      have hfirst : s.token.kind.Occupies t ⟨s.spot.next, y.done⟩ := hdone ▸ hs.occupies
      have hkind : s.token.kind = .punctuator (.operator .times) := hgenerator
      have helse := hfirst.startsElse (by simp [hkind]) (by simp [hkind, TokenKind.IsWord])
        (by simp [hkind])
      have hlt : s.spot.next < y.done := hfirst.nonempty helse.inside
      exact hrest _ false hy hnameless
        (fun _ => ⟨_, Nat.le_trans hlt hy.2, helse.neverSets⟩) (by simp)
    · next hgenerator =>
      refine GivesFrom.isAt <| (propertyKey_givesFrom hd hs).bind
        fun key y _ ⟨hkey, hkeyAt⟩ => .pure_bind ?_
      refine hrest _ false hkey.past hnameless ?_ ?_
      · rintro (h | h | h)
        · exact (hgenerator h).elim
        · cases h
        · cases h
      · rintro _ ⟨⟩
        exact ⟨hkey, .inl hkeyAt⟩

/-- A piece of a template does not begin a property. -/
theorem objectProperty_template {s : State} (hs : s.Sound t) (hasProto : Bool) {raw cooked : Text}
    {isHead isTail : Bool} (hkind : s.token.kind = .template raw cooked isHead isTail) :
    GivesFrom t s (objectProperty d hasProto) fun _ _ => False := by
  refine .here <| .token ?_
  simp only [hkind]
  exact .isAt <| (propertyKey_template hs hkind).bind fun _ _ _ h => h.elim

/-- Properties lie one behind the other, the last one first, whatever begins behind a spot.  What
begins at it may not be the end of the object. -/
def Properties (t : Text) (x y : Spot) (ns : List Node) : Prop :=
  ∀ next, y.next ≤ next → (y.next = next → t[y.next]? ≠ some '}') → Node.Strung t x.next ns next

/-- One more property behind those that have been read. -/
theorem Properties.cons {n : Node} {ns : List Node} {c : CodePoint} {next : Nat}
    (hns : Properties t x y ns) (hopen : t[y.next]? ≠ some '}') (hn : n.Whole t y z)
    (htrails : Trails t z n) (hc : c = ',' ∨ c = '}') (hsymbol : t[z.next]? = some c)
    (hnext : z.next < next) : Node.Strung t x.next (n :: ns) next := by
  obtain ⟨h₁, h₂, h₃⟩ := hn.lies.start_le hn.spanned
  have hz := hn.past
  refine ⟨⟨z.done, by omega, h₂, fun m hm => ?_, htrails c hc hsymbol next hnext⟩,
    hns _ h₁ fun _ => hopen⟩
  obtain ⟨-, h₅, h₆⟩ := hn.lies.fits.within m hm
  exact ⟨h₃ m hm, h₅, h₆⟩

theorem objectLiteral_gives (hd : d.Lawful t) :
    Gives t x (objectLiteral d) fun n y => n.Whole t x y := by
  refine .here <| (expect_gives _).bind fun _ y _ hy => ?_
  have hnil : Properties t y y [] := fun _ hnext _ => hnext
  refine (Gives.iterate
    (I := fun r z => Closed t y z (Node.marksOfAll r.1.reverse) ∧ Properties t y z r.1)
    (R := fun ns z => Closed t y z (Node.marksOfAll ns) ∧ Properties t y z ns.reverse) ?_
    ⟨.nil (.refl y), hnil⟩).bind fun properties z _ ⟨hproperties, hstrung⟩ => ?_
  · intro ⟨properties, hasProto⟩ z ⟨hproperties, hstrung⟩ s hs hz
    subst hz
    refine .isAt <| .dite (fun _ => ?_) fun hbrace => .isAt ?_
    · exact Gives.pure ⟨hproperties, by rwa [List.reverse_reverse]⟩ s hs rfl
    extract_lets rest
    -- a property is followed by a symbol
    have hrest {w : Spot} (r : Node × Bool) (hw : s.spot.Past w)
        (hopen : t[s.spot.next]? ≠ some '}')
        (hproperty : t.NoName w.done → r.1.Whole t s.spot w) (htrails : Trails t w r.1) :
        Gives t w (rest r) (Sum.elim
          (fun r v => Closed t y v (Node.marksOfAll r.1.reverse) ∧ Properties t y v r.1)
          fun ns v => Closed t y v (Node.marksOfAll ns) ∧ Properties t y v ns.reverse) := by
      have hnext (hends : t.NoName w.done) :
          Covers t y w (Node.marksOfAll (r.1 :: properties).reverse) :=
        hproperties.snoc (hproperty hends).covers (.refl s.spot)
      refine .isAtSymbol (p := .rightBrace) (c := '}') rfl (by decide) nofun hw.2
        (fun hends hclose =>
          .pure ⟨(hnext hends).closed_of_ne (by simp [hclose]), fun next hle hne => ?_⟩) ?_
      · have hlt : w.next < next := Nat.lt_of_le_of_ne hle fun heq => hne heq hclose
        exact hstrung.cons hopen (hproperty hends) htrails (.inr rfl) hclose hlt
      · refine ((expect_ends (p := .comma) (c := ',') rfl (by decide) nofun hw.2).and
          (expect_symbol .comma ',' rfl nofun)).bind ?_
        rintro _ v _ ⟨⟨hv, hends⟩, -, hcomma, hdone⟩
        exact .pure ⟨(hnext hends).closed hv, fun next hle _ =>
          hstrung.cons hopen (hproperty hends) htrails (.inl rfl) hcomma (by omega)⟩
    clear_value rest
    by_cases hclose : t[s.spot.next]? = some '}'
    · -- then this is a piece of a template
      obtain hkind | ⟨_, _, _, _, hkind⟩ := hs.kind_of_rightBrace hclose
      · exact (of_decide_eq_false (Bool.eq_false_iff.2 hbrace) hkind).elim
      · rw [hkind]
        exact (objectProperty_template hs hasProto hkind).bind fun _ _ _ h => h.elim
    · refine Gives.ite ?_ ?_ s hs rfl
      · have hspread := spreadElement_gives (x := s.spot) hd
        exact (hspread.and ((spreadElement_returns d).gives hspread)).bind fun e w _ ⟨he, hnil⟩ =>
          .pure_bind (hrest (e, hasProto) he.past hclose (fun _ => he) (.of_eq_nil hnil))
      · exact (objectProperty_gives hd _).bind fun r w _ hr => hrest r hr.1 hclose hr.2.1 hr.2.2
  · have hz := hproperties.later
    refine (expect_symbol .rightBrace '}' rfl nofun).bind fun _ w _ ⟨hw, _, hdone⟩ =>
      .spanFrom <| .pure ?_
    have hcovers : Covers t y w (Node.marksOfProperties w.done properties) := by
      have hfits : Fits t y.next w.done (Node.marksOfAll properties.reverse.reverse ++ []) := by
        simpa using (hproperties.toCovers.mono (by omega)).fits
      have hstrung := hstrung w.done (by omega) fun _ => by omega
      have hproperties := hstrung.fits hfits (Nat.le_refl _) nofun
      rw [List.reverse_reverse, List.append_nil] at hproperties
      exact ⟨by omega, hproperties, .inr (by omega)⟩
    exact .of_covers hcovers rfl trivial (by omega)

/-! ## Parentheses -/

theorem closeParameters_gives : Gives t x closeParameters fun _ y => x.Consumes t y := by
  refine (expect_gives _).bind fun _ y _ hy => .isAt fun _ => .ite (.pure hy) ?_
  exact (expect_gives _).mono fun _ z _ hz => ⟨by omega, hy.2.mono (Nat.le_refl _) (by omega)⟩

theorem groupRest_gives (hd : d.Lawful t) {first : Node} (hfirst : first.Whole t w x) :
    Gives t x (groupRest d first) fun r y =>
      Node.AllWhole t w y r.1 ∧ (r.2 = false → r.1.length = 1 → y = x) := by
  refine .iterate
    (I := fun ns y => Node.AllWhole t w y ns.reverse ∧ ns ≠ [] ∧ (ns.length = 1 → y = x))
    ?_ ⟨.single hfirst, by simp, fun _ => rfl⟩
  intro nodes y ⟨hnodes, hne, hsame⟩
  refine .choice (accept_gives _) (fun z hz => ?_) (.pure ⟨hnodes, fun _ => by simpa using hsame⟩)
  have hclosed := hnodes.covers.closed hz
  refine .choice (accept_gives _) (fun v hv => .pure ?_) ?_
  · exact ⟨(hnodes.mono (by omega)).map_asPattern, nofun⟩
  refine .isAt fun _ => .ite (.get fun _ _ _ => .guard .refuseToken ?_) ?_
  · refine (restParameter_gives hd).bind fun ⟨last, _⟩ u _ hlast => ?_
    refine closeParameters_gives.bind fun _ u' _ hu' => .modifyContext <| .pure ⟨?_, nofun⟩
    have hnext := Node.AllWhole.snoc hclosed hnodes.spanned hlast (.refl z)
    exact (hnext.mono (by omega)).map_asPattern
  · refine (hd.whole z).inherit.bind fun e u _ he => .pure ?_
    refine ⟨.snoc hclosed hnodes.spanned he (.refl z), by simp, fun hlength => ?_⟩
    exact (hne (List.eq_nil_of_length_eq_zero (by simpa using hlength))).elim

/-- A list in parentheses that stands for parameters. -/
theorem arrowParameters_read {isAsync : Bool} {params : List Node}
    (h : Node.AllWhole t y z params) (hout : x.Past w ∧ x.Later y ∧ z.Later w) :
    (Node.arrowParameters isAsync params).Read t x w :=
  ⟨hout.1, ⟨(h.covers.mono hout.2).fits, (fun _ hs => nomatch hs), h.spanned⟩, nofun⟩

/-- The parameters that an expression in parentheses stands for. -/
theorem params_allWhole {e : Node} :
    e.Whole t x y → Node.AllWhole t x y (match e with | .sequence _ nodes => nodes | e => [e]) := by
  intro he
  split
  · exact ⟨he.covers, he.lies.shaped⟩
  · exact .single he

theorem group_gives (hd : d.Lawful t) : Gives t x (group d) fun n y => n.Heads t x y := by
  refine (expect_symbol .leftParen '(' rfl nofun).bind fun _ y _ ⟨hy, hopen, _⟩ => ?_
  have hstarts : ¬t.StartsString x.next := by
    rintro ⟨c, hc, hquote⟩
    rw [hopen] at hc
    cases hc
    exact absurd hquote (by decide)
  refine .mono (Q := fun n y => n.Read t x y) ?_ fun n z _ hn => ⟨hn, fun _ _ => .inr hopen⟩
  refine .isAt fun _ => .ite ?_ <| .here <| .isAt fun _ => ?_
  · refine closeParameters_gives.bind fun _ z _ hz => .pure ?_
    exact arrowParameters_read (.nil (.refl y)) (by omega)
  refine .ite ?_ <| .modifyContext <| (hd.whole y).inherit.bind fun first z _ hfirst => ?_
  · refine (restParameter_gives hd).bind fun ⟨param, _⟩ z _ hparam => ?_
    have hz := hparam.past
    exact closeParameters_gives.bind fun _ w _ hw =>
      .pure <| arrowParameters_read (.single hparam) (by omega)
  have hz := hfirst.past
  refine .isAt fun _ => ?_
  extract_lets close rest
  have hclose {w : Spot} {e : Node} (he : e.Whole t y w) :
      Gives t w (close e) fun n v => n.Read t x v := by
    have hw := he.past
    refine (expect_gives _).bind fun _ v _ hv => .isAt fun _ => .ite ?_ ?_
    · refine .ite (.modifyContext <| .pure <| arrowParameters_read (.single he) (by omega)) ?_
      refine .get fun _ _ _ => .guard .refuseToken <| .modifyContext <| .pure ?_
      exact arrowParameters_read (params_allWhole he).map_asPattern (by omega)
    · exact .modifyContext <| .pure (he.toRead.behind (by omega) hstarts)
  have hrest {w : Spot} {nodes : List Node} (isList : Bool) (hw : z.Later w)
      (hnodes : Node.AllWhole t y w nodes) :
      Gives t w (rest (nodes, isList)) fun n v => n.Read t x v := by
    have hsequence : (Node.sequence ⟨y.next, w.done⟩ nodes).Whole t y w :=
      .of_covers hnodes.covers rfl hnodes.spanned (by omega)
    refine .ite (.pure <| arrowParameters_read hnodes (by omega)) <| .ite ?_ ?_
    · exact .pure_bind <| hclose (hfirst.mono (by omega))
    · exact .spanFrom <| .pure_bind <| hclose hsequence
  clear_value rest
  refine .ite (.modifyContext <|
    (groupRest_gives hd hfirst).bind fun r w hw hr => hrest _ hw hr.1) ?_
  exact .pure_bind <| hrest _ (.refl z) (.single hfirst)

/-! ## Calls and members -/

theorem argumentsOf_gives (hd : d.Lawful t) {argument : Parse Node}
    (hargument : ∀ x, Gives t x argument fun n y => n.Whole t x y) :
    Gives t x (argumentsOf d argument) fun ns y =>
      Enclosed t x y (Node.marksOfAll ns) ∧ (∀ n ∈ ns, n.span?.isSome) ∧
        (ns = [] → t[x.next]? = some (.scalar '(') ∧ t.Symbol ')' (x.next + 1) y.done) := by
  refine (expect_symbol .leftParen '(' rfl nofun).bind fun _ y _ ⟨hy, hopen, hdone⟩ => ?_
  refine .isAt fun _ => ?_
  extract_lets rest
  have hrest {z : Spot} {ns : List Node} (hns : Closed t y z (Node.marksOfAll ns))
      (hspanned : ∀ n ∈ ns, n.span?.isSome) (hnil : ns = [] → z = y) :
      Gives t z (rest ns) fun ns w => Enclosed t x w (Node.marksOfAll ns) ∧
        (∀ n ∈ ns, n.span?.isSome) ∧
          (ns = [] → t[x.next]? = some (.scalar '(') ∧ t.Symbol ')' (x.next + 1) w.done) := by
    have hz := hns.later
    refine .gap fun hgap => (expect_symbol .rightParen ')' rfl nofun).bind ?_
    refine fun _ w _ ⟨hw, hclose, hdone'⟩ => .pure ⟨⟨y, hy, hns.mono (by omega)⟩, hspanned, ?_⟩
    refine fun h => ⟨hopen, z.next, by omega, ?_, hclose, hdone'⟩
    rwa [← hdone, ← hnil h]
  clear_value rest
  refine .ite (.pure_bind <| hrest (.nil (.refl y)) nofun fun _ => rfl) <| (Gives.iterate
    (I := fun ns z => Closed t y z (Node.marksOfAll ns.reverse) ∧ ∀ n ∈ ns.reverse, n.span?.isSome)
    (R := fun ns z =>
      (Closed t y z (Node.marksOfAll ns) ∧ ∀ n ∈ ns, n.span?.isSome) ∧ ns ≠ [])
    ?_ ⟨.nil (.refl y), nofun⟩).bind
      fun _ _ _ hns => hrest hns.1.1 hns.1.2 fun h => (hns.2 h).elim
  intro ns z ⟨hns, hspanned⟩
  refine .isAt fun _ =>
    .ite ((spreadElement_gives hd).bind ?node) ((hargument z).isolate.bind ?node)
  intro n w _ hn
  have hne : (n :: ns).reverse ≠ [] := by simp
  obtain ⟨hcovers, hspanned⟩ := Node.AllWhole.snoc hns hspanned hn (.refl z)
  refine .isAtOr nofun (fun hclose => .pure ⟨⟨hcovers.closed_of_ne hclose, hspanned⟩, hne⟩) ?_
  refine (expect_gives _).bind fun _ v _ hv => .isAt fun _ => ?_
  have hnext := hcovers.closed hv
  exact .ite (.pure ⟨⟨hnext, hspanned⟩, hne⟩) (.pure ⟨hnext, hspanned⟩)

theorem callArguments_gives (hd : d.Lawful t) :
    Gives t x (callArguments d) fun ns y =>
      Enclosed t x y (Node.marksOfAll ns) ∧ (∀ n ∈ ns, n.span?.isSome) ∧
        (ns = [] → t[x.next]? = some (.scalar '(') ∧ t.Symbol ')' (x.next + 1) y.done) :=
  argumentsOf_gives hd hd.whole

theorem asyncArguments_gives (hd : d.Lawful t) :
    Gives t x (asyncArguments d) fun ns y =>
      Enclosed t x y (Node.marksOfAll ns) ∧ (∀ n ∈ ns, n.span?.isSome) ∧
        (ns = [] → t[x.next]? = some (.scalar '(') ∧ t.Symbol ')' (x.next + 1) y.done) :=
  argumentsOf_gives hd fun x => (hd.whole x).bind fun _ _ _ hn => .modifyContext (.pure hn)

theorem isAtImportCall_gives : Gives t x isAtImportCall fun _ y => y = x :=
  .isAtKeyword fun _ => .ite (peek_gives.bind fun _ _ _ h => .pure h) (.pure rfl)

/-- A slash that is looked at may begin a regular expression. -/
theorem regex_givesFrom {s : State} (hs : s.Sound t) {p : Punctuator}
    (hkind : s.token.kind = .punctuator p) (hp : p ≠ .leftParen ∧ p ≠ .rightBrace) :
    GivesFrom t s regex fun n y => n.Whole t s.spot y := by
  have hopening : s.tokenRest.head? ≠ some '(' := fun hc => hp.1 <| by
    have := hs.spelled.opening hc
    rw [hkind] at this
    exact TokenKind.punctuator.inj this
  have hclosing : s.tokenRest.head? ≠ some '}' := fun hc => hp.2 <| by
    have := hs.spelled.closing hc
    simpa [hkind] using this
  have hname : ¬∃ c ∈ s.tokenRest.head?, c.isNameStart = true := fun hstarts => by
    have := hs.spelled.word.2 hstarts
    rw [hkind] at this
    exact this
  have hquote : ¬∃ c ∈ s.tokenRest.head?, c.IsQuote := fun hstarts => by
    obtain ⟨_, _, _, heq⟩ := hs.spelled.quote hstarts
    rw [hkind] at heq
    cases heq
  refine .get <| .modify rfl ?_
  dsimp only
  split
  · exact Gives.throw _ { hs with } rfl
  · next pattern flags q u hread =>
    have hreach := Regex.reaches_of_read_drop hread
    refine .modify rfl ?_
    have hsound : State.Sound t { s with
        isTarget := false
        isBinding := false
        token := ⟨.punctuator (.operator .divide), ⟨s.tokenPlace.index, q.index⟩,
          s.reader.place.line⟩
        reader := { s.reader with place := q, rest := u } } := by
      refine ⟨hs.token, hreach, rfl, fun hnil => ?_, hs.gap,
        Regex.spells_read hread hopening hclosing hname hquote, hs.parted, ?_,
        fun _ _ => Regex.line_of_read hread, nofun⟩
      · rw [show s.tokenRest = [] from hnil] at hread
        cases hread
      · exact (hs.level p hkind).trans (Regex.line_of_read hread).symm
    refine (advance_givesFrom hsound).bind fun _ z _ ⟨_, hz, _⟩ => .spanFrom <| .pure ?_
    exact .of_covers (n := .literal _ (.regex _ _)) (.nil (.refl z)) rfl trivial
      ⟨hz, .inr hz, .refl z⟩

/-- A literal is a single token, and if it is a string, then the one that is looked at. -/
theorem literal_gives {s : State} (hs : s.Sound t) {value : Literal}
    (hstring : ∀ v, value = .string v → ∃ spelling octal, s.token.kind = .string v spelling octal) :
    Gives t s.spot (literal value) fun n y => n.Whole t s.spot y := by
  refine .here <| .markValue <| advance_gives.bind fun a y _ ⟨hy, _, ha⟩ => .spanFrom <| .pure ?_
  cases value
  case string v =>
    obtain ⟨spelling, octal, hkind⟩ := hstring v rfl
    have hquotes := hs.occupies.string v spelling octal hkind
    obtain ⟨v', spelling', octal', hkind'⟩ := ha.quote hquotes.startsString
    rw [hkind'] at ha
    obtain ⟨rfl, -⟩ := hquotes.unique (ha.string _ _ _ rfl) rfl
    exact .of_single hy.1 (suits_string ha) rfl rfl trivial
  all_goals exact .of_covers (.nil (.refl y)) rfl trivial (by omega)

/-- A token that stands for a name. -/
theorem name_gives (name : Text) (hinside : x.next < t.length) : Gives t x (do
    let _ ← advance
    return Node.identifier (← spanFrom x.next) name) fun n y => n.Whole t x y ∧ n.Heads t x y := by
  refine advance_gives.bind fun _ y _ ⟨hy, _, ha⟩ => .spanFrom <| .pure ?_
  have hn : (Node.identifier ⟨x.next, y.done⟩ name).Whole t x y :=
    .identifier name hy.1 (suits_name ha hinside)
  exact ⟨hn, hn.toRead, nofun⟩

theorem functionExpression_heads (hd : d.Lawful t) :
    Gives t x (functionExpression d) fun n y => n.Heads t x y := by
  refine (functionExpression_gives hd).mono fun n y _ ⟨hn, hspan⟩ => ⟨hn.toRead, ?_⟩
  rintro s rfl
  cases hspan

theorem primary_gives (hd : d.Lawful t) : Gives t x (primary d) fun n y => n.Heads t x y := by
  have hrefuse {α : Type} {x : Spot} {Q : α → Spot → Prop} :
      Gives t x (do refuse (← advance) : Parse α) Q := advance_gives.bind fun _ _ _ _ => .refuse
  refine .here <| .getFrom fun s hs hx => ?_
  subst hx
  have hinside (hkind : s.token.kind ≠ .endOfText) : s.spot.next < t.length :=
    hs.occupies.inside hkind
  have hgives {p : Parse Node} {Q : Node → Spot → Prop} (h : Gives t s.spot p Q) :
      GivesFrom t s p Q := h s hs rfl
  have hliteral (value : Literal)
      (hstring : ∀ v, value = .string v → ∃ spelling octal,
        s.token.kind = .string v spelling octal) :
      Gives t s.spot (literal value) fun n y => n.Heads t s.spot y :=
    (literal_plain value).heads (literal_gives hs hstring)
  have hregex {p : Punctuator} (hkind : s.token.kind = .punctuator p)
      (hp : p ≠ .leftParen ∧ p ≠ .rightBrace) :
      GivesFrom t s regex fun n y => n.Heads t s.spot y := by
    intro n s' hrun
    obtain ⟨hs', hlater, hn⟩ := regex_givesFrom hs hkind hp n s' hrun
    exact ⟨hs', hlater, hn.toRead, fun a ha => ((regex_plain s n s' hrun).2 a ha).elim⟩
  split
  · next hkind =>
    refine hgives <| .guard .refuseToken <| isAtAsyncFunction_gives.bind fun _ y _ hy => ?_
    subst hy
    exact .ite (functionExpression_heads hd)
      ((name_gives _ (hinside (by simp [hkind]))).mono fun _ _ _ hn => hn.2)
  · exact hgives <| .guard .refuseFor (hliteral _ nofun)
  · next hkind =>
    refine hgives <| .guard .refuseFor (hliteral _ ?_)
    rintro _ ⟨⟩
    exact ⟨_, _, hkind⟩
  · exact hgives <| hliteral _ nofun
  · exact hgives <| hliteral _ nofun
  · exact hgives <| (template_plain d).heads (template_gives hd)
  · exact hgives <| .modifyContext (group_gives hd).inherit
  · exact hgives ((arrayLiteral_plain d).heads (arrayLiteral_gives hd)).inherit
  · exact hgives ((objectLiteral_plain d).heads (objectLiteral_gives hd)).inherit
  · next hkind => exact hregex hkind (by decide)
  · next hkind => exact hregex hkind (by decide)
  · next hkind =>
    refine hgives <| .ite (identifierName_plain.heads identifierName_gives) <|
      .ite ?_ <| .markValue ?_
    · refine advance_gives.bind fun _ z _ hz => .spanFrom <| .pure ⟨?_, fun _ h => by cases h⟩
      exact (Node.Whole.identifier _ hz.1.1
        (suits_name hz.2.2 (hinside (by simp [hkind])))).toRead
    split
    · exact functionExpression_heads hd
    · have hstarts : t.StartsName s.spot.next :=
        hs.occupies.word.1 (by simp [hkind, TokenKind.IsWord])
      refine advance_gives.bind fun _ y _ hy => .spanFrom <| .pure ⟨?_, fun _ _ => .inl hstarts⟩
      have hpast := hy.1
      exact .of_covers (.nil (.refl y)) rfl trivial (by omega)
    · exact (classExpression_plain d).heads (classExpression_gives hd)
    · refine isAtImportCall_gives.bind fun _ y _ hy => ?_
      subst hy
      refine .ite ?_ hrefuse
      refine advance_gives.bind fun _ z _ hz => .spanFrom <| .pure ⟨?_, fun _ h => by cases h⟩
      have hpast := hz.1
      exact .of_covers (.nil (.refl z)) rfl trivial (by omega)
    · exact hrefuse
  · exact hgives hrefuse

/-- A name is no list in parentheses, so it has a span. -/
theorem primary_givesFrom (hd : d.Lawful t) {s : State} (hs : s.Sound t)
    (hname : s.token.kind = .keyword .yield ∨ ∃ name, s.token.kind = .identifier name) :
    GivesFrom t s (primary d) fun n y => n.Whole t s.spot y := by
  refine .here <| .get ?_
  obtain hyield | ⟨name, hidentifier⟩ := hname
  · rw [hyield]
    refine Gives.ite identifierName_gives ?_ s hs rfl
    refine .ite ?_ <| .markValue <| advance_gives.bind fun _ _ _ _ => .refuse
    exact advance_gives.bind fun _ z _ ⟨hz, _, ha⟩ => .spanFrom <| .pure <|
      .identifier _ hz.1 (suits_name ha (hs.occupies.inside (by simp [hyield])))
  · rw [hidentifier]
    refine Gives.guard .refuseToken ?_ s hs rfl
    refine isAtAsyncFunction_gives.bind fun _ y _ hy => ?_
    subst hy
    exact .ite ((functionExpression_gives hd).mono fun _ _ _ hn => hn.1)
      ((name_gives name (hs.occupies.inside (by simp [hidentifier]))).mono fun _ _ _ hn => hn.1)

theorem newExpression_gives (hd : d.Lawful t) :
    Gives t x (newExpression d) fun n y => n.Whole t x y := by
  refine .here <| identifierName_gives.bind fun head y _ hhead => ?_
  have hy := hhead.past
  refine (accept_gives _).bind fun _ z hz _ => .ite ?_ <| .isAtKeyword fun _ => ?_
  · refine .get fun _ _ _ => .ite ?_ .refuseToken
    refine identifierName_gives.bind fun property w _ hproperty => .spanFrom <| .pure ?_
    have hw := hproperty.past
    exact .of_covers (n := .metaProperty _ head property) (.nil (.refl w)) rfl trivial (by omega)
  · refine .ite .refuseToken <|
      (hd.read _ z).isolate.bind fun callee w _ hcallee => .isAt fun _ => ?_
    have hw := hcallee.past
    have hrest {v : Spot} {ns : List Node} (hns : Follows t w v (Node.marksOfAll ns)) :
        Gives t v (do
        markValue
        return Node.new (← spanFrom x.next) callee ns) fun n y => n.Whole t x y := by
      have hv := hns.covers.later
      have hcovers := hcallee.covers.append hns
      exact .markValue <| .spanFrom <| .pure <| .of_covers hcovers rfl trivial (by omega)
    refine .ite ((callArguments_gives hd).bind fun ns v _ ⟨hns, _⟩ => hrest hns.follows) ?_
    exact .pure_bind <| hrest (.inl ⟨rfl, rfl⟩)

theorem head_gives (hd : d.Lawful t) : Gives t x (head d) fun n y => n.Heads t x y :=
  .isAtKeyword fun _ => .ite ((newExpression_plain d).heads (newExpression_gives hd)).inherit
    (primary_gives hd).inherit

theorem member_whole {owner key : Node} {computed : Bool} (howner : owner.Heads t x y)
    (hkey : key.Read t z w) (hyz : y.Consumes t z)
    (hends : computed = false → z.next < w.done ∧ t.NoName w.done) :
    (Node.member ⟨x.next, w.done⟩ computed owner key).Whole t x w := by
  have hy := howner.past
  have hw := hkey.past
  have hcovers := howner.covers.append (hkey.covers.follows hyz)
  cases computed with
  | true => exact .of_covers hcovers rfl trivial (by omega)
  | false =>
    cases owner
    case this s =>
      obtain ⟨hlt, hno⟩ := hends rfl
      have hsuits : Mark.Suits ⟨⟨x.next, w.done⟩, .property, none⟩ t :=
        ⟨show x.next < w.done by omega, nofun, fun _ => ⟨howner.owner s rfl, hno⟩, nofun, trivial⟩
      exact .of_single (by omega) hsuits rfl rfl trivial
    all_goals exact .of_covers hcovers rfl trivial (by omega)

theorem suffix?_gives (hd : d.Lawful t) {e : Node} (he : e.Heads t w x) :
    Gives t x (suffix? d w.next e) fun r y => ∀ n ∈ r, n.Heads t w y := by
  have hx := he.past
  refine .isAt fun _ => .ite ?_ <| .isAt fun _ => .ite ?_ <| isAtTemplate_gives.bind ?_
  · refine .markMember <| (expect_gives _).bind fun _ y _ hy => ?_
    refine identifierName_ends.bind fun key z _ ⟨hkey, hends⟩ => .spanFrom <| .pure ?_
    rintro _ ⟨⟩
    exact ⟨(member_whole he hkey.toRead hy fun _ => hends).toRead, nofun⟩
  · refine .markMember <| (expect_gives _).bind fun _ y _ hy => ?_
    refine (expression_gives hd).isolate.bind fun key z _ hkey => ?_
    refine (expect_gives _).bind fun _ v _ hv => .spanFrom <| .pure ?_
    rintro _ ⟨⟩
    have hkey : key.Read t y v := (hkey.mono (by omega)).toRead
    exact ⟨(member_whole he hkey hy (fun h : true = false => nomatch h)).toRead, nofun⟩
  · intro b y _ ⟨hy, hquote⟩
    subst hy
    refine .dite (fun hb => ?_) fun _ => .pure (by simp)
    refine (template_gives hd).bind fun quasi z _ hquasi => .spanFrom <| .pure ?_
    have hz := hquasi.past
    have hcovers := (he.covers.closed_of_ne (hquote hb)).append hquasi.covers (.refl y)
    rintro _ ⟨⟩
    exact ⟨.of_covers hcovers rfl trivial (by omega), nofun⟩

theorem callee_gives (hd : d.Lawful t) : Gives t x (callee d) fun n y => n.Read t x y := by
  refine .here <| .isAtKeyword fun _ => .get fun _ _ _ => ?_
  extract_lets rest
  have hrest {y : Spot} {first : Node} (hfirst : first.Heads t x y) :
      Gives t y (rest first) fun n z => n.Read t x z := by
    refine .iterate (I := fun e z => e.Heads t x z) (fun e z he => ?_) hfirst
    refine (suffix?_gives hd he).bind fun r w hw hr => ?_
    cases r with
    | some n => exact .pure (hr n rfl)
    | none => exact .pure (he.toRead.mono (by omega))
  clear_value rest
  refine .ite ?_ <| (head_gives hd).bind fun e _ _ he => hrest he
  refine advance_gives.bind fun _ y _ ⟨hy, _⟩ => .spanFrom <| .isAt fun _ => .isAt fun _ => ?_
  have hsuper : (Node.superReference ⟨x.next, y.done⟩).Whole t x y :=
    .of_covers (.nil (.refl y)) rfl trivial (by omega)
  exact .ite (.pure_bind <| hrest ⟨hsuper.toRead, nofun⟩) (.absurd .refuseToken)

theorem call_gives (hd : d.Lawful t) {mayBeAsync : Bool} {e : Node} (he : e.Read t w x) :
    Gives t x (call d w.next mayBeAsync e) fun n y => n.Heads t w y := by
  have hx := he.past
  refine .markValue ?_
  extract_lets rest
  have hrest {y : Spot} {ns : List Node} (hns : Enclosed t x y (Node.marksOfAll ns))
      (hspanned : ∀ n ∈ ns, n.span?.isSome) :
      Gives t y (rest ns) fun n z => n.Heads t w z := by
    have hy := hns.closed.later
    have hall : Node.AllWhole t x y ns := ⟨hns.closed.toCovers, hspanned⟩
    have hcall : (Node.call ⟨w.next, y.done⟩ e ns).Whole t w y :=
      .of_covers (he.covers.append hns.follows) rfl he.lies.shaped (by omega)
    have hend : Gives t y (do
        if mayBeAsync && (← isAt .arrow) then
          return Node.arrowParameters true (ns.map Node.asPattern)
        else return Node.call (← spanFrom w.next) e ns) fun n y => n.Heads t w y :=
      .isAt fun _ => .ite
        (.pure ⟨arrowParameters_read hall.map_asPattern (by omega), nofun⟩)
        (.spanFrom <| .pure ⟨hcall.toRead, nofun⟩)
    dsimp only [rest]
    split
    · exact .guard .refuseLine hend
    · exact hend
  clear_value rest
  exact .ite ((asyncArguments_gives hd).bind fun _ _ _ ⟨hns, hspanned, _⟩ => hrest hns hspanned)
    ((callArguments_gives hd).bind fun _ _ _ ⟨hns, hspanned, _⟩ => hrest hns hspanned)

theorem callOrMember_gives (hd : d.Lawful t) :
    Gives t x (callOrMember d) fun n y => n.Read t x y := by
  refine .here <| .get fun _ _ _ => .modifyContext ?_
  extract_lets rest
  have hrest {y : Spot} {first : Node} (hfirst : first.Heads t x y) :
      Gives t y (rest first) fun n z => n.Read t x z := by
    refine (Gives.iterate (I := fun e z => e.Heads t x z) (R := fun e z => e.Read t x z)
      (fun e z he => ?_) hfirst).bind fun e z _ he => .modifyContext (.pure he)
    refine .isAt fun _ => .ite ?_ ?_
    · exact .token fun _ _ => (call_gives hd he.toRead).bind fun n _ _ hn => .pure hn
    · refine (suffix?_gives hd he).bind fun r w hw hr => ?_
      cases r with
      | some n => exact .pure (hr n rfl)
      | none => exact .pure (he.toRead.mono (by omega))
  clear_value rest
  refine .ite ?_ <| (head_gives hd).bind fun e _ _ he => hrest he
  refine advance_gives.bind fun _ y _ ⟨hy, _⟩ => .spanFrom ?_
  have hsuper : (Node.superReference ⟨x.next, y.done⟩).Whole t x y :=
    .of_covers (.nil (.refl y)) rfl trivial (by omega)
  refine .isAt fun _ => .isAt fun _ => .isAt fun _ => ?_
  exact .ite (.pure_bind <| hrest ⟨hsuper.toRead, nofun⟩) (.absurd .refuseToken)

/-! ## Operators -/

theorem updateOp?_gives : Gives t x updateOp? fun _ y => y = x := by
  refine .token fun _ _ => ?_
  split <;> exact .pure rfl

theorem checkUpdated_gives (e : Node) (restricted : Fault) :
    Gives t x (checkUpdated e restricted) fun _ y => y = x :=
  .get fun _ _ _ => .guard .refuseLine <| .ite (.refuseLine) (.pure rfl)

theorem update_gives (hd : d.Lawful t) : Gives t x (update d) fun n y => n.Read t x y := by
  refine .here <| updateOp?_gives.bind fun op? y _ hy => ?_
  subst hy
  cases op? with
  | some op =>
    refine advance_gives.bind fun _ z _ ⟨hz, _⟩ => (hd.read _ z).inherit.bind fun e w _ he => ?_
    have hw := he.past
    refine (checkUpdated_gives _ _).bind fun _ v _ hv => ?_
    subst hv
    exact .markValue <| .spanFrom <| .pure <| .of_covers he.covers rfl trivial (by omega)
  | none =>
    refine (callOrMember_gives hd).inherit.bind fun e z _ he => .get fun _ _ _ => .ite (.pure he) ?_
    have hz := he.past
    refine updateOp?_gives.bind fun op? w _ hw => ?_
    subst hw
    cases op? with
    | some op =>
      refine (checkUpdated_gives _ _).bind fun _ v _ hv => .markValue ?_
      subst hv
      refine advance_gives.bind fun _ u _ ⟨hu, _⟩ => .spanFrom <| .pure ?_
      exact .of_covers he.covers rfl trivial (by omega)
    | none => exact .pure he

theorem unaryOp?_gives : Gives t x unaryOp? fun _ y => y = x := by
  refine .token fun _ _ => ?_
  split <;> exact .pure rfl

theorem unary_gives (hd : d.Lawful t) : Gives t x (unary d) fun n y => n.Read t x y := by
  refine .here <| unaryOp?_gives.bind fun op? y _ hy => ?_
  subst hy
  cases op? with
  | some op =>
    refine advance_gives.bind fun _ z _ ⟨hz, _⟩ => (hd.read _ z).inherit.bind fun e w _ he => ?_
    have hw := he.past
    refine .get fun _ _ _ => .guard .refuseLine <| .markValue <| .spanFrom <| .pure ?_
    exact .of_covers he.covers rfl trivial (by omega)
  | none =>
    refine .get fun _ _ _ => .isAtName fun _ => .ite ?_ (update_gives hd)
    refine advance_gives.bind fun _ z _ ⟨hz, _⟩ => (hd.read _ z).bind fun e w _ he => ?_
    have hw := he.past
    exact .spanFrom <| .pure <| .of_covers he.covers rfl trivial (by omega)

theorem power_gives (hd : d.Lawful t) : Gives t x (power d) fun n y => n.Read t x y := by
  refine .here <| (unary_gives hd).inherit.bind fun left y _ hleft => ?_
  have hy := hleft.past
  split
  · exact .pure hleft
  · refine .choice (accept_gives _) (fun z hz => ?_) (.pure hleft)
    refine .markValue <| (hd.read _ z).isolate.bind fun right w _ hright => .spanFrom <| .pure ?_
    have hw := hright.past
    exact .of_covers (hleft.covers.append (hright.covers.follows hz)) rfl trivial (by omega)

theorem binaryOp?_gives : Gives t x binaryOp? fun _ y => y = x := by
  refine .get fun _ _ _ => ?_
  split <;> exact .pure rfl

/-- Left operands wait one behind the other, from an offset on up to the start of the operand that
follows them. -/
def Pending.Chain (t : Text) (start : Nat) : List Pending → Nat → Prop
  | [], next => start = next
  | top :: waiting, next =>
    ∃ stop, t.Clears stop next ∧ top.start ≤ stop ∧ top.left.Lies t top.start stop ∧
      Chain t start waiting top.start

/-- What has been read of a row of operations: operands that wait, and the one that follows them. -/
structure Operands (t : Text) (start stop : Nat) (waiting : List Pending) (next : Nat)
    (operand : Node) : Prop where
  chain : Pending.Chain t start waiting next
  le : next ≤ stop
  lies : operand.Lies t next stop
  leads : operand.Leads t next

theorem Operands.reduce {start stop next : Nat} {waiting : List Pending} {operand : Node}
    (h : Operands t start stop waiting next operand) (strength : Nat) :
    let r := reduce strength stop waiting next operand
    Operands t start stop r.1 r.2.1 r.2.2 := by
  fun_induction Parse.reduce strength stop waiting next operand
  case case1 => exact h
  case case2 top waiting next operand _ ih =>
    obtain ⟨⟨mid, hmid, htop, hleft, hchain⟩, hle, hlies, _⟩ := h
    have hle' := hmid.1
    have hfits := hleft.fits.append hlies.fits hmid (by omega)
    exact ih ⟨hchain, by omega, .of_fits rfl hfits trivial (by omega) (by omega), nofun⟩
  case case3 => exact h

theorem reduce_zero (stop next : Nat) (waiting : List Pending) (operand : Node) :
    (reduce 0 stop waiting next operand).1 = [] := by
  induction waiting generalizing next operand with
  | nil => rfl
  | cons top waiting ih => simp [reduce, ih]

/-- In the end a row of operations is one tree. -/
theorem Operands.lies_reduce_zero {start stop next : Nat} {waiting : List Pending}
    {operand : Node} (h : Operands t start stop waiting next operand) :
    let n := (Parse.reduce 0 stop waiting next operand).2.2
    n.Lies t start stop ∧ n.Leads t start := by
  have ⟨hchain, _, hlies, hleads⟩ := h.reduce 0
  rw [reduce_zero] at hchain
  exact hchain ▸ ⟨hlies, hleads⟩

theorem binary_gives (hd : d.Lawful t) : Gives t x (binary d) fun n y => n.Read t x y := by
  refine .here <| (power_gives hd).inherit.bind fun first y _ hfirst => ?_
  have hy := hfirst.past
  refine binaryOp?_gives.bind fun op? z _ hz => ?_
  subst hz
  cases op? with
  | none => exact .pure hfirst
  | some op =>
    refine advance_gives.bind fun _ w _ ⟨hw, _⟩ => .markValue <| .here ?_
    refine (power_gives hd).isolate.bind fun right v _ hright => ?_
    have hv := hright.past
    refine .iterate (I := fun r u => x.Past u ∧ Operands t x.next u.done r.1 r.2.1 r.2.2) ?_ ?_
    · intro ⟨waiting, next, operand⟩ u ⟨hu, hoperands⟩
      refine .get fun s _ hsu => ?_
      rw [show s.last.index = u.done from congrArg Spot.done hsu]
      refine binaryOp?_gives.bind fun op? u' _ hu' => ?_
      subst hu'
      cases op? with
      | none => exact .pure ⟨hu, hoperands.lies_reduce_zero.1, hoperands.lies_reduce_zero.2⟩
      | some op =>
        have ⟨hchain, hle, hlies, _⟩ := hoperands.reduce op.strength
        refine advance_gives.bind fun _ w _ ⟨hw, _⟩ => .here ?_
        have hmid : t.Clears u'.done w.next := hw.2.mono hu.2 hw.1.2
        refine (power_gives hd).isolate.bind fun right v _ hright => .pure ⟨?_, ?_, ?_, ?_, ?_⟩
        · have hv := hright.past
          omega
        · exact ⟨_, hmid, hle, hlies, hchain⟩
        · exact hright.past.1
        · exact hright.lies
        · exact hright.leads
    · have hmid : t.Clears z.done w.next := hw.2.mono hy.2 hw.1.2
      exact ⟨by omega, ⟨z.done, hmid, hy.1, hfirst.lies, rfl⟩, hv.1, hright.lies, hright.leads⟩

theorem conditional_gives (hd : d.Lawful t) :
    Gives t x (conditional d) fun n y => n.Read t x y := by
  refine .here <| (binary_gives hd).inherit.bind fun test y _ htest => ?_
  have hy := htest.past
  refine .choice (accept_gives _) (fun z hz => .get fun _ _ _ => .modifyContext ?_) (.pure htest)
  refine (hd.whole z).isolate.bind fun consequent w _ hconsequent => .modifyContext ?_
  have hw := hconsequent.past
  refine (expect_gives _).bind fun _ v _ hv =>
    (hd.whole v).isolate.bind fun alternate u _ halternate => ?_
  have hu := halternate.past
  have hfollows := (hconsequent.covers.follows hz).append (halternate.covers.follows hv)
  refine .markValue <| .spanFrom <| .pure ?_
  exact .of_covers (htest.covers.append hfollows) rfl trivial (by omega)

/-! ## Arrow functions -/

/-- A parameter keeps its place, also if `yield` in it is found to be a name. -/
theorem formal_gives (isAsync : Bool) (param : Node) :
    Gives t x (arrowFormals.formal isAsync param) fun n y =>
      y = x ∧ n.marks = param.marks ∧ n.span? = param.span? := by
  unfold arrowFormals.formal
  split
  · next argument =>
    refine .dite (fun _ => .absurd .refuseToken) fun hnone => .pure ?_
    obtain rfl : argument = none := by simpa using hnone
    exact ⟨rfl, rfl, rfl⟩
  · exact .guard .refuseToken (.pure ⟨rfl, rfl, rfl⟩)
  · exact .pure ⟨rfl, rfl, rfl⟩

theorem mapM_formal_gives (isAsync : Bool) (params : List Node) :
    Gives t x (params.mapM (arrowFormals.formal isAsync)) fun ns y =>
      y = x ∧ Node.marksOfAll ns = Node.marksOfAll params ∧
        ((∀ n ∈ params, n.span?.isSome) → ∀ n ∈ ns, n.span?.isSome) := by
  induction params with
  | nil => exact .pure ⟨rfl, rfl, id⟩
  | cons param params ih =>
    rw [List.mapM_cons]
    refine (formal_gives _ _).bind fun n y _ ⟨hy, hmarks, hspan⟩ => ?_
    subst hy
    refine ih.bind fun ns z _ ⟨hz, hmarks', hspan'⟩ => .pure ⟨hz, ?_, ?_⟩
    · rw [Node.marksOfAll_cons, Node.marksOfAll_cons, hmarks, hmarks']
    · simpa [hspan] using fun h hs => ⟨h, hspan' hs⟩

theorem arrowFormals_gives {e : Node} (he : e.Read t w x) :
    Gives t x (arrowFormals e) fun r y => y = x ∧
      match r with
      | some (ps, _) => Node.AllWhole t w x ps.params
      | none => e.span?.isSome := by
  have hformals {isAsync : Bool} {params : List Node} (hparams : Node.AllWhole t w x params) :
      Gives t x (arrowFormals.formals isAsync params) fun r y => y = x ∧
        match r with
        | some (ps, _) => Node.AllWhole t w x ps.params
        | none => e.span?.isSome := by
    refine (mapM_formal_gives _ _).bind fun ns y _ ⟨hy, hmarks, hspan⟩ => ?_
    subst hy
    have hns : Node.AllWhole t w y ns := ⟨hmarks ▸ hparams.covers, hspan hparams.spanned⟩
    refine .get fun _ _ _ => .ite (.guard .refuseToken ?checked) ?checked
    exact .guard .refuseHere <| .pure ⟨rfl, hns⟩
  unfold arrowFormals
  split
  · exact hformals (.single ⟨he, rfl⟩)
  · exact hformals ⟨he.covers, he.lies.shaped⟩
  · next hidentifier hlist => exact .pure ⟨rfl, he.lies.spanned hlist⟩

theorem arrowRest_gives (hd : d.Lawful t) {ps : Parameters} {isAsync : Bool}
    (hparams : Node.AllWhole t w x ps.params) :
    Gives t x (arrowRest d w.next ps isAsync) fun n y =>
      n.Whole t w y ∧ n.functionSpan? = some ⟨w.next, y.done⟩ := by
  have hx := hparams.covers.later
  refine .get fun _ _ _ => .guard .refuseToken <| .modifyContext <| .get fun _ _ _ => ?_
  refine .modifyContext <| (bodyFor_gives (Q := fun n y =>
    (∃ z, x.Later z ∧ n.Whole t z y) ∧ Follows t x y n.marks) ps ?_).bind
      fun body y _ ⟨⟨z, hz, hbody⟩, hfollows⟩ => ?_
  · refine (expect_gives _).bind fun _ z _ hz => .isAt fun _ => .ite ?_ ?_
    · refine .get fun _ _ _ => .modifyContext <|
        (functionBody_gives hd).bind fun n v _ ⟨hn, _⟩ => ?_
      exact .modifyContext <| .pure ⟨⟨z, .inr hz.1, hn⟩, hn.covers.follows hz⟩
    · exact (hd.whole z).isolate.mono fun n v _ hn => ⟨⟨z, .inr hz.1, hn⟩, hn.covers.follows hz⟩
  · have hy := hbody.past
    refine .spanFrom <| .modifyContext <| .bounded fun hlength => .pure ?_
    have hcovers := hparams.covers.append hfollows
    have hplaced := hbody.lies.isPlaced hbody.spanned
    have hstart := (hbody.lies.start_le hbody.spanned).1
    have hfits : Fits t w.next body.start (Node.marksOfAll ps.params) := by
      rcases hparams.covers.consumed with hnone | hpast
      · exact hnone ▸ .nil _ _ _
      · exact hparams.covers.fits.mono (by omega)
    have hdone : y.done ≤ t.length := by omega
    exact ⟨.of_covers hcovers rfl ⟨hparams.spanned, hfits, hdone, hplaced⟩ (by omega), rfl⟩

/-! ## Assignments -/

theorem isAtOperand_gives : Gives t x isAtOperand fun _ y => y = x := by
  refine .token fun _ _ => ?_
  split <;> exact .pure rfl

theorem yieldExpression_gives (hd : d.Lawful t) :
    Gives t x (yieldExpression d) fun n y => n.Whole t x y := by
  refine .here <| (expectKeyword_occupies _).bind fun _ y _ ⟨hy, hyield⟩ => ?_
  have hsuits : Mark.Suits ⟨⟨x.next, y.done⟩, .name, none⟩ t :=
    suits_name hyield (hyield.inside nofun)
  have hsingle (delegate : Bool) : (Node.yield ⟨x.next, y.done⟩ delegate none).Whole t x y :=
    .of_single hy.1 hsuits rfl rfl trivial
  refine .get fun _ _ _ => .ite (.spanFrom <| .pure (hsingle false)) ?_
  refine .get fun _ _ _ => .modifyContext <| (accept_gives _).bind fun isDelegate z hz hnone => ?_
  refine isAtOperand_gives.bind fun _ w _ hw => ?_
  subst hw
  refine .dite (fun _ => (hd.whole w).bind fun e v _ he => .pure_bind ?_) fun hno => .pure_bind ?_
  · have hv := he.past
    exact .modifyContext <| .spanFrom <| .pure <| .of_covers he.covers rfl trivial (by omega)
  · obtain rfl : w = y := by simpa [show isDelegate = false by simp_all] using hnone
    exact .modifyContext <| .spanFrom <| .pure (hsingle _)

theorem assignmentRest_gives (hd : d.Lawful t) {first : Token} {op : Option BinaryOp}
    {target : Node} (hfirst : first.span.start = w.next) (htarget : target.Read t w x) :
    Gives t x (assignmentRest d first op target) fun n y => n.Whole t w y := by
  have hx := htarget.past
  refine .get fun _ _ _ => .guard .refuseLine ?_
  extract_lets left perform rest
  have hleft : Covers t w x left.marks := by
    dsimp only [left]
    split
    · exact htarget.covers.sublist target.sublist_marks_asPattern
    · exact htarget.covers
  have hrest : Gives t x (rest ()) fun n y => n.Whole t w y := by
    refine .ite (.markValue ?next) ?next
    refine advance_gives.bind fun _ y _ ⟨hy, _⟩ =>
      (hd.whole y).isolate.bind fun right z _ hright => ?_
    have hz := hright.past
    have hcovers := hleft.append (hright.covers.follows hy)
    rw [hfirst]
    exact .spanFrom <| .modifyContext <| .pure <| .of_covers hcovers rfl trivial (by omega)
  clear_value rest
  refine .ite ?_ hrest
  split
  · exact .guard .refuseFor <| .guard .refuseFor hrest
  · exact hrest

theorem asyncParameter_gives (hd : d.Lawful t) {first : Token} {e : Node} (he : e.Read t w x) :
    Gives t x (asyncParameter d first e) fun n y => n.Read t w y := by
  have hx := he.past
  refine .fromToken fun s hs hsx => ?_
  subst hsx
  have hname (h : s.token.kind = .keyword .yield ∨ ∃ name, s.token.kind = .identifier name) :
      GivesFrom t s (do return Node.arrowParameters true [(← primary d).asPattern])
        fun n y => n.Read t w y := by
    refine (primary_givesFrom hd hs h).bind fun n y _ hn => .pure ?_
    have hy := hn.past
    exact arrowParameters_read (Node.AllWhole.single hn).map_asPattern (by omega)
  split
  · split
    · next name hkind => exact hname (.inr ⟨name, hkind⟩)
    · next hkind => exact hname (.inl hkind)
    · exact Gives.pure he s hs rfl
  · exact Gives.pure he s hs rfl

theorem assignment_gives (hd : d.Lawful t) : Gives t x (assignment d) fun n y => n.Whole t x y := by
  refine .get fun _ _ _ => .isAtKeyword fun _ => .ite (yieldExpression_gives hd) ?_
  refine .token fun first hfirst => (conditional_gives hd).bind fun e y _ he => ?_
  refine (asyncParameter_gives hd he).bind fun e z _ he => ?_
  extract_lets isList
  refine .isAt fun isArrow => .dite (fun _ => .markValue ?_) fun hlist => .token fun _ _ => ?_
  · refine (arrowFormals_gives he).bind fun r w _ ⟨hw, hr⟩ => ?_
    subst hw
    rw [hfirst]
    cases r with
    | some r => exact (arrowRest_gives hd hr).mono fun _ _ _ hn => hn.1
    | none => exact .pure ⟨he, hr⟩
  · split
    · exact assignmentRest_gives hd hfirst he
    · refine .pure ⟨he, he.lies.spanned ?_⟩
      rintro _ _ rfl
      exact hlist rfl

end Parse
end Elementwise
