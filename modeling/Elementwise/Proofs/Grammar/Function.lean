import Elementwise.Grammar.Function
import Elementwise.Proofs.Grammar.Binding

/-!
# The layout of functions

The contracts of the parsers of parameter lists, function bodies, methods and functions.  A function
has a body with a span, and parameters with a span, which is what makes it possible to flatten it.
-/

set_option autoImplicit false
namespace Elementwise

/-- The span of a function. -/
def Node.functionSpan? : Node → Option Span
  | function s .. | arrow s .. => some s
  | _ => none

namespace Parse

variable {t : Text} {x y z w : Spot} {d : Deeper}

/-! ## Parameters -/

theorem formalParameters_gives (hd : d.Lawful t) (names : Names) :
    Gives t x (formalParameters d names) fun ps y =>
      Enclosed t x y (Node.marksOfAll ps.params) ∧ (∀ n ∈ ps.params, n.span?.isSome) ∧
        t[x.next]? = some '(' := by
  refine (expect_symbol .leftParen '(' rfl nofun).bind fun _ y _ ⟨hy, hparen, _⟩ =>
    .isAt fun _ => ?_
  refine .ite
    (.bind (Q := fun ps z => Closed t y z (Node.marksOfAll ps.params) ∧
      ∀ n ∈ ps.params, n.span?.isSome) (.pure ⟨.nil (.refl y), nofun⟩) ?close)
    (.bind (.iterate (I := fun r z => Closed t y z (Node.marksOfAll r.1.reverse) ∧
      ∀ n ∈ r.1.reverse, n.span?.isSome) ?turn ⟨.nil (.refl y), nofun⟩) ?close)
  case close =>
    intro ps z hz ⟨hparams, hspanned⟩
    exact (expect_gives _).bind fun _ w _ hw =>
      .pure ⟨⟨y, hy, hparams.mono (by omega)⟩, hspanned, hparen⟩
  case turn =>
    intro ⟨params, names⟩ z ⟨hparams, hspanned⟩
    refine .isAtEnd fun _ _ => .ite (.pure ⟨hparams, hspanned⟩) <| .isAt fun _ => ?_
    refine .ite ((restParameter_gives hd).bind ?param)
      ((withDefault_gives hd fun _ => bindingPattern_gives hd none).bind ?param)
    intro ⟨param, tokens⟩ w _ hparam
    obtain ⟨hcovers, hspanned⟩ := Node.AllWhole.snoc hparams hspanned hparam (.refl z)
    refine .get fun _ _ _ =>
      .isAtOr nofun (fun hclose => .pure ⟨hcovers.closed_of_ne hclose, hspanned⟩) ?_
    refine (expect_gives _).bind fun _ v _ hv => .isAt fun _ => ?_
    have hnext := hcovers.closed hv
    exact .ite (.pure ⟨hnext, hspanned⟩) (.pure ⟨hnext, hspanned⟩)

/-! ## Bodies -/

theorem expression_gives (hd : d.Lawful t) :
    Gives t x (expression d) fun n y => n.Whole t x y := by
  refine .here <| (hd.whole x).isolate.bind fun first y _ hfirst => .isAt fun _ => ?_
  refine .ite ((Gives.collectFollowing (P := fun n => n.span?.isSome) fun z => ?_).bind ?_)
    (.pure hfirst)
  · refine .choice (accept_gives _) (fun w hw => ?_) (.pure ⟨fun _ => rfl, nofun⟩)
    refine (hd.whole w).isolate.bind fun e v _ he => .pure ⟨nofun, ?_⟩
    rintro _ ⟨⟩
    exact ⟨he.covers.follows hw, he.spanned⟩
  · intro others z hz ⟨hothers, hspanned⟩
    have hy := hfirst.past
    refine .spanFrom <| .pure <| .of_covers (hfirst.covers.append hothers) rfl ?_ (by omega)
    exact List.forall_mem_cons.2 ⟨hfirst.spanned, hspanned⟩

/-- A string that is a statement may be a directive that is spelled as the string is. -/
theorem covers_directive {e : Node} {s : Span} {v spelling : Text} {i : Nat}
    {directive : Option Text} (he : e.Whole t x y) (hquotes : t.Quotes ⟨x.next, i⟩ v spelling)
    (hdirective : ∀ r ∈ directive, r = spelling) :
    Covers t x y (Node.expression s e directive).marks := by
  cases directive with
  | none => exact he.covers
  | some r =>
    obtain rfl := hdirective r rfl
    cases e
    case literal q value =>
      cases value
      case string w =>
        obtain ⟨hwithin, -, hsuited, -⟩ := he.lies.fits
        have hsuits := hsuited _ List.mem_cons_self
        obtain ⟨spelling, hstands, -⟩ := hsuits.string _ rfl
        have hstart := he.leads q w rfl hquotes.startsString
        obtain ⟨-, rfl⟩ := hquotes.unique hstands hstart.symm
        refine ⟨.inr he.past, .single (hwithin _ List.mem_cons_self) ?_, .inr he.past⟩
        refine ⟨hsuits.nonempty, nofun, nofun, ?_, trivial⟩
        rintro _ ⟨⟩
        exact ⟨r, hstands, fun _ h => (Option.some.inj h).symm⟩
      all_goals exact he.covers
    all_goals exact he.covers

theorem directive_gives (hd : d.Lawful t) {v spelling : Text} {i : Nat}
    (hquotes : t.Quotes ⟨x.next, i⟩ v spelling) :
    Gives t x (directive d spelling) fun r y => r.1.Sealed t x y := by
  refine .here <| (expression_gives hd).bind fun e y _ he => ?_
  have hy := he.past
  refine (endStatement_gives hy).bind fun _ z hz ⟨hz', _, hclear⟩ => .spanFrom <| .pure ?_
  refine .of_closed ((covers_directive he hquotes ?_).closed_of_clears hz hclear) rfl he.lies.shaped
    (by omega)
  split
  · split <;> simp
  · nofun

theorem directives_gives (hd : d.Lawful t) :
    Gives t x (directives d) fun ns y =>
      Closed t x y (Node.marksOfAll ns) ∧ ∀ n ∈ ns, n.IsShaped t := by
  refine .iterate (I := fun r y => Closed t x y (Node.marksOfAll r.1.reverse) ∧
    ∀ n ∈ r.1.reverse, n.IsShaped t) ?_ ⟨.nil (by omega), by simp⟩
  intro ⟨statements, octal⟩ y ⟨hstatements, hshaped⟩
  refine .tokenOccupies fun a ⟨_, ha⟩ => ?_
  split
  · next hkind =>
    refine (directive_gives hd (ha.string _ _ _ hkind)).bind
      fun ⟨statement, text?⟩ z _ hstatement => ?_
    have hz := hstatement.past
    have hnext : Closed t x z (Node.marksOfAll (statement :: statements).reverse) ∧
        ∀ n ∈ (statement :: statements).reverse, n.IsShaped t := by
      refine ⟨hstatements.snoc_closed hstatement.closed (by omega), ?_⟩
      rw [List.reverse_cons]
      exact List.forall_mem_append.2
        ⟨hshaped, List.forall_mem_singleton.2 hstatement.lies.shaped⟩
    dsimp only
    split
    · exact .pure hnext
    · refine .ite (.modifyContext ?_) (.pure hnext)
      split
      · exact .absurd .refuseFor
      · exact .get fun _ _ _ => .guard .refuseFor (.pure hnext)
  · exact .pure ⟨hstatements, hshaped⟩

theorem functionBody_gives (hd : d.Lawful t) :
    Gives t x (functionBody d) fun n y => n.Whole t x y ∧ Enclosed t x y n.marks := by
  refine .here <| (expect_gives _).bind fun _ y _ hy => ?_
  refine (directives_gives hd).bind fun front z hz ⟨hfront, _⟩ =>
    .get fun _ _ _ => .modifyContext ?_
  refine (Gives.collectNodes fun w => ?_).bind fun statements v hv hstatements => ?_
  · refine .isAtEnd fun _ _ => .isAt fun _ => .ite (.pure (by simp)) ?_
    refine (hd.item w).bind fun n v _ hn => .pure ?_
    rintro _ ⟨⟩
    exact hn.closed
  · refine (expect_gives _).bind fun _ u _ hu => .modifyContext <| .spanFrom <| .pure ?_
    have hclosed : Closed t y v (Node.marksOfAll (front ++ statements)) := by
      rw [Node.marksOfAll_append]
      exact hfront.append_closed hstatements (by omega)
    exact ⟨.of_covers hclosed.toCovers rfl trivial (by omega), y, hy, hclosed.mono (by omega)⟩

theorem Names.check_gives (n : Names) : Gives t x n.check fun _ y => y = x := by
  have hrefuse (b : Blame) (cause : Fault) :
      Gives t x (b.refuse cause : Parse PUnit) fun _ _ => False := by
    cases b
    · exact .refuseFor
    · exact .refuseHere
  refine .get fun _ _ _ => .ite ?_ (.pure rfl)
  dsimp only
  split
  · exact .absurd (hrefuse _ _)
  · split
    · exact (hrefuse _ _).mono fun _ _ _ h => h.elim
    · exact .pure rfl

theorem bodyFor_gives (ps : Parameters) {body : Parse Node} {Q : Node → Spot → Prop}
    (hbody : Gives t x body Q) : Gives t x (bodyFor ps body) Q := by
  refine .get fun _ _ _ => .modifyContext <| hbody.bind fun n y _ hn => ?_
  exact (Names.check_gives _).bind fun _ z _ hz => .modifyContext <| .pure (hz ▸ hn)

/-! ## Methods and functions -/

theorem methodBody_gives (hd : d.Lawful t) (ps : Parameters) :
    Gives t x (methodBody d ps) fun n y => n.Whole t x y ∧ Enclosed t x y n.marks :=
  .markValue <| bodyFor_gives ps (functionBody_gives hd).isolate

/-- A function with a name, parameters and a body. -/
theorem function_whole {isDeclaration isAsync isGenerator : Bool} {id : Option Node}
    {params : List Node} {body : Node} (hid : Covers t x y (Node.marksOf? id))
    (hparams : Enclosed t y z (Node.marksOfAll params)) (hspanned : ∀ n ∈ params, n.span?.isSome)
    (hbody : body.Whole t z w ∧ Enclosed t z w body.marks) (hlength : w.next ≤ t.length) :
    let n := Node.function ⟨x.next, w.done⟩ isDeclaration isAsync isGenerator id params body
    n.Whole t x w ∧ n.Sealed t x w := by
  obtain ⟨hwhole, hbody⟩ := hbody
  have hpast := hwhole.past
  have hxy := hid.later
  have hyz := hparams.past
  have hclosed := hid.append_enclosed (hparams.append hbody)
  have hplaced := hwhole.lies.isPlaced hwhole.spanned
  have hstart := (hwhole.lies.start_le hwhole.spanned).1
  have hfits := hparams.closed.fits.mono (show x.next ≤ y.next ∧ z.done ≤ body.start by omega)
  intro n
  have hdone : w.done ≤ t.length := by omega
  have hn : n.Whole t x w :=
    .of_covers hclosed.toCovers rfl ⟨hspanned, hfits, hdone, hplaced⟩ (by omega)
  exact ⟨hn, hn.toRead, hclosed⟩

/-- A method has been read, which is a function without a name that begins with a parenthesis. -/
structure IsMethod (t : Text) (x y : Spot) (n : Node) : Prop where
  whole : n.Whole t x y
  enclosed : Enclosed t x y n.marks
  valueAt : Node.ValueAt t x.next y.done true n
  start : n.start = x.next

/-- Where a method begins, and what tells that it is one. -/
theorem IsMethod.entry {n : Node} (h : IsMethod t x y n) (isMethod : Bool) :
    x.next ≤ n.entry isMethod ∧ n.entry isMethod ≤ y.done ∧
      ∀ m ∈ n.marks, n.entry isMethod ≤ m.span.start := by
  obtain ⟨-, -, ⟨-, -, hle, hbehind⟩, hstart⟩ := h
  have hentry : x.next ≤ n.entry isMethod ∧ n.entry isMethod ≤ n.entry true := by
    cases isMethod <;> simp [Node.entry, hstart]
  exact ⟨hentry.1, Nat.le_trans hentry.2 hle, fun m hm => Nat.le_trans hentry.2 (hbehind m hm)⟩

theorem method_gives (hd : d.Lawful t) (form : MethodForm) {accepts : Parameters → Parse Unit}
    (haccepts : ∀ ps x, Gives t x (accepts ps) fun _ y => y = x) :
    Gives t x (method d form accepts) fun n y => IsMethod t x y n := by
  refine .here <| .get fun _ _ _ => .modifyContext ?_
  refine (formalParameters_gives hd _).bind fun ps y _ ⟨hparams, hspanned, hparen⟩ => ?_
  refine (haccepts ps y).bind fun _ z _ hz => ?_
  subst hz
  refine .ite (.modifyContext ?rest) ?rest
  refine (methodBody_gives hd ps).bind fun body w _ hbody => .modifyContext <| .spanFrom ?_
  have henclosed := hparams.append hbody.2
  obtain ⟨hlt, hmarks⟩ := henclosed.lt hparen
  refine .bounded fun hlength => .pure ⟨?_, henclosed, ⟨hparen, ?_, hlt, hmarks⟩, rfl⟩
  · exact (function_whole (.nil (.refl x)) hparams hspanned hbody hlength).1
  · exact Nat.lt_succ_self x.next

theorem plainMethod_gives (hd : d.Lawful t) :
    Gives t x (plainMethod d) fun n y => IsMethod t x y n :=
  method_gives hd _ fun _ _ => .pure rfl

theorem getter_gives (hd : d.Lawful t) :
    Gives t x (getter d) fun n y => IsMethod t x y n :=
  method_gives hd _ fun _ _ => .ite (.pure rfl) .refuseLine

theorem setter_gives (hd : d.Lawful t) :
    Gives t x (setter d) fun n y => IsMethod t x y n := by
  refine method_gives hd _ fun ps x => ?_
  split
  · exact .refuseLine
  · exact .pure rfl
  · exact .refuseLine

theorem functionName_gives {name : Parse Node}
    (hname : Gives t x name fun n y => n.Whole t x y) :
    Gives t x (functionName name) fun r y => r.1.Whole t x y := by
  refine .token fun a _ => hname.bind fun id y _ hid => .get fun _ _ _ => ?_
  refine .ite (.guard .refuseFor (.pure hid)) ?_
  exact .ite (.pure hid) <| .ite (.pure hid) (.pure hid)

theorem isAtAsyncFunction_gives : Gives t x isAtAsyncFunction fun _ y => y = x :=
  .isAtName fun _ => .ite (.get fun _ _ _ => peek_gives.bind fun _ _ _ h => .pure h) (.pure rfl)

theorem functionHead_gives : Gives t x functionHead fun _ y => x.Past y := by
  refine .isAtName fun isAsync => ?_
  have hword {y : Spot} (hy : x.Later y) : Gives t y (do
      expectKeyword .function
      let isGenerator ← if isAsync then pure false else accept (.operator .times)
      return (isAsync, isGenerator)) fun _ z => x.Past z := by
    refine (expectKeyword_gives _).bind fun _ z _ hz => .ite (.pure_bind <| .pure (by omega)) ?_
    exact (accept_gives _).bind fun _ w hw _ => .pure (by omega)
  exact .ite (advance_gives.bind fun _ _ _ hy => hword (.inr hy.1.1)) (hword (.refl x))

theorem inFunctionContext_gives {α : Type} {isAsync isGenerator : Bool} {p : Parse α}
    {Q : α → Spot → Prop} (h : Gives t x p Q) :
    Gives t x (inFunctionContext isAsync isGenerator p) Q :=
  .get fun _ _ _ => .modifyContext <| h.bind fun _ _ _ ha => .modifyContext (.pure ha)

theorem functionRest_gives (hd : d.Lawful t) (names : Names) :
    Gives t x (functionRest d names) fun r z =>
      ∃ y, Enclosed t x y (Node.marksOfAll r.1) ∧ (∀ n ∈ r.1, n.span?.isSome) ∧
        r.2.Whole t y z ∧ Enclosed t y z r.2.marks := by
  refine (formalParameters_gives hd _).bind fun ps y _ ⟨hparams, hspanned, _⟩ => ?_
  exact (bodyFor_gives ps (functionBody_gives hd)).bind fun body z _ hbody =>
    .pure ⟨y, hparams, hspanned, hbody⟩

theorem functionDeclaration_gives (hd : d.Lawful t) :
    Gives t x (functionDeclaration d) fun n y => n.Sealed t x y := by
  refine .here <| functionHead_gives.bind fun ⟨isAsync, isGenerator⟩ y _ hy => ?_
  refine (functionName_gives (bindingIdentifier_gives none)).bind fun ⟨id, names⟩ z _ hid => ?_
  refine (inFunctionContext_gives (functionRest_gives hd names)).bind ?_
  intro ⟨params, body⟩ w _ ⟨v, hparams, hspanned, hbody⟩
  have hz := hid.past
  refine .spanFrom <| .bounded fun hlength => .pure ?_
  have hid : Covers t x z (Node.marksOf? (some id)) := hid.covers.mono (by omega)
  exact (function_whole hid hparams hspanned hbody hlength).2

theorem functionExpression_gives (hd : d.Lawful t) :
    Gives t x (functionExpression d) fun n y =>
      n.Whole t x y ∧ n.functionSpan? = some ⟨x.next, y.done⟩ := by
  refine .here <| functionHead_gives.bind fun ⟨isAsync, isGenerator⟩ y _ hy => ?_
  refine (inFunctionContext_gives (Q := fun r w => ∃ z v, Covers t y z (Node.marksOf? r.1) ∧
    Enclosed t z v (Node.marksOfAll r.2.1) ∧ (∀ n ∈ r.2.1, n.span?.isSome) ∧
      r.2.2.Whole t v w ∧ Enclosed t v w r.2.2.marks) ?_).bind ?_
  · have hrest {z : Spot} (id : Option Node) (names : Names)
        (hid : Covers t y z (Node.marksOf? id)) :
        Gives t z (do
          let r ← functionRest d names
          return (id, r.1, r.2)) fun r w => ∃ z v, Covers t y z (Node.marksOf? r.1) ∧
            Enclosed t z v (Node.marksOfAll r.2.1) ∧ (∀ n ∈ r.2.1, n.span?.isSome) ∧
              r.2.2.Whole t v w ∧ Enclosed t v w r.2.2.marks :=
      (functionRest_gives hd names).bind fun ⟨params, body⟩ w _ ⟨v, hparams⟩ =>
        .pure ⟨z, v, hid, hparams⟩
    refine .isAt fun _ => .ite (.pure_bind <| hrest none {} (.nil (.refl y))) ?_
    refine .get fun _ _ _ => .isAtKeyword fun _ => ?_
    refine (functionName_gives ?_).bind fun ⟨id, names⟩ z _ hid => ?_
    · exact .ite identifierName_gives (bindingIdentifier_gives none)
    · exact .pure_bind <| hrest (some id) names hid.covers
  · intro ⟨id, params, body⟩ w _ ⟨z, v, hid, hparams, hspanned, hbody⟩
    refine .spanFrom <| .bounded fun hlength => .pure ?_
    exact ⟨(function_whole (hid.mono (by omega)) hparams hspanned hbody hlength).1, rfl⟩

end Parse
end Elementwise
