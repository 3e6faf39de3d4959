import Elementwise.Grammar.Statement
import Elementwise.Proofs.Grammar.Expression

/-!
# The layout of statements

The contracts of the parsers of declarations and statements.  A statement may end before the next
token begins or reach up to it, but its end is never past that token.
-/

set_option autoImplicit false
namespace Elementwise
namespace Parse

variable {t : Text} {x y z w : Spot} {d : Deeper}

/-! ## Blocks and simple statements -/

theorem block_gives (hd : d.Lawful t) : Gives t x (block d) fun n y => n.Sealed t x y := by
  refine .here <| (expect_gives _).bind fun _ y _ hy => ?_
  refine (Gives.collectNodes fun z => ?_).bind fun body z hz hbody => ?_
  · refine .isAt fun _ => .ite (.pure (by simp)) <| (hd.item z).bind fun n w _ hn => .pure ?_
    rintro _ ⟨⟩
    exact hn.closed
  · refine (expect_gives _).bind fun _ w _ hw => .spanFrom <| .pure ?_
    exact .of_closed hbody rfl trivial (by omega)

/-- An expression up to the end of its statement. -/
theorem expressionEnd_gives {e : Node} (he : e.Whole t w x) :
    Gives t x (do
      endStatement
      return Node.expression (← spanFrom w.next) e none) fun n y => n.Sealed t w y := by
  have hx := he.past
  refine (endStatement_gives hx).bind fun _ y hy ⟨hy', _, hclear⟩ => .spanFrom <| .pure ?_
  exact .of_closed (he.covers.closed_of_clears hy hclear) rfl he.lies.shaped (by omega)

theorem expressionStatement_gives (hd : d.Lawful t) :
    Gives t x (expressionStatement d) fun n y => n.Sealed t x y :=
  .here <| (expression_gives hd).bind fun _ _ _ he => expressionEnd_gives he

theorem emptyStatement_gives : Gives t x emptyStatement fun n y => n.Sealed t x y := by
  refine .here <| (expect_gives _).bind fun _ y _ hy => .spanFrom <| .pure ?_
  exact .of_closed (.nil (.refl y)) rfl trivial (by omega)

theorem debuggerStatement_gives : Gives t x debuggerStatement fun n y => n.Sealed t x y := by
  refine .here <| (expectKeyword_gives _).bind fun _ y _ hy => ?_
  refine (endStatement_gives hy.1).bind fun _ z _ hz => .spanFrom <| .pure ?_
  exact .of_closed (.nil (.refl z)) rfl trivial (by omega)

/-- An expression in parentheses. -/
theorem condition_gives (hd : d.Lawful t) :
    Gives t x (condition d) fun n y => Closed t x y n.marks ∧ x.Past y := by
  refine (expect_gives _).bind fun _ y _ hy => (expression_gives hd).bind fun e z _ he => ?_
  have hz := he.past
  refine (expect_gives _).bind fun _ w _ hw => .pure ⟨?_, by omega⟩
  exact (he.covers.closed hw).mono (by omega)

/-! ## Declarations -/

theorem checkVariable_gives (id : Node) : Gives t x (checkVariable id) fun _ y => y = x :=
  .get fun _ _ _ => .ite .refuseLine (.pure rfl)

theorem initializer_gives (hd : d.Lawful t) :
    Gives t x (initializer d) fun init y => Covers t x y (Node.marksOf? init) :=
  (hd.whole x).isolate.bind fun _ _ _ he => .pure he.covers

/-- A binding with its initial value, if it has one. -/
theorem declarator_read {id : Node} {init : Option Node} (hid : id.Whole t x y)
    (hinit : Follows t y z (Node.marksOf? init)) :
    (Node.declarator ⟨x.next, z.done⟩ id init).Read t x z := by
  have hy := hid.past
  have hz := hinit.covers.later
  exact .of_covers (hid.covers.append hinit) rfl trivial (by omega)

theorem lexicalBinding_gives (hd : d.Lawful t) (kind : VariableKind) (inFor : Bool) :
    Gives t x (lexicalBinding d kind inFor) fun n y => n.Read t x y := by
  refine .here <| (bindingPattern_gives hd _).bind fun ⟨id, _⟩ y _ hid => ?_
  refine (checkVariable_gives _).bind fun _ z _ hz => ?_
  subst hz
  extract_lets rest
  have hrest {w : Spot} (init : Option Node) (hinit : Follows t z w (Node.marksOf? init)) :
      Gives t w (rest init) fun n y => n.Read t x y :=
    .spanFrom <| .pure <| declarator_read hid hinit
  clear_value rest
  have hnone : Gives t z (do rest (← pure none)) fun n y => n.Read t x y :=
    .pure_bind <| hrest none (.inl ⟨rfl, rfl⟩)
  have hinit {w : Spot} (hw : z.Consumes t w) : Gives t w (do rest (← initializer d))
      fun n y => n.Read t x y :=
    (initializer_gives hd).bind fun init v _ hinit => hrest init (hinit.follows hw)
  refine .isAt fun _ => .ite (.isAtKeyword fun _ => .isAtName fun _ => ?_) ?_
  · exact .ite hnone <| .choice (accept_gives _) (fun w hw => hinit hw) (.absurd .refuseHere)
  · exact .ite ((expect_gives _).bind fun _ w _ hw => hinit hw) hnone

theorem variableBinding_gives (hd : d.Lawful t) (inFor : Bool) :
    Gives t x (variableBinding d inFor) fun n y => n.Read t x y := by
  refine .here <| (bindingPattern_gives hd _).bind fun ⟨id, _⟩ y _ hid => ?_
  refine (checkVariable_gives _).bind fun _ z _ hz => ?_
  subst hz
  extract_lets rest
  have hrest {w : Spot} (init : Option Node) (hinit : Follows t z w (Node.marksOf? init)) :
      Gives t w (rest init) fun n y => n.Read t x y :=
    .spanFrom <| .pure <| declarator_read hid hinit
  clear_value rest
  have hnone {w : Spot} (hw : Follows t z w []) : Gives t w (do rest (← pure none))
      fun n y => n.Read t x y := .pure_bind <| hrest none hw
  refine .choice (accept_gives _) (fun w hw => ?_) <| .ite ?_ (hnone (.inl ⟨rfl, rfl⟩))
  · exact (initializer_gives hd).bind fun init v _ hinit => hrest init (hinit.follows hw)
  · exact (expect_gives _).bind fun _ v _ hv => hnone (.inr ⟨v, hv, .nil (.refl v)⟩)

theorem bindings_gives {binding : Parse Node}
    (hbinding : ∀ x, Gives t x binding fun n y => n.Read t x y) :
    Gives t x (bindings d binding) fun ns y => x.Past y ∧ Covers t x y (Node.marksOfAll ns) := by
  refine (hbinding x).bind fun first y _ hfirst => ?_
  have hy := hfirst.past
  refine (Gives.collectFollowing (P := fun _ => True) fun z => ?_).bind
    fun others z hz ⟨hothers, _⟩ => .pure ⟨by omega, hfirst.covers.append hothers⟩
  refine .choice (accept_gives _) (fun w hw => ?_) (.pure ⟨fun _ => rfl, nofun⟩)
  refine (hbinding w).bind fun n v _ hn => .pure ⟨nofun, ?_⟩
  rintro _ ⟨⟩
  exact ⟨hn.covers.follows hw, trivial⟩

/-- Bindings up to the end of their declaration. -/
theorem declarationEnd_gives {kind : VariableKind} {ns : List Node} (hwx : w.Past x)
    (hns : Covers t w x (Node.marksOfAll ns)) :
    Gives t x (do
      endStatement
      return Node.declaration (← spanFrom w.next) kind ns) fun n y => n.Sealed t w y := by
  refine (endStatement_gives hwx).bind fun _ y hy ⟨hy', _, hclear⟩ => .spanFrom <| .pure ?_
  exact .of_closed (hns.closed_of_clears hy hclear) rfl trivial (by omega)

theorem variableStatement_gives (hd : d.Lawful t) :
    Gives t x (variableStatement d) fun n y => n.Sealed t x y := by
  refine .here <| (expectKeyword_gives _).bind fun _ y _ hy => ?_
  refine (bindings_gives fun _ => variableBinding_gives hd false).bind fun ns z _ ⟨hz, hns⟩ => ?_
  exact declarationEnd_gives (by omega) (hns.mono (by omega))

theorem lexicalDeclaration_gives (hd : d.Lawful t) (kind : VariableKind) :
    Gives t x (lexicalDeclaration d kind) fun n y => n.Sealed t x y := by
  refine .here <| advance_gives.bind fun _ y _ ⟨hy, _⟩ => ?_
  refine (bindings_gives fun _ => lexicalBinding_gives hd kind false).bind
    fun ns z _ ⟨hz, hns⟩ => ?_
  exact declarationEnd_gives (by omega) (hns.mono (by omega))

theorem isAtLexicalDeclaration_gives : Gives t x isAtLexicalDeclaration fun _ y => y = x := by
  refine peek_gives.bind fun _ y _ hy => ?_
  split <;> exact .pure hy

/-! ## Branches -/

theorem branch_gives (hd : d.Lawful t) : Gives t x (branch d) fun n y => n.Sealed t x y :=
  .get fun _ _ _ => .isAtKeyword fun _ => .guard .refuseLine (hd.statement x)

theorem ifStatement_gives (hd : d.Lawful t) :
    Gives t x (ifStatement d) fun n y => n.Sealed t x y := by
  refine .here <| (expectKeyword_gives _).bind fun _ y _ hy => ?_
  refine (condition_gives hd).bind fun test z _ ⟨htest, hz⟩ => ?_
  refine (branch_gives hd).bind fun consequent w _ hconsequent => ?_
  have hw := hconsequent.past
  extract_lets rest
  have hrest {v : Spot} (alternate : Option Node)
      (halternate : Closed t w v (Node.marksOf? alternate)) :
      Gives t v (rest alternate) fun n y => n.Sealed t x y := by
    have hv := halternate.later
    have hboth := hconsequent.closed.append_closed halternate (.refl w)
    exact .spanFrom <| .pure <|
      .of_closed (htest.append_closed hboth (.refl z)) rfl trivial (by omega)
  clear_value rest
  refine .choice (acceptKeyword_gives _) (fun v hv => ?_)
    (.pure_bind <| hrest none (.nil (.refl w)))
  refine (branch_gives hd).bind fun n u _ hn => .pure_bind <| hrest (some n) ?_
  exact hn.closed.mono (by omega)

theorem switchCase_gives (hd : d.Lawful t) :
    Gives t x (switchCase d) fun r y => r.1.Sealed t x y := by
  refine .here ?_
  extract_lets rest
  have hrest {y : Spot} (test : Option Node) (htest : Covers t x y (Node.marksOf? test)) :
      Gives t y (rest test) fun r z => r.1.Sealed t x z := by
    have hy := htest.later
    refine (expect_gives _).bind fun _ z _ hz => (Gives.collectNodes fun w => ?_).bind ?_
    · refine .isAt fun _ => .isAtKeyword fun _ => .isAtKeyword fun _ => .ite (.pure (by simp)) ?_
      refine (hd.item w).bind fun n v _ hn => .pure ?_
      rintro _ ⟨⟩
      exact hn.closed
    · intro consequent w hw hconsequent
      have hclosed := (htest.closed hz).append_closed hconsequent (.refl z)
      exact .spanFrom <| .pure <| .of_closed hclosed rfl trivial (by omega)
  clear_value rest
  refine (acceptKeyword_gives _).bind fun _ y hy _ => .ite (.pure_bind <| hrest none (.nil hy)) ?_
  refine (expectKeyword_gives _).bind fun _ z _ hz => ?_
  refine (expression_gives hd).bind fun e w _ he => .pure_bind <| hrest (some e) ?_
  exact he.covers.mono (by omega)

theorem switchStatement_gives (hd : d.Lawful t) :
    Gives t x (switchStatement d) fun n y => n.Sealed t x y := by
  refine .here <| (expectKeyword_gives _).bind fun _ y _ hy => ?_
  refine (condition_gives hd).bind fun discriminant z _ ⟨hdiscriminant, hz⟩ => ?_
  refine .get fun _ _ _ => .modifyContext <| (expect_gives _).bind fun _ w _ hw => ?_
  refine (Gives.iterate (I := fun r v => Closed t w v (Node.marksOfAll r.1.reverse))
    (R := fun ns v => Closed t w v (Node.marksOfAll ns)) ?_ (.nil (.refl w))).bind
      fun cases v _ hcases => ?_
  · intro ⟨cases, hasDefault⟩ v hcases
    refine .isAt fun _ => .ite (.pure hcases) <| (switchCase_gives hd).bind fun r u _ hr => ?_
    exact .guard .refuseHere <| .pure <| hcases.snoc_closed hr.closed (.refl v)
  · have hv := hcases.later
    refine (expect_gives _).bind fun _ u _ hu => .modifyContext <| .spanFrom <| .pure ?_
    exact .of_closed (hdiscriminant.append_closed hcases (by omega)) rfl trivial (by omega)

/-! ## Loops -/

theorem loopBody_gives {body : Parse Node} {Q : Node → Spot → Prop} (hbody : Gives t x body Q) :
    Gives t x (loopBody body) Q :=
  .get fun _ _ _ => .modifyContext <| hbody.bind fun _ _ _ hn => .modifyContext <| .pure hn

theorem doWhileStatement_gives (hd : d.Lawful t) :
    Gives t x (doWhileStatement d) fun n y => n.Sealed t x y := by
  refine .here <| (expectKeyword_gives _).bind fun _ y _ hy => ?_
  refine (loopBody_gives (hd.statement y)).bind fun body z _ hbody => ?_
  have hz := hbody.past
  refine (expectKeyword_gives _).bind fun _ w _ hw => ?_
  refine (condition_gives hd).bind fun test v _ ⟨htest, hv⟩ => ?_
  refine (accept_gives _).bind fun _ u hu _ => .spanFrom <| .pure ?_
  exact .of_closed (hbody.closed.append_closed htest (by omega)) rfl trivial (by omega)

theorem whileStatement_gives (hd : d.Lawful t) :
    Gives t x (whileStatement d) fun n y => n.Sealed t x y := by
  refine .here <| (expectKeyword_gives _).bind fun _ y _ hy => ?_
  refine (condition_gives hd).bind fun test z _ ⟨htest, hz⟩ => ?_
  refine (loopBody_gives (hd.statement z)).bind fun body w _ hbody => .spanFrom <| .pure ?_
  have hw := hbody.past
  exact .of_closed (htest.append_closed hbody.closed (.refl z)) rfl trivial (by omega)

/-- The marks of what the parentheses of a `for` loop hold. -/
def ForHead.marks : ForHead → List Mark
  | counting init test update => Node.marksOf? init ++ (Node.marksOf? test ++ Node.marksOf? update)
  | inKeys left right | ofValues left right => left.marks ++ right.marks

theorem withoutIn_gives {α : Type} {p : Parse α} {Q : α → Spot → Prop} (h : Gives t x p Q) :
    Gives t x (withoutIn p) Q :=
  .get fun _ _ _ => .modifyContext <| h.bind fun _ _ _ ha => .modifyContext <| .pure ha

theorem inKeys_gives (hd : d.Lawful t) {left : Node} (hleft : Covers t w x left.marks) :
    Gives t x (inKeys d left) fun head y => Covers t w y head.marks :=
  advance_gives.bind fun _ _ _ ⟨hy, _⟩ => (expression_gives hd).bind fun _ _ _ he =>
    .pure (hleft.append (he.covers.follows hy))

theorem ofValues_gives (hd : d.Lawful t) {left : Node} (hleft : Covers t w x left.marks) :
    Gives t x (ofValues d left) fun head y => Covers t w y head.marks :=
  advance_gives.bind fun _ y _ ⟨hy, _⟩ => (hd.whole y).bind fun _ _ _ he =>
    .pure (hleft.append (he.covers.follows hy))

theorem counting_gives (hd : d.Lawful t) {init : Option Node}
    (hinit : Closed t w x (Node.marksOf? init)) :
    Gives t x (counting d init) fun head y => Covers t w y head.marks := by
  refine .isAt fun _ => ?_
  extract_lets rest
  have hrest {y : Spot} (test : Option Node) (htest : Covers t x y (Node.marksOf? test)) :
      Gives t y (rest test) fun head z => Covers t w z head.marks := by
    refine (expect_gives _).bind fun _ z _ hz => .isAt fun _ => ?_
    have hmore {v : Spot} (update : Option Node) (hupdate : Covers t z v (Node.marksOf? update)) :
        Covers t w v (ForHead.counting init test update).marks :=
      hinit.append ((htest.closed hz).append hupdate (.refl z)) (.refl x)
    refine .ite (.pure_bind <| .pure <| hmore none (.nil (.refl z))) ?_
    exact (expression_gives hd).bind fun e _ _ he =>
      .pure_bind <| .pure <| hmore (some e) he.covers
  clear_value rest
  refine .ite (.pure_bind <| hrest none (.nil (.refl x))) ?_
  exact (expression_gives hd).bind fun e y _ he => .pure_bind <| hrest (some e) he.covers

theorem checkLoopInitializer_gives (ns : List Node) :
    Gives t x (checkLoopInitializer ns) fun _ y => y = x := by
  unfold checkLoopInitializer
  split
  · exact .get fun _ _ _ => .ite .refuseLine (.pure rfl)
  · exact .pure rfl

theorem isBadTarget_gives (e : Node) : Gives t x (isBadTarget e) fun _ y => y = x := by
  unfold isBadTarget
  split
  · exact .pure rfl
  · exact .get fun _ _ _ => .pure rfl

theorem forVariables_gives (hd : d.Lawful t) :
    Gives t x (forVariables d) fun head y => Covers t x y head.marks := by
  refine .here <| advance_gives.bind fun _ y _ ⟨hy, _⟩ => ?_
  refine (withoutIn_gives (bindings_gives fun _ => variableBinding_gives hd true)).bind ?_
  intro ns z _ ⟨hz, hns⟩
  have hcovers : Covers t x z (Node.marksOfAll ns) := hns.mono (by omega)
  refine .isAtKeyword fun _ => .ite ?_ <| .isAtName fun _ => .ite ?_ ?_
  · refine (checkLoopInitializer_gives _).bind fun _ w _ hw => ?_
    subst hw
    exact .spanFrom <| inKeys_gives hd hcovers
  · exact .spanFrom <| ofValues_gives hd hcovers
  · refine .spanFrom <| (expect_gives _).bind fun _ w _ hw => ?_
    exact counting_gives hd (hcovers.closed hw)

theorem forLexical_gives (hd : d.Lawful t) (kind : VariableKind) (hinside : x.next < t.length) :
    Gives t x (forLexical d kind) fun head y => Covers t x y head.marks := by
  refine .here <| advance_gives.bind fun word y _ ⟨hy, _, hword⟩ => .get fun _ _ _ => .ite ?_ ?_
  · refine .spanFrom <| inKeys_gives hd ?_
    exact (Node.Whole.identifier word.text hy.1 (suits_name hword hinside)).covers
  refine (withoutIn_gives (bindings_gives fun _ => lexicalBinding_gives hd kind true)).bind ?_
  intro ns z _ ⟨hz, hns⟩
  have hcovers : Covers t x z (Node.marksOfAll ns) := hns.mono (by omega)
  refine .isAtKeyword fun _ => .ite ?_ <| .isAtName fun _ => .ite ?_ ?_
  · exact .spanFrom <| inKeys_gives hd hcovers
  · exact .spanFrom <| ofValues_gives hd hcovers
  · refine (endStatement_gives (w := x) (by omega)).bind fun _ w hw ⟨_, _, hclear⟩ => .spanFrom ?_
    exact counting_gives hd (hcovers.closed_of_clears hw hclear)

theorem forExpression_gives (hd : d.Lawful t) :
    Gives t x (forExpression d) fun head y => Covers t x y head.marks := by
  refine .here <| (withoutIn_gives (hd.whole x).inherit).bind fun first y _ hfirst => ?_
  have hpattern : Covers t x y first.asPattern.marks :=
    hfirst.covers.sublist first.sublist_marks_asPattern
  refine .isAtKeyword fun _ => .ite ?_ <| .isAtName fun _ => .ite ?_ ?_
  · refine (isBadTarget_gives _).bind fun _ z _ hz => .guard .refuseLine ?_
    subst hz
    exact inKeys_gives hd hpattern
  · refine (isBadTarget_gives _).bind fun _ z _ hz => .guard .refuseLine ?_
    subst hz
    exact ofValues_gives hd hpattern
  refine .isAt fun _ => ?_
  extract_lets rest
  have hrest {z : Spot} (init : Node) (hinit : Covers t x z init.marks) :
      Gives t z (rest init) fun head y => Covers t x y head.marks :=
    (expect_gives _).bind fun _ w _ hw => counting_gives hd (hinit.closed hw)
  clear_value rest
  refine .ite ((Gives.collectFollowing (P := fun _ => True) fun z => ?_).bind
    fun others z hz ⟨hothers, _⟩ => ?_) (.pure_bind <| hrest _ hfirst.covers)
  · refine .choice (accept_gives _) (fun w hw => ?_) (.pure ⟨fun _ => rfl, nofun⟩)
    refine (hd.whole w).isolate.bind fun e v _ he => .pure ⟨nofun, ?_⟩
    rintro _ ⟨⟩
    exact ⟨he.covers.follows hw, trivial⟩
  · exact .spanFrom <| .pure_bind <| hrest _ (hfirst.covers.append hothers)

theorem forStatement_gives (hd : d.Lawful t) :
    Gives t x (forStatement d) fun n y => n.Sealed t x y := by
  refine .here <| (expectKeyword_gives _).bind fun _ y _ hy =>
    (expect_gives _).bind fun _ z _ hz => ?_
  extract_lets rest
  have hrest {w : Spot} {head : ForHead} (hhead : Covers t z w head.marks) :
      Gives t w (rest head) fun n v => n.Sealed t x v := by
    have hw := hhead.later
    refine (expect_gives _).bind fun _ v _ hv => (loopBody_gives (hd.statement v).isolate).bind ?_
    intro body u _ hbody
    have hu := hbody.past
    have hclosed := (hhead.closed hv).append_closed hbody.closed (.refl v)
    refine .spanFrom ?_
    cases head with
    | counting init test update =>
      refine .pure <| .of_closed (y := z) (z := u) ?_ rfl trivial (by omega)
      simpa [Node.marks, ForHead.marks] using hclosed
    | inKeys left right =>
      refine .pure <| .of_closed (y := z) (z := u) ?_ rfl trivial (by omega)
      simpa [Node.marks, ForHead.marks] using hclosed
    | ofValues left right =>
      refine .pure <| .of_closed (y := z) (z := u) ?_ rfl trivial (by omega)
      simpa [Node.marks, ForHead.marks] using hclosed
  clear_value rest
  refine (accept_gives _).bind fun _ w hw _ => ?_
  refine .isAtKeyword fun _ => .isAtKeywordInside fun _ hconst =>
    .isAtKeywordInside fun _ hlet => ?_
  refine .ite ?_ <| .ite ?_ <| .dite (fun h => ?_) fun _ => .dite (fun h => ?_) fun _ => ?_
  · have hnone : Closed t z w (Node.marksOf? none) := .nil (by omega)
    exact (counting_gives hd hnone).bind fun _ _ _ hhead => hrest hhead
  · exact (forVariables_gives hd).bind fun _ _ _ hhead => hrest (hhead.mono (by omega))
  · exact (forLexical_gives hd _ (hconst h)).bind fun _ _ _ hhead => hrest (hhead.mono (by omega))
  · exact (forLexical_gives hd _ (hlet h)).bind fun _ _ _ hhead => hrest (hhead.mono (by omega))
  · exact (forExpression_gives hd).bind fun _ _ _ hhead => hrest (hhead.mono (by omega))

/-! ## Jumps -/

theorem jumpLabel_gives :
    Gives t x jumpLabel fun label y => Covers t x y (Node.marksOf? label) := by
  refine .get fun _ _ _ => ?_
  split
  · refine .ite (.pure (.nil (.refl x))) ?_
    refine (bindingIdentifier_gives none).bind fun label y _ hlabel => ?_
    exact .guard .refuseHere <| .pure hlabel.covers
  · exact .pure (.nil (.refl x))

theorem continueStatement_gives : Gives t x continueStatement fun n y => n.Sealed t x y := by
  refine .here <| (expectKeyword_gives _).bind fun _ y _ hy => jumpLabel_gives.bind ?_
  intro label z hz hlabel
  refine (endStatement_gives (w := x) (by omega)).bind fun _ w hw ⟨_, _, hclear⟩ =>
    .get fun _ _ _ => ?_
  have hclosed := hlabel.closed_of_clears hw hclear
  exact .guard .refuseHere <| .spanFrom <| .pure <| .of_closed hclosed rfl trivial (by omega)

theorem breakStatement_gives : Gives t x breakStatement fun n y => n.Sealed t x y := by
  refine .here <| (expectKeyword_gives _).bind fun _ y _ hy => jumpLabel_gives.bind ?_
  intro label z hz hlabel
  refine (endStatement_gives (w := x) (by omega)).bind fun _ w hw ⟨_, _, hclear⟩ =>
    .get fun _ _ _ => ?_
  have hclosed := hlabel.closed_of_clears hw hclear
  exact .guard .refuseHere <| .spanFrom <| .pure <| .of_closed hclosed rfl trivial (by omega)

theorem hasReturnValue_gives : Gives t x hasReturnValue fun _ y => y = x := by
  refine .get fun _ _ _ => ?_
  split <;> exact .pure rfl

theorem returnStatement_gives (hd : d.Lawful t) :
    Gives t x (returnStatement d) fun n y => n.Sealed t x y := by
  refine .get fun _ _ _ => .guard .refuseLine <| .here <| (expectKeyword_gives _).bind ?_
  intro _ y _ hy
  refine hasReturnValue_gives.bind fun _ z _ hz => ?_
  subst hz
  extract_lets rest
  have hrest {w : Spot} (argument : Option Node)
      (hargument : Covers t z w (Node.marksOf? argument)) :
      Gives t w (rest argument) fun n v => n.Sealed t x v := by
    have hw := hargument.later
    refine (endStatement_gives (w := x) (by omega)).bind fun _ v hv ⟨_, _, hclear⟩ => .spanFrom ?_
    exact .pure <| .of_closed (hargument.closed_of_clears hv hclear) rfl trivial (by omega)
  refine .ite ?_ (.pure_bind <| hrest none (.nil (.refl z)))
  exact (expression_gives hd).bind fun e _ _ he => .pure_bind <| hrest (some e) he.covers

theorem throwStatement_gives (hd : d.Lawful t) :
    Gives t x (throwStatement d) fun n y => n.Sealed t x y := by
  refine .here <| (expectKeyword_gives _).bind fun _ y _ hy => .get fun _ _ _ => ?_
  refine .guard .refuseHere <| (expression_gives hd).bind fun e z _ he => ?_
  have hz := he.past
  refine (endStatement_gives (w := x) (by omega)).bind fun _ w hw ⟨_, _, hclear⟩ => .spanFrom ?_
  exact .pure <| .of_closed (he.covers.closed_of_clears hw hclear) rfl trivial (by omega)

/-! ## Other compound statements -/

theorem withStatement_gives (hd : d.Lawful t) :
    Gives t x (withStatement d) fun n y => n.Sealed t x y := by
  refine .get fun _ _ _ => .guard .refuseLine <| .here <| (expectKeyword_gives _).bind ?_
  intro _ y _ hy
  refine (condition_gives hd).bind fun object z _ ⟨hobject, hz⟩ => (hd.statement z).bind ?_
  intro body w _ hbody
  have hw := hbody.past
  have hclosed := hobject.append_closed hbody.closed (.refl z)
  exact .spanFrom <| .pure <| .of_closed hclosed rfl trivial (by omega)

theorem catchClause_gives (hd : d.Lawful t) :
    Gives t x (catchClause d) fun n y => n.Sealed t x y := by
  refine .here <| (expectKeyword_gives _).bind fun _ y _ hy =>
    (expect_gives _).bind fun _ z _ hz => ?_
  refine .isAt fun _ => .guard .refuseToken <| (bindingPattern_gives hd _).bind ?_
  intro ⟨param, names⟩ w _ hparam
  have hw := hparam.past
  dsimp only
  split
  · exact .absurd .refuseLine
  · refine .get fun _ _ _ => .guard .refuseLine <| (expect_gives _).bind fun _ v _ hv => ?_
    refine (block_gives hd).bind fun body u _ hbody => .spanFrom <| .pure ?_
    have hu := hbody.past
    have hclosed := (hparam.covers.closed hv).append_closed hbody.closed (.refl v)
    exact .of_closed hclosed rfl trivial (by omega)

theorem tryStatement_gives (hd : d.Lawful t) :
    Gives t x (tryStatement d) fun n y => n.Sealed t x y := by
  refine .here <| (expectKeyword_gives _).bind fun _ y _ hy => (block_gives hd).bind ?_
  intro body z _ hbody
  have hz := hbody.past
  refine .isAtKeyword fun _ => ?_
  extract_lets rest
  have hrest {w : Spot} (handler : Option Node) (hhandler : Closed t z w (Node.marksOf? handler)) :
      Gives t w (rest handler) fun n v => n.Sealed t x v := by
    have hw := hhandler.later
    refine (acceptKeyword_gives _).bind fun _ v hv _ => ?_
    extract_lets close
    have hclose {u : Spot} (finalizer : Option Node)
        (hfinalizer : Closed t v u (Node.marksOf? finalizer)) :
        Gives t u (close finalizer) fun n v => n.Sealed t x v := by
      have hu := hfinalizer.later
      refine .guard .refuseHere <| .spanFrom <| .pure ?_
      have hclosed := hhandler.append_closed hfinalizer hv
      exact .of_closed (hbody.closed.append_closed hclosed (.refl z)) rfl trivial (by omega)
    clear_value close
    refine .ite ?_ (.pure_bind <| hclose none (.nil (.refl v)))
    exact (block_gives hd).bind fun n _ _ hn => .pure_bind <| hclose (some n) hn.closed
  clear_value rest
  refine .ite ?_ (.pure_bind <| hrest none (.nil (.refl z)))
  exact (catchClause_gives hd).bind fun n _ _ hn => .pure_bind <| hrest (some n) hn.closed

theorem labeledBody_gives (hd : d.Lawful t) :
    Gives t x (labeledBody d) fun n y => n.Sealed t x y := by
  refine .isAtKeyword fun _ => .ite .refuseToken <| .isAtKeyword fun _ => .ite ?_ (hd.statement x)
  refine .token fun _ _ => (functionDeclaration_gives hd).bind fun n y _ hn => .get fun _ _ _ => ?_
  exact .guard .refuseFor <| .guard .refuseFor <| .pure hn

theorem labeledStatement_gives (hd : d.Lawful t) :
    Gives t x (labeledStatement d) fun n y => n.Sealed t x y := by
  refine .here <| (expression_gives hd).bind fun e y _ he => ?_
  split
  · refine .choice (accept_gives _) (fun z hz => .get fun _ _ _ => ?_) (expressionEnd_gives he)
    refine .guard .refuseHere <| .modifyContext <|
      (labeledBody_gives hd).bind fun body w _ hbody => ?_
    have hy := he.past
    have hw := hbody.past
    have hclosed := (he.covers.closed hz).append_closed hbody.closed (.refl z)
    exact .modifyContext <| .spanFrom <| .pure <| .of_closed hclosed rfl trivial (by omega)
  · exact expressionEnd_gives he

/-! ## Dispatch -/

theorem statement_gives (hd : d.Lawful t) : Gives t x (statement d) fun n y => n.Sealed t x y := by
  refine .token fun _ _ => ?_
  split
  · exact .refuseToken
  · exact block_gives hd
  · exact emptyStatement_gives
  · refine isAtAsyncFunction_gives.bind fun _ y _ hy => ?_
    subst hy
    exact .ite (functionDeclaration_gives hd) (labeledStatement_gives hd)
  · exact breakStatement_gives
  · exact continueStatement_gives
  · exact debuggerStatement_gives
  · exact doWhileStatement_gives hd
  · exact forStatement_gives hd
  · exact functionDeclaration_gives hd
  · exact ifStatement_gives hd
  · exact returnStatement_gives hd
  · exact switchStatement_gives hd
  · exact throwStatement_gives hd
  · exact tryStatement_gives hd
  · exact variableStatement_gives hd
  · exact whileStatement_gives hd
  · exact withStatement_gives hd
  · exact expressionStatement_gives hd

theorem item_gives (hd : d.Lawful t) : Gives t x (item d) fun n y => n.Sealed t x y := by
  refine .modifyContext <| .token fun _ _ => ?_
  split
  · exact .token fun _ _ => .refuseFor
  · refine isAtImportCall_gives.bind fun _ y _ hy => ?_
    subst hy
    exact .ite (expressionStatement_gives hd) <| .token fun _ _ => .refuseFor
  · exact lexicalDeclaration_gives hd _
  · exact functionDeclaration_gives hd
  · exact classDeclaration_gives hd
  · refine isAtLexicalDeclaration_gives.bind fun _ y _ hy => ?_
    subst hy
    exact .ite (lexicalDeclaration_gives hd _) (statement_gives hd)
  · exact statement_gives hd

end Parse
end Elementwise
