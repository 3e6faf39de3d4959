import Elementwise.Proofs.Grammar.Script

/-!
# How functions are called

A function in parentheses is called, or the call of a function is itself put in parentheses: a tree
does not show them.  The contracts in this module say where they stand.  They follow an expression
through the grammar, from parentheses and calls up to a statement, and say of every tree that is a
function or a call without arguments that it is written in the text it was read from, in any number
of parentheses.  Of other trees nothing is said, so most productions are passed over.

## What is here

* `Text.Calls` — a call of a function without arguments.
* `Node.Written` — a function, or a call without arguments, in parentheses.
* `Parse.group_writes`, `Parse.callOrMember_writes`, `Parse.assignment_writes` … — the contracts.
* `Parse.item_writes` — the statement with which a text in parentheses begins.
-/

set_option autoImplicit false
namespace Elementwise

/-! ## Functions and calls in parentheses -/

/-- In one span a function that covers another one is called without arguments.  If the function
itself stands there first, and no parenthesis in front of it, the text does not begin with one. -/
def Text.Calls (t : Text) (f s : Span) : Prop :=
  ∃ k l, t.Encloses f s.start k ∧ (f.start = s.start → t[s.start]? ≠ some (.scalar '(')) ∧
    t.Symbol '(' k l ∧ t.Symbol ')' l s.stop

namespace Node

variable {t : Text} {i j k l : Nat} {n : Node} {f : Span}

theorem enclosable?_of_functionSpan? (h : f ∈ n.functionSpan?) : n.enclosable? = some f := by
  cases n <;> first | exact h | cases h

/-- How a tree is written between two offsets, if it is a function or a call without arguments. -/
structure Written (t : Text) (i j : Nat) (n : Node) : Prop where
  enclosed : ∀ s ∈ n.enclosable?, t.Encloses s i j
  called : ∀ s callee, n = call s callee [] → ∀ f ∈ callee.functionSpan?, t.Calls f s

/-- A tree that can be called.  A function is one if no parenthesis is needed around it. -/
structure Operand (t : Text) (i j : Nat) (n : Node) : Prop extends n.Written t i j where
  leads : ∀ f ∈ n.functionSpan?, f.start = i → t[i]? ≠ some (.scalar '(')

theorem Operand.of_plain (h : n.enclosable? = none) : n.Operand t i j := by
  refine ⟨⟨?_, ?_⟩, fun f hf => ?_⟩
  · simp [h]
  · rintro s callee rfl
    cases h
  · rw [enclosable?_of_functionSpan? hf] at h
    cases h

theorem Written.of_plain (h : n.enclosable? = none) : n.Written t i j :=
  (Operand.of_plain h).toWritten

theorem Written.of_function (h : n.functionSpan? = some ⟨i, j⟩) (hij : i ≤ j) :
    n.Written t i j := by
  refine ⟨?_, ?_⟩
  · rw [enclosable?_of_functionSpan? h]
    rintro _ ⟨⟩
    exact .self hij
  · rintro s callee rfl
    cases h

/-- In parentheses everything can be called. -/
theorem Written.operand_of_parentheses (h : n.Written t j k) (hopen : t[i]? = some (.scalar '('))
    (hgap : t.Gap (i + 1) j) (hlt : i < j) (hclose : t.Symbol ')' k l) : n.Operand t i l := by
  refine ⟨⟨fun s hs => ?_, h.called⟩, fun f hf hstart => ?_⟩
  · exact .parentheses hopen hgap hlt (h.enclosed s hs) hclose
  · have := (h.enclosed f (enclosable?_of_functionSpan? hf)).le
    omega

/-- A statement that consists of an expression is written from one offset up to the token at another
one. -/
def Stated (t : Text) (i j : Nat) (n : Node) : Prop :=
  ∃ s e k, n = .expression s e none ∧ e.Written t i k ∧ t.Ends k j

end Node

/-! ## Expressions -/

namespace Parse

variable {t : Text} {x y z w : Spot} {d : Deeper}

/-- What lies deeper is written in the text if assignments are. -/
structure Deeper.Writes (t : Text) (d : Deeper) : Prop extends d.Lawful t where
  written : ∀ x, Gives t x (d.parse .assignment) fun n y => x.Past y ∧ n.Written t x.next y.done

/-- What is neither a function nor a call without arguments can be passed over. -/
theorem Plain.operand {p : Parse Node} {Q : Node → Spot → Prop} {i : Nat} (hplain : Plain p)
    (h : Gives t x p Q) : Gives t x p fun n y => n.Operand t i y.done :=
  (hplain.gives h).mono fun _ _ _ hn => .of_plain hn.1

theorem Plain.written {p : Parse Node} {Q : Node → Spot → Prop} {i : Nat} (hplain : Plain p)
    (h : Gives t x p Q) : Gives t x p fun n y => n.Written t i y.done :=
  (hplain.gives h).mono fun _ _ _ hn => .of_plain hn.1

theorem yieldExpression_plain (d : Deeper) : Plain (yieldExpression d) := by
  refine .bind fun _ => .bind fun _ => .bind fun _ => .ite (.bind fun _ => .pure ⟨rfl, nofun⟩) ?_
  refine .bind fun _ => .bind fun _ => .bind fun _ => .bind fun _ => .ite ?_ ?_
  · exact .bind fun _ => .bind fun _ => .bind fun _ => .bind fun _ => .pure ⟨rfl, nofun⟩
  · exact .bind fun _ => .bind fun _ => .bind fun _ => .pure ⟨rfl, nofun⟩

theorem assignmentRest_plain (d : Deeper) (first : Token) (op : Option BinaryOp) (target : Node) :
    Plain (assignmentRest d first op target) := by
  refine .bind fun _ => .ite (.bind fun _ => ?rest) ?rest
  extract_lets left perform rest
  have hrest (u : Unit) : Plain (rest u) :=
    .ite (.bind fun _ => .bind fun _ => .bind fun _ => .bind fun _ => .bind fun _ =>
      .pure ⟨rfl, nofun⟩) <|
      .bind fun _ => .bind fun _ => .bind fun _ => .bind fun _ => .pure ⟨rfl, nofun⟩
  clear_value rest
  refine .ite ?_ (hrest ())
  split
  · exact .ite (.bind fun _ => .ite (.bind fun _ => hrest _) (hrest _)) <|
      .ite (.bind fun _ => hrest _) (hrest _)
  · exact hrest ()

theorem group_writes (hd : d.Writes t) :
    Gives t x (group d) fun n y => n.Operand t x.next y.done := by
  have hlawful := hd.toLawful
  refine (expect_symbol .leftParen '(' rfl nofun).bind fun _ y _ ⟨hy, hopen, hdone⟩ => ?_
  refine .gap fun hgap => ?_
  rw [hdone] at hgap
  refine .isAt fun _ => .ite (closeParameters_gives.bind fun _ _ _ _ => .pure (.of_plain rfl)) ?_
  refine .here <| .isAt fun _ => .ite ?_ <| .modifyContext ?_
  · exact (restParameter_gives hlawful).bind fun _ _ _ _ =>
      closeParameters_gives.bind fun _ _ _ _ => .pure (.of_plain rfl)
  refine ((hd.whole y).and (hd.written y)).inherit.bind fun first z _ ⟨hwhole, hz, hfirst⟩ => ?_
  refine .isAt fun _ => ?_
  extract_lets close rest
  have hclose {w : Spot} {e : Node} (he : w = z ∧ e = first ∨ e.enclosable? = none) :
      Gives t w (close e) fun n v => n.Operand t x.next v.done := by
    refine .gap fun hgap' => (expect_symbol .rightParen ')' rfl nofun).bind ?_
    intro _ v _ ⟨hv, hright, hdone'⟩
    refine .isAt fun _ => .ite (.ite ?_ ?_) <| .modifyContext <| .pure ?_
    · exact .modifyContext <| .pure <| .of_plain rfl
    · exact .get fun _ _ _ => .guard .refuseToken <| .modifyContext <| .pure <| .of_plain rfl
    · rcases he with ⟨rfl, rfl⟩ | he
      · exact hfirst.operand_of_parentheses hopen hgap (by omega)
          ⟨w.next, by omega, hgap', hright, hdone'⟩
      · exact .of_plain he
  have hrest {w : Spot} {nodes : List Node} (isList : Bool)
      (hnodes : isList = false → nodes.length = 1 → w = z) :
      Gives t w (rest (nodes, isList)) fun n v => n.Operand t x.next v.done := by
    refine .dite (fun _ => .pure <| .of_plain rfl) fun hlist =>
      .dite (fun hlength => ?_) fun _ => ?_
    · exact .pure_bind <| hclose (.inl ⟨hnodes (Bool.eq_false_of_not_eq_true hlist) hlength, rfl⟩)
    · exact .spanFrom <| .pure_bind <| hclose (.inr rfl)
  clear_value rest
  refine .ite (.modifyContext ?_) (.pure_bind <| hrest _ fun _ _ => rfl)
  exact (groupRest_gives hlawful hwhole).bind fun r w _ hr => hrest _ hr.2

/-! ### Operands -/

theorem primary_writes (hd : d.Writes t) :
    Gives t x (primary d) fun n y => n.Operand t x.next y.done := by
  have hlawful := hd.toLawful
  refine .here <| .getFrom fun s hs hx => ?_
  subst hx
  have hleads (hkind : s.token.kind ≠ .punctuator .leftParen) :
      t[s.spot.next]? ≠ some (.scalar '(') := fun hc => hkind (hs.kind_of_leftParen hc)
  have hgives {p : Parse Node} {Q : Node → Spot → Prop} (h : Gives t s.spot p Q) :
      GivesFrom t s p Q := h s hs rfl
  have hfunction (hkind : s.token.kind ≠ .punctuator .leftParen) :
      Gives t s.spot (functionExpression d) fun n y => n.Operand t s.spot.next y.done :=
    (functionExpression_gives hlawful).mono fun n y _ hn =>
      ⟨.of_function hn.2 (by have := hn.1.past; omega), fun _ _ _ => hleads hkind⟩
  have hname {y : Spot} {name : Token → Text} : Gives t y (do
      let a ← advance
      return Node.identifier (← spanFrom s.spot.next) (name a)) fun n z =>
        n.Operand t s.spot.next z.done :=
    advance_gives.bind fun _ _ _ _ => .spanFrom <| .pure <| .of_plain rfl
  have hrefuse {Q : Node → Spot → Prop} : Gives t s.spot (do refuse (← advance) : Parse Node) Q :=
    advance_gives.bind fun _ _ _ _ => .refuse
  have hliteral (value : Literal)
      (hstring : ∀ v, value = .string v → ∃ spelling octal,
        s.token.kind = .string v spelling octal) :
      Gives t s.spot (literal value) fun n y => n.Operand t s.spot.next y.done :=
    (literal_plain value).operand (literal_gives hs hstring)
  have hregex {p : Punctuator} (hkind : s.token.kind = .punctuator p)
      (hp : p ≠ .leftParen ∧ p ≠ .rightBrace) :
      GivesFrom t s regex fun n y => n.Operand t s.spot.next y.done := by
    intro n s' hrun
    obtain ⟨hs', hlater, -⟩ := regex_givesFrom hs hkind hp n s' hrun
    exact ⟨hs', hlater, .of_plain (regex_plain s n s' hrun).1⟩
  split
  · next hkind =>
    refine hgives <| .guard .refuseToken <| isAtAsyncFunction_gives.bind fun _ y _ hy => ?_
    subst hy
    exact .ite (hfunction (by simp [hkind])) hname
  · exact hgives <| .guard .refuseFor (hliteral _ nofun)
  · next hkind =>
    refine hgives <| .guard .refuseFor (hliteral _ ?_)
    rintro _ ⟨⟩
    exact ⟨_, _, hkind⟩
  · exact hgives <| hliteral _ nofun
  · exact hgives <| hliteral _ nofun
  · exact hgives <| (template_plain d).operand (template_gives hlawful)
  · exact hgives <| .modifyContext (group_writes hd).inherit
  · exact hgives ((arrayLiteral_plain d).operand (arrayLiteral_gives hlawful)).inherit
  · exact hgives ((objectLiteral_plain d).operand (objectLiteral_gives hlawful)).inherit
  · next hkind => exact hregex hkind ⟨nofun, nofun⟩
  · next hkind => exact hregex hkind ⟨nofun, nofun⟩
  · next hkind =>
    refine hgives <| .ite (identifierName_plain.operand identifierName_gives) <| .ite hname <|
      .markValue ?_
    split
    · exact hfunction (by simp [hkind])
    · exact advance_gives.bind fun _ _ _ _ => .spanFrom <| .pure <| .of_plain rfl
    · exact (classExpression_plain d).operand (classExpression_gives hlawful)
    · refine isAtImportCall_gives.bind fun _ y _ hy => ?_
      subst hy
      refine .ite ?_ hrefuse
      exact advance_gives.bind fun _ _ _ _ => .spanFrom <| .pure <| .of_plain rfl
    · exact hrefuse
  · exact hgives hrefuse

theorem head_writes (hd : d.Writes t) : Gives t x (head d) fun n y => n.Operand t x.next y.done :=
  .isAtKeyword fun _ =>
    .ite ((newExpression_plain d).operand (newExpression_gives hd.toLawful)).inherit
      (primary_writes hd).inherit

theorem suffix?_writes (hd : d.Lawful t) {start : Nat} {e : Node} :
    Gives t x (suffix? d start e) fun r y =>
      (r = none → y = x) ∧ ∀ n ∈ r, n.enclosable? = none := by
  refine .isAt fun _ => .ite ?_ <| .isAt fun _ => .ite ?_ <| isAtTemplate_gives.bind ?_
  · refine .markMember <| (expect_gives _).bind fun _ _ _ _ => ?_
    exact identifierName_gives.bind fun _ _ _ _ => .spanFrom <| .pure (by simp [Node.enclosable?])
  · refine .markMember <| (expect_gives _).bind fun _ _ _ _ => ?_
    refine (expression_gives hd).isolate.bind fun _ _ _ _ => (expect_gives _).bind fun _ _ _ _ => ?_
    exact .spanFrom <| .pure (by simp [Node.enclosable?])
  · rintro _ y _ ⟨rfl, -⟩
    refine .ite ((template_gives hd).bind fun _ _ _ _ => .spanFrom <| .pure ?_) (.pure (by simp))
    simp [Node.enclosable?]

/-- A call without arguments ends with the parenthesis behind what is called. -/
theorem call_reads (hd : d.Lawful t) (start : Nat) (mayBeAsync : Bool) (e : Node)
    (hx : x.done ≤ x.next) :
    Gives t x (call d start mayBeAsync e) fun n y => n.enclosable? = none ∨
      n = .call ⟨start, y.done⟩ e [] ∧ t.Symbol '(' x.done (x.next + 1) ∧
        t.Symbol ')' (x.next + 1) y.done := by
  refine .gap fun hgap => .markValue ?_
  extract_lets rest
  have hrest {y : Spot} {ns : List Node}
      (hns : ns = [] → t[x.next]? = some (.scalar '(') ∧ t.Symbol ')' (x.next + 1) y.done) :
      Gives t y (rest ns) fun n y => n.enclosable? = none ∨
        n = .call ⟨start, y.done⟩ e [] ∧ t.Symbol '(' x.done (x.next + 1) ∧
          t.Symbol ')' (x.next + 1) y.done := by
    have hend : Gives t y (do
        if mayBeAsync && (← isAt .arrow) then
          return Node.arrowParameters true (ns.map Node.asPattern)
        else return Node.call (← spanFrom start) e ns) fun n y => n.enclosable? = none ∨
          n = .call ⟨start, y.done⟩ e [] ∧ t.Symbol '(' x.done (x.next + 1) ∧
            t.Symbol ')' (x.next + 1) y.done := by
      refine .isAt fun _ => .ite (.pure (.inl rfl)) <| .spanFrom <| .pure ?_
      cases ns with
      | cons => exact .inl rfl
      | nil =>
        obtain ⟨hopen, hclose⟩ := hns rfl
        exact .inr ⟨rfl, ⟨x.next, hx, hgap, hopen, rfl⟩, hclose⟩
    dsimp only [rest]
    split
    · exact .guard .refuseLine hend
    · exact hend
  clear_value rest
  exact .ite ((asyncArguments_gives hd).bind fun _ _ _ ⟨_, _, hns⟩ => hrest hns)
    ((callArguments_gives hd).bind fun _ _ _ ⟨_, _, hns⟩ => hrest hns)

theorem call_writes (hd : d.Lawful t) {mayBeAsync : Bool} {e : Node} (hw : w.Past x)
    (he : e.Operand t w.next x.done) :
    Gives t x (call d w.next mayBeAsync e) fun n y => n.Operand t w.next y.done := by
  refine (call_reads hd _ _ _ hw.2).mono fun n y hy hn => ?_
  rcases hn with hn | ⟨rfl, hopen, hclose⟩
  · exact .of_plain hn
  refine ⟨⟨?_, ?_⟩, nofun⟩
  · rintro _ ⟨⟩
    exact .self (by omega : w.next ≤ y.done)
  · rintro _ _ ⟨⟩ f hf
    exact ⟨x.done, x.next + 1, he.enclosed f (Node.enclosable?_of_functionSpan? hf), he.leads f hf,
      hopen, hclose⟩

theorem callOrMember_writes (hd : d.Writes t) :
    Gives t x (callOrMember d) fun n y => n.Written t x.next y.done := by
  have hlawful := hd.toLawful
  refine .here <| .get fun _ _ _ => .modifyContext ?_
  extract_lets rest
  have hrest {y : Spot} {first : Node} (hpast : x.Past y) (hfirst : first.Operand t x.next y.done) :
      Gives t y (rest first) fun n z => n.Written t x.next z.done := by
    refine (Gives.iterate (I := fun e z => x.Past z ∧ e.Operand t x.next z.done)
      (R := fun e z => e.Written t x.next z.done) (fun e z ⟨hz, he⟩ => ?_) ⟨hpast, hfirst⟩).bind
      fun e z _ he => .modifyContext (.pure he)
    refine .isAt fun _ => .ite ?_ ?_
    · refine .token fun _ _ => (call_writes hlawful hz he).bind fun n v hv hn => .pure ⟨?_, hn⟩
      omega
    · refine (suffix?_writes hlawful).bind fun r v hv ⟨hnone, hsome⟩ => ?_
      cases r with
      | some n => exact .pure ⟨by omega, .of_plain (hsome n rfl)⟩
      | none => exact .pure (hnone rfl ▸ he.toWritten)
  clear_value rest
  refine .ite ?_ ?_
  · refine advance_gives.bind fun _ y _ ⟨hy, _⟩ => .spanFrom <| .isAt fun _ => .isAt fun _ => ?_
    exact .isAt fun _ => .ite (.pure_bind <| hrest hy.1 <| .of_plain rfl) (.absurd .refuseToken)
  · refine ((head_gives hlawful).and (head_writes hd)).bind fun e y _ ⟨hread, he⟩ => ?_
    exact hrest hread.past he

/-! ### Operators -/

theorem update_writes (hd : d.Writes t) :
    Gives t x (update d) fun n y => n.Written t x.next y.done := by
  refine .here <| updateOp?_gives.bind fun op? y _ hy => ?_
  subst hy
  cases op? with
  | some op =>
    refine advance_gives.bind fun _ z _ _ => (hd.read _ z).inherit.bind fun e w _ _ => ?_
    refine (checkUpdated_gives _ _).bind fun _ _ _ _ => .markValue <| .spanFrom <| .pure ?_
    exact .of_plain rfl
  | none =>
    refine (callOrMember_writes hd).inherit.bind fun e z _ he => .get fun _ _ _ =>
      .ite (.pure he) ?_
    refine updateOp?_gives.bind fun op? w _ hw => ?_
    subst hw
    cases op? with
    | some op =>
      refine (checkUpdated_gives _ _).bind fun _ _ _ _ => .markValue ?_
      exact advance_gives.bind fun _ _ _ _ => .spanFrom <| .pure <| .of_plain rfl
    | none => exact .pure he

theorem unary_writes (hd : d.Writes t) :
    Gives t x (unary d) fun n y => n.Written t x.next y.done := by
  refine .here <| unaryOp?_gives.bind fun op? y _ hy => ?_
  subst hy
  cases op? with
  | some op =>
    refine advance_gives.bind fun _ z _ _ => (hd.read _ z).inherit.bind fun e w _ _ => ?_
    refine .get fun _ _ _ => .guard .refuseLine <| .markValue <| .spanFrom <| .pure ?_
    exact .of_plain rfl
  | none =>
    refine .get fun _ _ _ => .isAtName fun _ => .ite ?_ (update_writes hd)
    refine advance_gives.bind fun _ z _ _ => (hd.read _ z).bind fun e w _ _ => ?_
    exact .spanFrom <| .pure <| .of_plain rfl

theorem power_writes (hd : d.Writes t) :
    Gives t x (power d) fun n y => n.Written t x.next y.done := by
  refine .here <| (unary_writes hd).inherit.bind fun left y _ hleft => ?_
  split
  · exact .pure hleft
  · refine .choice (accept_gives _) (fun z _ => ?_) (.pure hleft)
    refine .markValue <| (hd.read _ z).isolate.bind fun right w _ _ => .spanFrom <| .pure ?_
    exact .of_plain rfl

/-- What is left of a row of operations is an operation. -/
theorem enclosable?_reduce {strength stop next : Nat} {waiting : List Pending} {operand : Node}
    (h : operand.enclosable? = none) :
    (reduce strength stop waiting next operand).2.2.enclosable? = none := by
  fun_induction reduce strength stop waiting next operand
  case case1 => exact h
  case case2 ih => exact ih rfl
  case case3 => exact h

theorem binary_writes (hd : d.Writes t) :
    Gives t x (binary d) fun n y => n.Written t x.next y.done := by
  have hlawful := hd.toLawful
  refine .here <| (power_writes hd).inherit.bind fun first y _ hfirst => ?_
  refine binaryOp?_gives.bind fun op? z _ hz => ?_
  subst hz
  cases op? with
  | none => exact .pure hfirst
  | some op =>
    refine advance_gives.bind fun _ w _ _ => .markValue <| .here ?_
    refine (power_gives hlawful).isolate.bind fun right v _ _ => ?_
    refine .iterate (I := fun r _ => r.1 ≠ []) ?_ (by simp)
    intro ⟨waiting, next, operand⟩ u hwaiting
    refine .get fun s _ _ => binaryOp?_gives.bind fun op? u' _ _ => ?_
    cases op? with
    | none =>
      refine .pure <| .of_plain ?_
      obtain ⟨top, waiting, rfl⟩ := List.exists_cons_of_ne_nil hwaiting
      rw [reduce, if_pos (Nat.zero_le _)]
      exact enclosable?_reduce rfl
    | some op =>
      refine advance_gives.bind fun _ w _ _ => .here ?_
      exact (power_gives hlawful).isolate.bind fun _ _ _ _ => .pure (by simp)

theorem conditional_writes (hd : d.Writes t) :
    Gives t x (conditional d) fun n y => n.Written t x.next y.done := by
  refine .here <| (binary_writes hd).inherit.bind fun test y _ htest => ?_
  refine .choice (accept_gives _) (fun z _ => .get fun _ _ _ => .modifyContext ?_) (.pure htest)
  refine (hd.whole z).isolate.bind fun _ _ _ _ => .modifyContext ?_
  refine (expect_gives _).bind fun _ v _ _ => (hd.whole v).isolate.bind fun _ _ _ _ => ?_
  exact .markValue <| .spanFrom <| .pure <| .of_plain rfl

/-! ### Assignments -/

theorem asyncParameter_writes (hd : d.Lawful t) {first : Token} {e : Node}
    (he : e.Written t w.next x.done) :
    Gives t x (asyncParameter d first e) fun n y => n.Written t w.next y.done := by
  refine .token fun a _ => .ite ?_ (.pure he)
  split
  · exact (primary_gives hd).bind fun _ _ _ _ => .pure <| .of_plain rfl
  · exact (primary_gives hd).bind fun _ _ _ _ => .pure <| .of_plain rfl
  · exact .pure he

theorem assignment_writes (hd : d.Writes t) :
    Gives t x (assignment d) fun n y => n.Written t x.next y.done := by
  have hlawful := hd.toLawful
  refine .get fun _ _ _ => .isAtKeyword fun _ => .ite ?_ ?_
  · exact (yieldExpression_plain d).written (yieldExpression_gives hlawful)
  refine .token fun first hfirst => ?_
  refine ((conditional_gives hlawful).and (conditional_writes hd)).bind fun e y _ ⟨hread, he⟩ => ?_
  refine ((asyncParameter_gives hlawful hread).and (asyncParameter_writes hlawful he)).bind ?_
  intro e z _ ⟨hread, he⟩
  extract_lets isList
  refine .isAt fun isArrow => .ite (.markValue ?_) <| .token fun _ _ => ?_
  · refine (arrowFormals_gives hread).bind fun r w _ ⟨hw, hr⟩ => ?_
    subst hw
    rw [hfirst]
    cases r with
    | some r =>
      exact (arrowRest_gives hlawful hr).mono fun n v _ hn =>
        .of_function hn.2 (by have := hn.1.past; omega)
    | none => exact .pure he
  · split
    · exact (assignmentRest_plain d _ _ _).written (assignmentRest_gives hlawful hfirst hread)
    · exact .pure he

theorem expression_writes (hd : d.Writes t) :
    Gives t x (expression d) fun n y => n.Written t x.next y.done := by
  refine .here <| (hd.written x).isolate.bind fun first y _ hfirst => .isAt fun _ => ?_
  refine .ite ?_ (.pure hfirst.2)
  refine (Gives.collect (I := fun _ _ _ => True) fun z => ?_).bind fun _ _ _ _ => .spanFrom ?_
  · refine (accept_gives _).bind fun _ w _ _ => .ite ?_ (.pure (by simp))
    exact (hd.whole w).isolate.bind fun _ _ _ _ => .pure (by simp)
  · exact .pure <| .of_plain rfl

/-! ## Statements -/

theorem expressionStatement_writes (hd : d.Writes t) :
    Gives t x (expressionStatement d) fun n y => n.Stated t x.next y.next := by
  refine .here ?_
  refine ((expression_gives hd.toLawful).and (expression_writes hd)).bind
    fun e y _ ⟨hread, he⟩ => ?_
  refine (endStatement_gives hread.past).bind fun _ z _ hz => .spanFrom <| .pure ?_
  exact ⟨_, e, y.done, rfl, he, hz.2.1⟩

/-- What begins with a parenthesis is a statement that consists of an expression. -/
theorem item_writes (hd : d.Writes t) (hopen : t[x.next]? = some (.scalar '(')) :
    Gives t x (item d) fun n y => n.Stated t x.next y.next := by
  refine .modifyContext <| .fromToken fun s hs hx => ?_
  have hkind := hs.kind_of_leftParen (hx ▸ hopen)
  have hstatement : GivesFrom t s (statement d) fun n y => n.Stated t x.next y.next := by
    refine .token ?_
    rw [hkind]
    exact expressionStatement_writes hd s hs hx
  rw [hkind]
  exact hstatement

theorem directives_nil (hopen : t[x.next]? = some (.scalar '(')) :
    Gives t x (directives d) fun ns y => ns = [] ∧ y = x := by
  refine .iterate (I := fun r y => r = ([], none) ∧ y = x) ?_ ⟨rfl, rfl⟩
  rintro _ y ⟨rfl, rfl⟩
  refine .fromToken fun s hs hx => ?_
  rw [hs.kind_of_leftParen (hx ▸ hopen)]
  exact Gives.pure ⟨rfl, rfl⟩ s hs hx

/-- A script that begins with a parenthesis and consists of one statement. -/
theorem script_writes (hd : d.Lawful t)
    (hitem : ∀ y, t[y.next]? = some (.scalar '(') →
      Gives t y (d.parse .item) fun n z => n.Stated t y.next z.next)
    (hopen : t[x.next]? = some (.scalar '(')) :
    Gives t x (script d) fun ns _ => ∀ n, ns = [n] → n.Stated t x.next t.length := by
  refine (directives_nil hopen).bind fun front y _ ⟨hfront, hy⟩ => ?_
  subst hfront hy
  refine (Gives.collect (I := fun z _ ns => (ns = [] → z.next = t.length) ∧
    (z.next = y.next → ∀ n, ns = [n] → n.Stated t y.next t.length)) fun z => ?_).bind
      fun ns _ _ hns => .pure (List.nil_append ns ▸ hns.2 rfl)
  refine .isAtEnd fun b hend =>
    .dite (fun hb => .pure ⟨fun _ => ⟨fun _ => hend hb, by simp⟩, by simp⟩)
    fun _ => ?_
  by_cases hz : z.next = y.next
  · refine (hitem z (hz ▸ hopen)).bind fun n w _ hn => .pure ⟨nofun, ?_⟩
    rintro _ ⟨⟩ ns v ⟨hnil, _⟩
    refine ⟨nofun, ?_⟩
    rintro - _ ⟨⟩
    rw [← hz, ← hnil rfl]
    exact hn
  · refine (hd.read _ z).bind fun n w _ _ => .pure ⟨nofun, ?_⟩
    rintro _ ⟨⟩ ns v _
    exact ⟨nofun, fun h => (hz h).elim⟩

/-! ## Texts -/

theorem construct_writes (t : Text) : ∀ depth : Nat, Deeper.Writes t ⟨depth, construct depth⟩
  | 0 => ⟨construct_lawful t 0, fun _ => .refuseHere⟩
  | depth + 1 => by
    refine ⟨construct_lawful t (depth + 1), fun x => ?_⟩
    have hd := construct_writes t depth
    exact ((assignment_gives hd.toLawful).and (assignment_writes hd)).mono fun _ _ _ hn =>
      ⟨hn.1.past, hn.2⟩

theorem construct_item_writes (depth : Nat) (hopen : t[x.next]? = some (.scalar '(')) :
    Gives t x (construct depth .item) fun n y => n.Stated t x.next y.next := by
  cases depth with
  | zero => exact .refuseHere
  | succ depth => exact item_writes (construct_writes t depth) hopen

/-- A token is looked at where the reader stands, if a parenthesis stands there. -/
theorem State.next_tokenPlace {s s' : State} {u : Text} (h : s.next = .ok s')
    (hrest : s.reader.rest = .scalar '(' :: u) : s'.tokenPlace = s.reader.place := by
  have hskip : s.reader.skipSeparators = .ok s.reader := by
    rw [Reader.skipSeparators, hrest, Place.skipSeparators,
      Separator.skip_parenthesis (.inl rfl), ← hrest]
  rw [State.next, hskip] at h
  dsimp only at h
  split at h
  · cases h
  · cases h
    rfl

/-- A parse of a text that begins with a parenthesis begins there. -/
theorem State.ofText_spot {u : Text} {s : State} (h : State.ofText ('(' :: u) = .ok s) :
    s.spot.next = 0 := by
  unfold State.ofText at h
  dsimp only at h
  split at h
  · next s' hnext =>
    cases h
    exact congrArg Place.index (State.next_tokenPlace hnext rfl)
  · cases h

end Parse

/-- **A text that begins with a parenthesis** and parses as one statement holds nothing but this
statement. -/
theorem parseScript_stated {t : Text} {n : Node} (h : parseScript ('(' :: t) = .ok [n]) :
    n.Stated ('(' :: t) 0 (t.length + 1) := by
  unfold parseScript at h
  dsimp only at h
  split at h
  · next s hs =>
    have hspot := Parse.State.ofText_spot hs
    split at h
    · next hrun =>
      cases h
      have hd := Parse.construct_lawful ('(' :: t) (Parse.depthFor ('(' :: t))
      have hn := (Parse.script_writes hd (fun _ => Parse.construct_item_writes _)
        (by rw [hspot]; rfl) s (Parse.State.ofText_sound hs) rfl _ _ hrun).2.2 n rfl
      rwa [hspot] at hn
    · cases h
  · cases h

end Elementwise
