import Elementwise.Grammar.Expression
import Elementwise.Proofs.SourceEnd.Function

/-!
# Expressions in front of the end of a source

An expression may come to the end of the source, so it matters what follows the part of it that
does.  Only two things are said of the parenthesis there that the two parses may see differently: on
which line it stands, and where it starts.  The first is looked at by the grammar where something
else could follow, and nothing is read from the second.
-/

set_option autoImplicit false
namespace Elementwise

open Parse

namespace SourceEnd

variable {x : SourceEnd} {i o : Limit} {d : Deeper}

/-! ## Templates -/

theorem templateElement_agrees : x.Agrees i o templateElement := by
  refine .eats <| .here fun _ => .token fun _ => ?_
  split
  · exact advance_agrees.after fun _ => .spanFrom fun _ => .pure
  · exact .refuseHere

theorem isAtTemplate_agrees : x.Agrees i i isAtTemplate := by
  refine .kind rfl fun _ => ?_
  split <;> exact .pure

theorem template_agrees (hd : d.Agrees x) : x.Agrees i o (template d) := by
  refine .eats <| .here fun _ => isAtTemplate_agrees.next fun _ => ?_
  refine .ite ?_ (.absurd .throw)
  refine templateElement_agrees.after fun _ => (Agrees.iterate fun _ => ?_).next fun _ =>
    .spanFrom fun _ => .pure
  refine .ite .pure <| (expression_agrees hd).next fun _ => ?_
  exact templateElement_agrees.next fun _ => .pure

/-! ## Arrays and objects -/

theorem spreadElement_agrees (hd : d.Agrees x) : x.Agrees i o (spreadElement d) := by
  refine .eats <| .here fun _ => (expect_agrees _).after fun _ => ?_
  exact hd.assignment.inherit.eats.next fun _ => .spanFrom fun _ => .pure

theorem arrayLiteral_agrees (hd : d.Agrees x) : x.Agrees i o (arrayLiteral d) := by
  refine .eats <| .here fun _ => (expect_agrees _).next fun _ => (Agrees.collect ?_).next fun _ =>
    (expect_agrees _).after fun _ => .spanFrom fun _ => .pure
  refine .isAt fun _ => .ite .pure <| (accept_agrees _).next fun _ => ?_
  refine .ite .pure <| .isAt fun _ => .ite ?_ ?_
  · refine (spreadElement_agrees hd).next fun _ => ?_
    refine .isAt fun _ => .ite .pure ?_
    exact .markValue <| (expect_agrees _).next fun _ => .pure
  · refine hd.assignment.inherit.eats.next fun _ => ?_
    refine .isAt fun _ => .ite .pure ?_
    exact (expect_agrees _).next fun _ => .pure

theorem propertyValue_agrees (hd : d.Agrees x) (key : Node) (computed isAsync hasProto : Bool) :
    x.Agrees .reached .reached (propertyValue d key computed isAsync hasProto) := by
  refine .token fun _ => .ite ?_ (.ite ?_ .pure)
  · refine .guard .refuseLine <| advance_agrees.next fun _ => ?_
    exact hd.assignment.inherit.eats.next fun _ => .pure
  · refine .ite ?_ ?_
    · exact (method_agrees hd _ fun _ => .pure).next fun _ => .pure
    · exact (plainMethod_agrees hd).next fun _ => .pure

theorem shorthand_agrees (hd : d.Agrees x) {start : Nat} {computed hasProto : Bool} {key : Node}
    {target : Node} : x.Agrees .reached .reached (do
      if ← isAt (.assign none) then
        let t ← token
        modifyContext fun c => { c with coverInit := some t }
        let _ ← advance
        let init ← isolate (d.parse .assignment)
        let value := Node.assignmentPattern (← spanFrom start) target init
        return (Node.property (← spanFrom start) .value computed false true key value, hasProto)
      else
        return (Node.property (← spanFrom start) .value computed false true key target,
          hasProto)) := by
  refine .isAt fun _ => .ite (.token fun a => .modifyContext ?_) (.spanFrom fun _ => .pure)
  refine advance_agrees.next fun _ => ?_
  refine hd.assignment.isolate.eats.next fun _ => ?_
  exact .spanFrom fun _ => .spanFrom fun _ => .pure

theorem objectProperty_agrees (hd : d.Agrees x) (hasProto : Bool) :
    x.Agrees .reached .reached (objectProperty d hasProto) := by
  refine .here fun _ => .token fun _ => ?_
  extract_lets name? isGenerator rest
  clear_value name?
  have hrest (r : Option Node × Bool × Bool) : x.Agrees .reached .reached (rest r) := by
    refine .token fun _ => .ite ?_ <| .ite ?_ <| .ite ?_ ?_
    · refine .isAt fun _ => (propertyKey_agrees hd).next fun _ => ?_
      refine .modifyContext ?_
      exact (getter_agrees hd).next fun _ => .spanFrom fun _ => .pure
    · refine .isAt fun _ => (propertyKey_agrees hd).next fun _ => ?_
      exact (setter_agrees hd).next fun _ => .spanFrom fun _ => .pure
    · refine .isAt fun _ => (propertyKey_agrees hd).next fun _ => ?_
      exact (method_agrees hd _ fun _ => .pure).next fun _ => .spanFrom fun _ => .pure
    obtain ⟨key?, computed, isAsync⟩ := r
    cases key? with
    | none => exact .refuseToken
    | some key =>
      refine (propertyValue_agrees hd _ _ _ _).next fun r => ?_
      obtain ⟨value?, hasProto⟩ := r
      dsimp -zeta only
      split
      · exact .spanFrom fun _ => .pure
      · exact .spanFrom fun _ => shorthand_agrees hd
      · refine advance_agrees.next fun _ => ?_
        exact .refuse
  clear_value rest
  split
  · refine advance_agrees.next fun _ => ?_
    refine .get rfl fun _ => .isAt fun _ => .ite ?_ ?_
    · exact (propertyKey_agrees hd).next fun _ => .pure_bind <| hrest _
    · exact .spanFrom fun _ => .pure_bind <| hrest _
  · refine .ite (advance_agrees.next fun _ => .pure_bind <| hrest _) <| .isAt fun _ => ?_
    exact (propertyKey_agrees hd).next fun _ => .pure_bind <| hrest _

theorem objectLiteral_agrees (hd : d.Agrees x) : x.Agrees i o (objectLiteral d) := by
  refine .eats <| .here fun _ => (expect_agrees _).next fun _ =>
    (Agrees.iterate fun _ => ?_).next fun _ =>
    (expect_agrees _).after fun _ => .spanFrom fun _ => .pure
  refine .isAt fun _ => .ite .pure <| .isAt fun _ => ?_
  extract_lets rest
  have hrest (r : Node × Bool) : x.Agrees .reached .reached (rest r) :=
    .isAt fun _ => .ite .pure <| (expect_agrees _).next fun _ => .pure
  clear_value rest
  refine .ite ((spreadElement_agrees hd).next fun _ => .pure_bind <| hrest _) ?_
  exact (objectProperty_agrees hd _).next fun _ => hrest _

/-! ## Parentheses -/

theorem closeParameters_agrees : x.Agrees i o closeParameters := by
  refine .eats <| (expect_agrees _).after fun _ => ?_
  exact .isAt fun _ => .ite .pure (expect_agrees _)

theorem groupRest_agrees (hd : d.Agrees x) (first : Node) : x.Agrees i i (groupRest d first) := by
  refine .iterate fun _ => (accept_agrees _).next fun _ => ?_
  refine .ite ?_ .pure
  refine (accept_agrees _).next fun _ => ?_
  refine .ite .pure <| .isAt fun _ => .ite ?_ ?_
  · refine .consult rfl fun _ => .guard .refuseToken <| (restParameter_agrees hd).next fun _ => ?_
    exact closeParameters_agrees.next fun _ => .modifyContext .pure
  · exact hd.assignment.inherit.eats.next fun _ => .pure

theorem group_agrees (hd : d.Agrees x) : x.Agrees i o (group d) := by
  refine .eats <| (expect_agrees _).next fun _ => ?_
  refine .isAt fun _ => ?_
  refine .ite (closeParameters_agrees.after fun _ => .pure) <| .here fun _ => .isAt fun _ => ?_
  refine .ite ?_ <| .modifyContext <| hd.assignment.inherit.after fun first => ?_
  · exact (restParameter_agrees hd).after fun _ => closeParameters_agrees.next fun _ => .pure
  refine .isAt fun _ => ?_
  extract_lets close rest
  have hclose (e : Node) : x.Agrees .passed .passed (close e) := by
    refine (expect_agrees _).next fun _ => ?_
    refine .isAt fun _ => .ite ?_ (.modifyContext .pure)
    refine .ite (.modifyContext .pure) <| .consult rfl fun _ => .guard .refuseToken ?_
    exact .modifyContext .pure
  clear_value close
  have hrest (r : List Node × Bool) : x.Agrees .passed .passed (rest r) :=
    .ite .pure <| .ite (.pure_bind <| hclose _) (.spanFrom fun _ => .pure_bind <| hclose _)
  clear_value rest
  refine .ite (.modifyContext ?_) (.pure_bind <| hrest _)
  exact (groupRest_agrees hd _).next fun _ => hrest _

/-! ## Calls and members -/

theorem argumentsOf_agrees (hd : d.Agrees x) {argument : Parse Node}
    (hargument : x.Agrees .reached .passed argument) : x.Agrees i o (argumentsOf d argument) := by
  refine .eats <| (expect_agrees _).after fun _ => ?_
  refine .isAt fun _ => ?_
  extract_lets rest
  have hrest (nodes : List Node) : x.Agrees .passed .passed (rest nodes) :=
    (expect_agrees _).next fun _ => .pure
  clear_value rest
  refine .ite (.pure_bind <| hrest _) <|
    (Agrees.iterate fun _ => .isAt fun _ => ?_).next fun _ => hrest _
  extract_lets more
  have hmore (n : Node) : x.Agrees .passed .passed (more n) := by
    refine .isAt fun _ => .ite .pure <| (expect_agrees _).next fun _ => ?_
    exact .isAt fun _ => .ite .pure .pure
  clear_value more
  exact .ite ((spreadElement_agrees hd).next fun _ => hmore _)
    (hargument.isolate.eats.next fun _ => hmore _)

theorem callArguments_agrees (hd : d.Agrees x) : x.Agrees i o (callArguments d) :=
  argumentsOf_agrees hd hd.assignment

theorem asyncArguments_agrees (hd : d.Agrees x) : x.Agrees i o (asyncArguments d) :=
  argumentsOf_agrees hd <| hd.assignment.after fun _ => .modifyContext .pure

theorem isAtImportCall_agrees : x.Agrees .reached .reached isAtImportCall := by
  refine .isAtKeyword fun _ => .ite (.peek (fun _ => .pure) ?_) .pure
  rintro a b (ha | ha) (hb | hb) <;> simp [ha, hb]

theorem literal_agrees (value : Literal) : x.Agrees i o (literal value) :=
  .eats <| .here fun _ => .markValue <| advance_agrees.after fun _ => .spanFrom fun _ => .pure

/-- What is read for a regular expression is consumed in the place of its slash. -/
theorem regex_run (s : State) : regex.run s =
    match Regex.read s.tokenPlace (s.tokenRest.drop 1) with
    | .error f => .error f
    | .ok (pattern, flags, p, t) =>
      (do
        let _ ← advance
        return .literal (← spanFrom s.tokenPlace.index) (.regex pattern flags) : Parse Node).run
        { s with
          isTarget := false, isBinding := false
          token := ⟨.punctuator (.operator .divide), ⟨s.tokenPlace.index, p.index⟩,
            s.reader.place.line⟩
          reader := { s.reader with place := p, rest := t } } := by
  unfold regex
  rw [StateT.run_bind, StateT.run_get, pure_bind]
  dsimp only
  cases Regex.read s.tokenPlace (s.tokenRest.drop 1) <;> rfl

/-- Behind a source no regular expression ends. -/
theorem regex_agrees : x.Agrees i o regex := by
  refine .eats fun s a s₁ hrun => ?_
  rw [regex_run] at hrun
  cases hread : Regex.read s.tokenPlace (s.tokenRest.drop 1) with
  | error f =>
    rw [hread] at hrun
    cases hrun
  | ok r =>
    obtain ⟨pattern, flags, p, t⟩ := r
    rw [hread] at hrun
    have hreach := Regex.reaches_of_read_drop hread
    obtain ⟨hends, hrelated⟩ :=
      (advance_agrees (x := x).after fun _ => .spanFrom fun _ => .pure) _ a s₁ hrun
    refine ⟨fun hs => hends ?_, fun s' hs => ?_⟩
    · have hle := (Regex.reaches_of_read_drop hread).suffix.length_le
      rcases hs with hs | hs
      · exact .inl ⟨hs.1, Nat.lt_of_le_of_lt hle hs.1⟩
      · rw [hs.tokenRest] at hread
        exact absurd (Regex.mem_of_read hread) (by decide)
    · cases (hs : x.Before s s') with
      | @intro c t₀ t₀' u' htoken htokenRest hrest hplace hreaches =>
        rw [htoken] at hread
        obtain ⟨t', hread', ht⟩ := Regex.read_exchanges hread htokenRest
        refine (hrelated _ (.intro htoken htokenRest ht hplace (hplace.trans hreach))).imp_right ?_
        rintro ⟨s₁', hrun', hs₁⟩
        refine ⟨s₁', ?_, hs₁⟩
        rw [regex_run]
        rw [show Regex.read (s.withRest (c :: t₀') u').tokenPlace
          ((s.withRest (c :: t₀') u').tokenRest.drop 1) = _ from hread']
        exact hrun'

theorem primary_agrees (hd : d.Agrees x) : x.Agrees i o (primary d) := by
  have hrefuse : x.Agrees .reached .passed (do refuse (← advance) : Parse Node) :=
    advance_agrees.after fun _ => .refuse
  refine .eats <| .here fun _ => .get rfl fun s => ?_
  split
  · refine .guard .refuseToken <| isAtAsyncFunction_agrees.next fun _ => ?_
    exact .ite (functionExpression_agrees hd) <| advance_agrees.after fun _ =>
      .spanFrom fun _ => .pure
  · exact .guard .refuseFor (literal_agrees _)
  · exact .guard .refuseFor (literal_agrees _)
  · exact literal_agrees _
  · exact literal_agrees _
  · exact template_agrees hd
  · exact .modifyContext (group_agrees hd).inherit
  · exact (arrayLiteral_agrees hd).inherit
  · exact (objectLiteral_agrees hd).inherit
  · exact regex_agrees
  · exact regex_agrees
  · refine .ite identifierName_agrees <| .ite ?_ <| .markValue ?_
    · exact advance_agrees.after fun _ => .spanFrom fun _ => .pure
    split
    · exact functionExpression_agrees hd
    · exact advance_agrees.after fun _ => .spanFrom fun _ => .pure
    · exact classExpression_agrees hd
    · refine isAtImportCall_agrees.next fun _ => ?_
      refine .ite ?_ hrefuse
      exact advance_agrees.after fun _ => .spanFrom fun _ => .pure
    · exact hrefuse
  · exact hrefuse

theorem newExpression_agrees (hd : d.Agrees x) : x.Agrees i o (newExpression d) := by
  refine .eats <| .here fun _ => identifierName_agrees.after fun _ => ?_
  refine (accept_agrees _).next fun _ => ?_
  refine .ite ?_ ?_
  · refine .consult rfl fun _ => .ite ?_ .refuseToken
    exact identifierName_agrees.next fun _ => .spanFrom fun _ => .pure
  refine .isAtKeyword fun _ => .ite .refuseToken <| hd.callee.isolate.eats.next fun _ => ?_
  refine .isAt fun _ => ?_
  extract_lets rest
  have hrest (arguments : List Node) : x.Agrees .passed .passed (rest arguments) :=
    .markValue <| .spanFrom fun _ => .pure
  clear_value rest
  exact .ite ((callArguments_agrees hd).next fun _ => hrest _) (.pure_bind <| hrest _)

theorem head_agrees (hd : d.Agrees x) : x.Agrees i o (head d) :=
  .isAtKeyword fun _ => .ite (newExpression_agrees hd).inherit (primary_agrees hd).inherit

theorem suffix?_agrees (hd : d.Agrees x) (start : Nat) (e : Node) :
    x.Agrees i i (suffix? d start e) := by
  refine .isAt fun _ => .ite (.markMember ?_) <| .isAt fun _ => .ite (.markMember ?_) ?_
  · refine (expect_agrees _).next fun _ => ?_
    exact identifierName_agrees.next fun _ => .spanFrom fun _ => .pure
  · refine (expect_agrees _).next fun _ => ?_
    refine (expression_agrees hd).isolate.next fun _ => ?_
    exact (expect_agrees _).next fun _ => .spanFrom fun _ => .pure
  · refine isAtTemplate_agrees.next fun _ => ?_
    refine .ite ?_ .pure
    exact (template_agrees hd).next fun _ => .spanFrom fun _ => .pure

/-- One more member or template behind an expression. -/
theorem member_agrees (hd : d.Agrees x) (start : Nat) (e : Node) : x.Agrees i i (do
      match ← suffix? d start e with
      | some e => return .inl e
      | none => return .inr e : Parse (Node ⊕ Node)) := by
  refine (suffix?_agrees hd start e).next fun r => ?_
  cases r <;> exact .pure

theorem callee_agrees (hd : d.Agrees x) : x.Agrees i o (callee d) := by
  refine .eats <| .here fun start => .isAtKeyword fun _ => .consult rfl fun _ => ?_
  extract_lets rest
  have hrest (first : Node) : x.Agrees .passed .passed (rest first) :=
    .iterate fun e => member_agrees hd start e
  clear_value rest
  refine .ite ?_ ((head_agrees hd).after fun _ => hrest _)
  refine advance_agrees.after fun _ => ?_
  refine .spanFrom fun _ => .isAt fun _ => .isAt fun _ => ?_
  exact .ite (.pure_bind <| hrest _) (.absurd .refuseToken)

theorem call_agrees (hd : d.Agrees x) (start : Nat) (mayBeAsync : Bool) (e : Node) :
    x.Agrees i o (call d start mayBeAsync e) := by
  refine .eats <| .markValue ?_
  extract_lets rest
  have hrest (arguments : List Node) : x.Agrees .passed .passed (rest arguments) := by
    dsimp -zeta only [rest]
    extract_lets finish
    have hfinish : x.Agrees .passed .passed (finish ()) :=
      .isAt fun _ => .ite .pure (.spanFrom fun _ => .pure)
    clear_value finish
    split
    · exact .guard .refuseLine hfinish
    · exact hfinish
  clear_value rest
  exact .ite ((asyncArguments_agrees hd).after fun _ => hrest _)
    ((callArguments_agrees hd).after fun _ => hrest _)

theorem callOrMember_agrees (hd : d.Agrees x) : x.Agrees i o (callOrMember d) := by
  refine .eats <| .here fun start => .get rfl fun _ => .modifyContext ?_
  extract_lets rest
  have hrest (first : Node) : x.Agrees .passed .passed (rest first) := by
    refine (Agrees.iterate fun e => .isAtOther (by simp) (.token fun _ => ?_)
      (member_agrees hd start e)).next fun _ => .modifyContext .pure
    exact (call_agrees hd _ _ _).after fun _ => .pure
  clear_value rest
  refine .ite ?_ ((head_agrees hd).after fun _ => hrest _)
  refine advance_agrees.after fun _ => ?_
  refine .spanFrom fun _ => ?_
  exact .isAt fun _ => .isAt fun _ => .isAt fun _ =>
    .ite (.pure_bind <| hrest _) (.absurd .refuseToken)

/-! ## Operators -/

theorem updateOp?_agrees : x.Agrees i i updateOp? := by
  refine .kind rfl fun _ => ?_
  split <;> exact .pure

theorem checkUpdated_agrees (e : Node) (restricted : Fault) :
    x.Agrees i i (checkUpdated e restricted) :=
  .consult rfl fun _ => .ite .refuseLine (.ite .refuseLine .pure)

/-- A closing parenthesis is no operator, on whatever line it stands. -/
theorem update_agrees (hd : d.Agrees x) : x.Agrees i o (update d) := by
  refine .eats <| .here fun start => updateOp?_agrees.next fun op? => ?_
  cases op? with
  | some op =>
    refine advance_agrees.after fun _ => ?_
    refine hd.unary.inherit.eats.next fun _ => ?_
    refine (checkUpdated_agrees _ _).next fun _ => ?_
    exact .markValue <| .spanFrom fun _ => .pure
  | none =>
    refine (callOrMember_agrees hd).inherit.after fun e => ?_
    refine .stays (b := fun _ => e) rfl rfl (fun _ => ?_) ?_
    · refine .ite .pure <| updateOp?_agrees.next fun op? => ?_
      cases op? with
      | some op =>
        refine (checkUpdated_agrees _ _).next fun _ => ?_
        refine .markValue <| advance_agrees.next fun _ => ?_
        exact .spanFrom fun _ => .pure
      | none => exact .pure
    · intro s hkind
      have hnone : updateOp?.run s = .ok (none, s) := by
        rw [s.eq_of_kind hkind]
        rfl
      split
      · rfl
      · rw [StateT.run_bind, hnone]
        rfl

theorem unaryOp?_agrees : x.Agrees i i unaryOp? := by
  refine .kind rfl fun _ => ?_
  split <;> exact .pure

theorem unary_agrees (hd : d.Agrees x) : x.Agrees i o (unary d) := by
  refine .eats <| .here fun _ => unaryOp?_agrees.next fun op? => ?_
  cases op? with
  | some op =>
    refine advance_agrees.after fun _ => ?_
    refine hd.unary.inherit.eats.next fun _ => ?_
    refine .consult rfl fun _ => ?_
    exact .guard .refuseLine <| .markValue <| .spanFrom fun _ => .pure
  | none =>
    refine .consult rfl fun _ => .isAtName fun _ =>
      .ite (advance_agrees.after fun _ => ?_) (update_agrees hd)
    exact hd.unary.eats.next fun _ => .spanFrom fun _ => .pure

theorem power_agrees (hd : d.Agrees x) : x.Agrees i o (power d) := by
  refine .eats <| .here fun _ => (unary_agrees hd).inherit.after fun _ => ?_
  split
  · exact .pure
  · refine (accept_agrees _).next fun _ => ?_
    refine .ite (.markValue ?_) .pure
    exact hd.power.isolate.eats.next fun _ => .spanFrom fun _ => .pure

theorem binaryOp?_agrees : x.Agrees i i binaryOp? := by
  refine .consult rfl fun _ => ?_
  split <;> exact .pure

theorem binary_agrees (hd : d.Agrees x) : x.Agrees i o (binary d) := by
  refine .eats <| .here fun _ => (power_agrees hd).inherit.after fun _ => ?_
  refine binaryOp?_agrees.next fun op? => ?_
  cases op? with
  | none => exact .pure
  | some op =>
    refine advance_agrees.anew fun _ => ?_
    refine .markValue <| .here fun _ => ?_
    refine (power_agrees hd).isolate.after fun _ => ?_
    refine .iterate fun _ => .consult rfl fun _ => ?_
    refine binaryOp?_agrees.next fun op? => ?_
    cases op? with
    | none => exact .pure
    | some op =>
      refine advance_agrees.anew fun _ => ?_
      refine .here fun _ => ?_
      exact (power_agrees hd).isolate.after fun _ => .pure

theorem conditional_agrees (hd : d.Agrees x) : x.Agrees i o (conditional d) := by
  refine .eats <| .here fun _ => (binary_agrees hd).inherit.after fun _ => ?_
  refine (accept_agrees _).next fun _ => ?_
  refine .ite (.consult rfl fun _ => .modifyContext <| hd.assignment.isolate.eats.next fun _ =>
    .modifyContext ?_) .pure
  refine (expect_agrees _).next fun _ => ?_
  refine hd.assignment.isolate.eats.next fun _ => ?_
  exact .markValue <| .spanFrom fun _ => .pure

/-! ## Arrow functions and assignments -/

theorem formal_agrees (isAsync : Bool) (param : Node) :
    x.Agrees i i (arrowFormals.formal isAsync param) := by
  unfold arrowFormals.formal
  split
  · exact .guard .refuseToken .pure
  · exact .guard .refuseToken .pure
  · exact .pure

theorem arrowFormals_agrees (e : Node) : x.Agrees i i (arrowFormals e) := by
  have hmapM (isAsync : Bool) (params : List Node) :
      x.Agrees i i (params.mapM (arrowFormals.formal isAsync)) := by
    induction params with
    | nil => exact .pure
    | cons param params ih =>
      rw [List.mapM_cons]
      refine (formal_agrees _ _).next fun _ => ?_
      exact ih.next fun _ => .pure
  have hformals (isAsync : Bool) (params : List Node) :
      x.Agrees i i (arrowFormals.formals isAsync params) := by
    refine (hmapM _ _).next fun ns => ?_
    refine .consult rfl fun s => .ite (.guard .refuseToken ?checked) ?checked
    exact .guard .refuseHere .pure
  unfold arrowFormals
  split
  · exact hformals _ _
  · exact hformals _ _
  · exact .pure

theorem arrowRest_agrees (hd : d.Agrees x) (start : Nat) {ps : Parameters} (isAsync : Bool) :
    x.Agrees i o (arrowRest d start ps isAsync) := by
  refine .eats <| .get rfl fun _ => .guard .refuseToken <| .modifyContext ?_
  refine .consult rfl fun _ => .modifyContext <| (bodyFor_agrees ?_).after fun _ => ?_
  · refine (expect_agrees _).after fun _ => ?_
    refine .isAt fun _ => .ite ?_ hd.assignment.isolate.eats
    exact .consult rfl fun _ => .modifyContext <|
      (functionBody_agrees hd).next fun _ => .modifyContext .pure
  · exact .spanFrom fun _ => .modifyContext .pure

theorem isAtOperand_agrees : x.Agrees i i isAtOperand := by
  refine .kind rfl fun _ => ?_
  split <;> exact .pure

/-- In front of a closing parenthesis there is no operand, on whatever line it stands. -/
theorem yieldExpression_agrees (hd : d.Agrees x) : x.Agrees i o (yieldExpression d) := by
  refine .eats <| .here fun start => (expectKeyword_agrees _).after fun _ => ?_
  refine .stays (b := fun s => .yield ⟨start, s.last.index⟩ false none) rfl rfl (fun _ => ?_) ?_
  · refine .ite (.spanFrom fun _ => .pure) <| .consult rfl fun _ => .modifyContext ?_
    refine (accept_agrees _).next fun _ => ?_
    refine isAtOperand_agrees.next fun _ => ?_
    extract_lets rest
    have hrest (argument : Option Node) : x.Agrees .passed .passed (rest argument) :=
      .modifyContext <| .spanFrom fun _ => .pure
    clear_value rest
    exact .ite (hd.assignment.eats.next fun _ => .pure_bind <| hrest _) (.pure_bind <| hrest _)
  · intro s hkind
    dsimp only
    split
    · rfl
    · have haccept {s : State} (hkind : s.token.kind = .punctuator .rightParen) :
          (accept (.operator .times)).run s = .ok (false, s) := by
        rw [s.eq_of_kind hkind]
        rfl
      have hoperand {s : State} (hkind : s.token.kind = .punctuator .rightParen) :
          isAtOperand.run s = .ok (false, s) := by
        rw [s.eq_of_kind hkind]
        rfl
      have hmark (g : Context → Context) (s : State) :
          (modifyContext g).run s = .ok ((), { s with toContext := g s.toContext }) := rfl
      have hok {α β : Type} (a : α) (f : α → Except ParseError β) : (.ok a >>= f) = f a := rfl
      rw [StateT.run_bind, StateT.run_get, pure_bind, StateT.run_bind, hmark, hok, StateT.run_bind,
        haccept (by exact hkind), hok, StateT.run_bind, hoperand (by exact hkind), hok]
      rfl

theorem assignmentRest_agrees (hd : d.Agrees x) {first : Token} (op : Option BinaryOp)
    (target : Node) :
    x.Agrees i o (assignmentRest d first op target) := by
  refine .eats <| .consult rfl fun _ => .guard .refuseLine ?_
  extract_lets left perform rest
  have hperform : x.Agrees .reached .passed (perform ()) := by
    refine advance_agrees.after fun _ => ?_
    refine hd.assignment.isolate.eats.next fun _ => ?_
    refine .spanFrom fun _ => ?_
    exact .modifyContext .pure
  clear_value perform
  have hrest : x.Agrees .reached .passed (rest ()) := .ite (.markValue hperform) hperform
  clear_value rest
  refine .ite ?_ hrest
  split
  · exact .guard .refuseFor <| .guard .refuseFor hrest
  · exact hrest

theorem asyncParameter_agrees (hd : d.Agrees x) (first : Token) (e : Node) :
    x.Agrees i i (asyncParameter d first e) := by
  refine .stays (b := fun _ => e) rfl rfl (fun _ => .ite ?_ .pure) ?_
  · split
    · exact (primary_agrees hd).next fun _ => .pure
    · exact (primary_agrees hd).next fun _ => .pure
    · exact .pure
  · intro s hkind
    simp only [hkind, ite_self]
    rfl

theorem assignment_agrees (hd : d.Agrees x) : x.Agrees i o (assignment d) := by
  refine .eats <| .consult rfl fun _ => .isAtKeyword fun _ => .ite (yieldExpression_agrees hd) ?_
  refine .token fun first => (conditional_agrees hd).after fun _ => ?_
  refine (asyncParameter_agrees hd _ _).next fun e => ?_
  refine .isAt fun _ => .ite (.markValue ?_) ?_
  · refine (arrowFormals_agrees e).next fun r => ?_
    cases r with
    | none => exact .pure
    | some r => exact arrowRest_agrees hd _ _
  · refine .kind rfl fun _ => ?_
    split
    · exact assignmentRest_agrees hd _ _
    · exact .pure

end SourceEnd
end Elementwise
