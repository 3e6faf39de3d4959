import Elementwise.Grammar.Expression
import Elementwise.Proofs.FaultPlace.Function

/-!
# Expressions stay in their text

A list in braces may turn out to be a pattern, so the `=` behind a shorthand property is kept until
this is known; an assignment keeps its first token for the same reason.  Everything else is refused
for the token that is looked at or was consumed last.
-/

set_option autoImplicit false
namespace Elementwise
namespace Parse

variable {w : Text} {d : Deeper}

/-! ## Templates -/

theorem templateElement_stays : Stays w templateElement := by
  refine .here fun _ => .token fun _ _ => ?_
  split
  · exact advance_stays.bind fun _ _ => .spanFrom fun _ => .pure trivial
  · exact .refuseHere

theorem isAtTemplate_stays : Stays w isAtTemplate := by
  refine .token fun _ _ => ?_
  split <;> exact .pure trivial

/-- The part of a template behind a substitution has no place. -/
theorem template_stays (hd : d.Stays w) : Stays w (template d) := by
  refine .here fun _ => isAtTemplate_stays.bind fun _ _ => ?_
  refine .ite ?_ (.absurd (.throw trivial))
  refine templateElement_stays.bind fun _ _ => (Stays.loop fun _ => ?_).bind fun _ _ =>
    .spanFrom fun _ => .pure trivial
  refine .ite (.pure trivial) <| (expression_stays hd).bind fun _ _ => ?_
  exact templateElement_stays.bind fun _ _ => .pure trivial

/-! ## Arrays and objects -/

theorem spreadElement_stays (hd : d.Stays w) : Stays w (spreadElement d) := by
  refine .here fun _ => (expect_stays _).bind fun _ _ => ?_
  exact (hd _).inherit.bind fun _ _ => .spanFrom fun _ => .pure trivial

theorem arrayLiteral_stays (hd : d.Stays w) : Stays w (arrayLiteral d) := by
  refine .here fun _ => (expect_stays _).bind fun _ _ => (Stays.collect ?_).bind fun _ _ =>
    (expect_stays _).bind fun _ _ => .spanFrom fun _ => .pure trivial
  refine .isAt fun _ => .ite (.pure trivial) <| (accept_stays _).bind fun _ _ => ?_
  refine .ite (.pure trivial) <| .isAt fun _ => .ite ?_ ?_
  · refine (spreadElement_stays hd).bind fun _ _ => ?_
    refine .isAt fun _ => .ite (.pure trivial) ?_
    exact .markValue <| (expect_stays _).bind fun _ _ => .pure trivial
  · refine (hd _).inherit.bind fun _ _ => ?_
    refine .isAt fun _ => .ite (.pure trivial) ?_
    exact (expect_stays _).bind fun _ _ => .pure trivial

theorem propertyValue_stays (hd : d.Stays w) (key : Node) (computed isAsync hasProto : Bool) :
    Stays w (propertyValue d key computed isAsync hasProto) := by
  refine .token fun _ _ => .ite ?_ (.ite ?_ (.pure trivial))
  · refine .guard .refuseLine <| advance_stays.bind fun _ _ => ?_
    exact (hd _).inherit.bind fun _ _ => .pure trivial
  · refine .ite ?_ ?_
    · exact (method_stays hd _ fun _ => .pure trivial).bind fun _ _ => .pure trivial
    · exact (plainMethod_stays hd).bind fun _ _ => .pure trivial

/-- Without `=` the name of a shorthand property is its value, too. -/
theorem shorthand_stays (hd : d.Stays w) {start : Nat} {computed hasProto : Bool} {key : Node}
    {target : Node} : Stays w (do
      if ← isAt (.assign none) then
        let t ← token
        modifyContext fun c => { c with coverInit := some t }
        let _ ← advance
        let init ← isolate (d.parse .assignment)
        let value := Node.assignmentPattern (← spanFrom start) target init
        return (Node.property (← spanFrom start) .value computed false true key value, hasProto)
      else
        return (Node.property (← spanFrom start) .value computed false true key target,
          hasProto)) := by
  refine .isAt fun _ =>
    .ite (.token fun a ha => .alterContext ?_ ?_) (.spanFrom fun _ => .pure trivial)
  · refine advance_stays.bind fun _ _ => ?_
    refine (hd _).isolate.bind fun _ _ => ?_
    exact .spanFrom fun _ => .spanFrom fun _ => .pure trivial
  · exact fun _ _ _ hb => Option.mem_some.1 hb ▸ ha

theorem objectProperty_stays (hd : d.Stays w) (hasProto : Bool) :
    Stays w (objectProperty d hasProto) := by
  refine .here fun _ => .token fun _ _ => ?_
  extract_lets name? isGenerator rest
  clear_value name?
  have hrest (r : Option Node × Bool × Bool) : Stays w (rest r) := by
    refine .token fun _ _ => .ite ?_ <| .ite ?_ <| .ite ?_ ?_
    · refine .isAt fun _ => (propertyKey_stays hd).bind fun _ _ => ?_
      refine .modifyContext rfl ?_
      exact (getter_stays hd).bind fun _ _ => .spanFrom fun _ => .pure trivial
    · refine .isAt fun _ => (propertyKey_stays hd).bind fun _ _ => ?_
      exact (setter_stays hd).bind fun _ _ => .spanFrom fun _ => .pure trivial
    · refine .isAt fun _ => (propertyKey_stays hd).bind fun _ _ => ?_
      exact (method_stays hd _ fun _ => .pure trivial).bind fun _ _ =>
        .spanFrom fun _ => .pure trivial
    obtain ⟨key?, computed, isAsync⟩ := r
    cases key? with
    | none => exact .refuseToken
    | some key =>
      refine (propertyValue_stays hd _ _ _ _).bind fun r _ => ?_
      obtain ⟨value?, hasProto⟩ := r
      dsimp -zeta only
      split
      · exact .spanFrom fun _ => .pure trivial
      · exact .spanFrom fun _ => shorthand_stays hd
      · refine advance_stays.bind fun _ ha => ?_
        exact .refuse ha
  clear_value rest
  split
  · refine advance_stays.bind fun _ _ => ?_
    refine .get fun _ _ => .isAt fun _ => .ite ?_ ?_
    · exact (propertyKey_stays hd).bind fun _ _ => .pure_bind <| hrest _
    · exact .spanFrom fun _ => .pure_bind <| hrest _
  · refine .ite (advance_stays.bind fun _ _ => .pure_bind <| hrest _) <| .isAt fun _ => ?_
    exact (propertyKey_stays hd).bind fun _ _ => .pure_bind <| hrest _

theorem objectLiteral_stays (hd : d.Stays w) : Stays w (objectLiteral d) := by
  refine .here fun _ => (expect_stays _).bind fun _ _ => (Stays.loop fun _ => ?_).bind fun _ _ =>
    (expect_stays _).bind fun _ _ => .spanFrom fun _ => .pure trivial
  refine .isAt fun _ => .ite (.pure trivial) <| .isAt fun _ => ?_
  extract_lets rest
  have hrest (r : Node × Bool) : Stays w (rest r) :=
    .isAt fun _ => .ite (.pure trivial) <| (expect_stays _).bind fun _ _ => .pure trivial
  clear_value rest
  refine .ite ((spreadElement_stays hd).bind fun _ _ => .pure_bind <| hrest _) ?_
  exact (objectProperty_stays hd _).bind fun _ _ => hrest _

/-! ## Parentheses -/

theorem closeParameters_stays : Stays w closeParameters := by
  refine (expect_stays _).bind fun _ _ => ?_
  exact .isAt fun _ => .ite (.pure trivial) (expect_stays _)

theorem groupRest_stays (hd : d.Stays w) (first : Node) : Stays w (groupRest d first) := by
  refine .loop fun _ => (accept_stays _).bind fun _ _ => ?_
  refine .ite ?_ (.pure trivial)
  refine (accept_stays _).bind fun _ _ => ?_
  refine .ite (.pure trivial) <| .isAt fun _ => .ite ?_ ?_
  · refine .get fun _ _ => .guard .refuseToken <| (restParameter_stays hd).bind fun _ _ => ?_
    exact closeParameters_stays.bind fun _ _ => .modifyContext rfl <| .pure trivial
  · exact (hd _).inherit.bind fun _ _ => .pure trivial

theorem group_stays (hd : d.Stays w) : Stays w (group d) := by
  refine (expect_stays _).bind fun _ _ => ?_
  refine .isAt fun _ => ?_
  refine .ite (closeParameters_stays.bind fun _ _ => .pure trivial) <|
    .here fun _ => .isAt fun _ => ?_
  refine .ite ((restParameter_stays hd).bind fun _ _ => closeParameters_stays.bind fun _ _ => .pure
    trivial) <| .modifyContext rfl <| (hd _).inherit.bind fun first _ => ?_
  refine .isAt fun _ => ?_
  extract_lets close rest
  have hclose (e : Node) : Stays w (close e) := by
    refine (expect_stays _).bind fun _ _ => ?_
    refine .isAt fun _ => .ite ?_ (.modifyContext rfl <| .pure trivial)
    refine .ite (.modifyContext rfl <| .pure trivial) <| .get fun _ _ => .guard .refuseToken ?_
    exact .modifyContext rfl <| .pure trivial
  clear_value close
  have hrest (r : List Node × Bool) : Stays w (rest r) :=
    .ite (.pure trivial) <|
      .ite (.pure_bind <| hclose _) (.spanFrom fun _ => .pure_bind <| hclose _)
  clear_value rest
  refine .ite (.modifyContext rfl ?_) (.pure_bind <| hrest _)
  exact (groupRest_stays hd _).bind fun _ _ => hrest _

/-! ## Calls and members -/

theorem argumentsOf_stays (hd : d.Stays w) {argument : Parse Node} (hargument : Stays w argument) :
    Stays w (argumentsOf d argument) := by
  refine (expect_stays _).bind fun _ _ => ?_
  refine .isAt fun _ => ?_
  extract_lets rest
  have hrest (nodes : List Node) : Stays w (rest nodes) :=
    (expect_stays _).bind fun _ _ => .pure trivial
  clear_value rest
  refine .ite (.pure_bind <| hrest _) <|
    (Stays.loop fun _ => .isAt fun _ => ?_).bind fun _ _ => hrest _
  extract_lets more
  have hmore (n : Node) : Stays w (more n) := by
    refine .isAt fun _ => .ite (.pure trivial) <| (expect_stays _).bind fun _ _ => ?_
    exact .isAt fun _ => .ite (.pure trivial) (.pure trivial)
  clear_value more
  exact .ite ((spreadElement_stays hd).bind fun _ _ => hmore _)
    (hargument.isolate.bind fun _ _ => hmore _)

theorem callArguments_stays (hd : d.Stays w) : Stays w (callArguments d) :=
  argumentsOf_stays hd (hd _)

theorem asyncArguments_stays (hd : d.Stays w) : Stays w (asyncArguments d) :=
  argumentsOf_stays hd <| (hd _).bind fun _ _ =>
    .alterContext (.pure trivial) fun _ _ _ hb => by cases hb

theorem isAtImportCall_stays : Stays w isAtImportCall :=
  .isAtKeyword fun _ => .ite (peek_stays.bind fun _ _ => .pure trivial) (.pure trivial)

theorem literal_stays (value : Literal) : Stays w (literal value) :=
  .here fun _ => .markValue <| advance_stays.bind fun _ _ => .spanFrom fun _ => .pure trivial

/-- A regular expression begins with the slash that is looked at, so the text does not end there. -/
theorem regex_staysFrom {s : State} (hs : s.LiesIn w) {p : Punctuator}
    (hkind : s.token.kind = .punctuator p) : StaysFrom w s regex := by
  have hbehind : (s.tokenPlace.step 1).Fronts (s.tokenRest.drop 1) w := by
    have hplace := hs.place
    cases hrest : s.tokenRest with
    | nil =>
      rw [hs.ending hrest] at hkind
      cases hkind
    | cons c t =>
      rw [hrest] at hplace
      exact hplace.step_inLine (hs.inLine c (by rw [hrest]; rfl))
  refine .get <| .modify ?_
  dsimp only
  split
  · next e hread => exact Stays.throw (hbehind.along (Regex.along_read hread)) _ { hs with }
  · next pattern flags p' t' hread =>
    have hreach := Regex.reaches_read hread
    have hlevel := Regex.level_read hread
    have hline : p'.line = s.tokenPlace.line := hlevel.line
    refine .modify <| (advance_stays.bind fun _ _ => .spanFrom fun _ => .pure trivial) _ ?_
    refine
      { hs with
        reader := hbehind.along_line hreach hlevel
        token := ?token
        ending := fun hnil => ?ending
        ahead := Nat.le_trans (Nat.le_succ _) hreach.le
        level := fun _ _ => hline
        order := ?order }
    case token =>
      exact ⟨s.reader.place.index, hs.ahead, hs.reader.liesIn.index, hs.reader.lineAt⟩
    case ending =>
      rw [show s.tokenRest = [] from hnil] at hread
      cases hread
    case order =>
      rw [hline, ← hs.level p hkind]
      exact hs.order

theorem primary_stays (hd : d.Stays w) : Stays w (primary d) := by
  have hrefuse : Stays w (do refuse (← advance) : Parse Node) :=
    advance_stays.bind fun _ ha => .refuse ha
  refine .here fun _ => .getFrom fun s hs => ?_
  have hstays {p : Parse Node} (h : Stays w p) : StaysFrom w s p := h s hs
  split
  · refine hstays <| .guard .refuseToken <| isAtAsyncFunction_stays.bind fun _ _ => ?_
    exact .ite (functionExpression_stays hd) <| advance_stays.bind fun _ _ =>
      .spanFrom fun _ => .pure trivial
  · exact hstays <| .guard (.refuseFor hs.token) (literal_stays _)
  · exact hstays <| .guard (.refuseFor hs.token) (literal_stays _)
  · exact hstays <| literal_stays _
  · exact hstays <| literal_stays _
  · exact hstays <| template_stays hd
  · exact hstays <| .modifyContext rfl (group_stays hd).inherit
  · exact hstays (arrayLiteral_stays hd).inherit
  · exact hstays (objectLiteral_stays hd).inherit
  · next hkind => exact regex_staysFrom hs hkind
  · next hkind => exact regex_staysFrom hs hkind
  · refine hstays <| .ite identifierName_stays <| .ite ?_ <| .markValue ?_
    · exact advance_stays.bind fun _ _ => .spanFrom fun _ => .pure trivial
    split
    · exact functionExpression_stays hd
    · exact advance_stays.bind fun _ _ => .spanFrom fun _ => .pure trivial
    · exact classExpression_stays hd
    · refine isAtImportCall_stays.bind fun _ _ => ?_
      refine .ite ?_ hrefuse
      exact advance_stays.bind fun _ _ => .spanFrom fun _ => .pure trivial
    · exact hrefuse
  · exact hstays hrefuse

theorem newExpression_stays (hd : d.Stays w) : Stays w (newExpression d) := by
  refine .here fun _ => identifierName_stays.bind fun _ _ => ?_
  refine (accept_stays _).bind fun _ _ => ?_
  refine .ite ?_ ?_
  · refine .get fun _ _ => .ite ?_ .refuseToken
    exact identifierName_stays.bind fun _ _ => .spanFrom fun _ => .pure trivial
  refine .isAtKeyword fun _ => .ite .refuseToken <| (hd _).isolate.bind fun _ _ => ?_
  refine .isAt fun _ => ?_
  extract_lets rest
  have hrest (arguments : List Node) : Stays w (rest arguments) :=
    .markValue <| .spanFrom fun _ => .pure trivial
  clear_value rest
  exact .ite ((callArguments_stays hd).bind fun _ _ => hrest _) (.pure_bind <| hrest _)

theorem head_stays (hd : d.Stays w) : Stays w (head d) :=
  .isAtKeyword fun _ => .ite (newExpression_stays hd).inherit (primary_stays hd).inherit

theorem suffix?_stays (hd : d.Stays w) (start : Nat) (e : Node) : Stays w (suffix? d start e) := by
  refine .isAt fun _ => .ite (.markMember ?_) <| .isAt fun _ => .ite (.markMember ?_) ?_
  · refine (expect_stays _).bind fun _ _ => ?_
    exact identifierName_stays.bind fun _ _ => .spanFrom fun _ => .pure trivial
  · refine (expect_stays _).bind fun _ _ => ?_
    refine (expression_stays hd).isolate.bind fun _ _ => ?_
    exact (expect_stays _).bind fun _ _ => .spanFrom fun _ => .pure trivial
  · refine isAtTemplate_stays.bind fun _ _ => ?_
    refine .ite ?_ (.pure trivial)
    exact (template_stays hd).bind fun _ _ => .spanFrom fun _ => .pure trivial

/-- One more member or template behind an expression. -/
theorem member_stays (hd : d.Stays w) (start : Nat) (e : Node) : Stays w (do
      match ← suffix? d start e with
      | some e => return .inl e
      | none => return .inr e : Parse (Node ⊕ Node)) := by
  refine (suffix?_stays hd start e).bind fun r _ => ?_
  cases r <;> exact .pure trivial

theorem callee_stays (hd : d.Stays w) : Stays w (callee d) := by
  refine .here fun start => .isAtKeyword fun _ => .get fun _ _ => ?_
  extract_lets rest
  have hrest (first : Node) : Stays w (rest first) := .loop fun e => member_stays hd start e
  clear_value rest
  refine .ite ?_ ((head_stays hd).bind fun _ _ => hrest _)
  refine advance_stays.bind fun _ _ => ?_
  refine .spanFrom fun _ => .isAt fun _ => .isAt fun _ => ?_
  exact .ite (.pure_bind <| hrest _) (.absurd .refuseToken)

theorem call_stays (hd : d.Stays w) (start : Nat) (mayBeAsync : Bool) (e : Node) :
    Stays w (call d start mayBeAsync e) := by
  refine .markValue ?_
  extract_lets rest
  have hrest (arguments : List Node) : Stays w (rest arguments) := by
    dsimp -zeta only [rest]
    extract_lets finish
    have hfinish : Stays w (finish ()) :=
      .isAt fun _ => .ite (.pure trivial) (.spanFrom fun _ => .pure trivial)
    clear_value finish
    split
    · exact .guard .refuseLine hfinish
    · exact hfinish
  clear_value rest
  exact .ite ((asyncArguments_stays hd).bind fun _ _ => hrest _)
    ((callArguments_stays hd).bind fun _ _ => hrest _)

theorem callOrMember_stays (hd : d.Stays w) : Stays w (callOrMember d) := by
  refine .here fun start => .get fun _ _ => .modifyContext rfl ?_
  extract_lets rest
  have hrest (first : Node) : Stays w (rest first) := by
    refine (Stays.loop fun e => .isAt fun _ => .ite (.token fun _ _ => ?_)
      (member_stays hd start e)).bind fun _ _ => .modifyContext rfl <| .pure trivial
    exact (call_stays hd _ _ _).bind fun _ _ => .pure trivial
  clear_value rest
  refine .ite ?_ ((head_stays hd).bind fun _ _ => hrest _)
  refine advance_stays.bind fun _ _ => ?_
  refine .spanFrom fun _ => ?_
  exact .isAt fun _ => .isAt fun _ => .isAt fun _ =>
    .ite (.pure_bind <| hrest _) (.absurd .refuseToken)

/-! ## Operators -/

theorem updateOp?_stays : Stays w updateOp? := by
  refine .token fun _ _ => ?_
  split <;> exact .pure trivial

theorem checkUpdated_stays (e : Node) (restricted : Fault) : Stays w (checkUpdated e restricted) :=
  .get fun _ _ => .guard .refuseLine <| .ite .refuseLine (.pure trivial)

theorem update_stays (hd : d.Stays w) : Stays w (update d) := by
  refine .here fun _ => updateOp?_stays.bind fun op? _ => ?_
  cases op? with
  | some op =>
    refine advance_stays.bind fun _ _ => ?_
    refine (hd _).inherit.bind fun _ _ => ?_
    refine (checkUpdated_stays _ _).bind fun _ _ => ?_
    exact .markValue <| .spanFrom fun _ => .pure trivial
  | none =>
    refine (callOrMember_stays hd).inherit.bind fun _ _ => ?_
    refine .get fun _ _ => .ite (.pure trivial) ?_
    refine updateOp?_stays.bind fun op? _ => ?_
    cases op? with
    | some op =>
      refine (checkUpdated_stays _ _).bind fun _ _ => ?_
      refine .markValue <| advance_stays.bind fun _ _ => ?_
      exact .spanFrom fun _ => .pure trivial
    | none => exact .pure trivial

theorem unaryOp?_stays : Stays w unaryOp? := by
  refine .token fun _ _ => ?_
  split <;> exact .pure trivial

theorem unary_stays (hd : d.Stays w) : Stays w (unary d) := by
  refine .here fun _ => unaryOp?_stays.bind fun op? _ => ?_
  cases op? with
  | some op =>
    refine advance_stays.bind fun _ _ => ?_
    refine (hd _).inherit.bind fun _ _ => ?_
    refine .get fun _ _ => ?_
    exact .guard .refuseLine <| .markValue <| .spanFrom fun _ => .pure trivial
  | none =>
    refine .get fun _ _ => .isAtName fun _ =>
      .ite (advance_stays.bind fun _ _ => ?_) (update_stays hd)
    exact (hd _).bind fun _ _ => .spanFrom fun _ => .pure trivial

theorem power_stays (hd : d.Stays w) : Stays w (power d) := by
  refine .here fun _ => (unary_stays hd).inherit.bind fun _ _ => ?_
  split
  · exact .pure trivial
  · refine (accept_stays _).bind fun _ _ => ?_
    refine .ite (.markValue ?_) (.pure trivial)
    exact (hd _).isolate.bind fun _ _ => .spanFrom fun _ => .pure trivial

theorem binaryOp?_stays : Stays w binaryOp? := by
  refine .get fun _ _ => ?_
  split <;> exact .pure trivial

theorem binary_stays (hd : d.Stays w) : Stays w (binary d) := by
  refine .here fun _ => (power_stays hd).inherit.bind fun _ _ => ?_
  refine binaryOp?_stays.bind fun op? _ => ?_
  cases op? with
  | none => exact .pure trivial
  | some op =>
    refine advance_stays.bind fun _ _ => ?_
    refine .markValue <| .here fun _ => ?_
    refine (power_stays hd).isolate.bind fun _ _ => ?_
    refine .loop fun _ => .get fun _ _ => ?_
    refine binaryOp?_stays.bind fun op? _ => ?_
    cases op? with
    | none => exact .pure trivial
    | some op =>
      refine advance_stays.bind fun _ _ => ?_
      refine .here fun _ => ?_
      exact (power_stays hd).isolate.bind fun _ _ => .pure trivial

theorem conditional_stays (hd : d.Stays w) : Stays w (conditional d) := by
  refine .here fun _ => (binary_stays hd).inherit.bind fun _ _ => ?_
  refine (accept_stays _).bind fun _ _ => ?_
  refine .ite (.get fun _ _ => .modifyContext rfl <|
    (hd _).isolate.bind fun _ _ => .modifyContext rfl ?_)
    (.pure trivial)
  refine (expect_stays _).bind fun _ _ => ?_
  refine (hd _).isolate.bind fun _ _ => ?_
  exact .markValue <| .spanFrom fun _ => .pure trivial

/-! ## Arrow functions and assignments -/

theorem formal_stays (isAsync : Bool) (param : Node) :
    Stays w (arrowFormals.formal isAsync param) := by
  unfold arrowFormals.formal
  split
  · exact .guard .refuseToken (.pure trivial)
  · exact .guard .refuseToken (.pure trivial)
  · exact .pure trivial

/-- The names of an arrow function's parameters are known too late for their tokens to be blamed. -/
theorem arrowFormals_stays (e : Node) :
    Stays w (arrowFormals e) fun r => ∀ ps ∈ r, ps.1.LiesIn w := by
  have hnames (strict : Bool) (seen : List Text) {n : Names} (hn : n.LiesIn w) :
      Names.LiesIn w (seen.foldl (fun n name => n.add strict name .here) n) := by
    induction seen generalizing n with
    | nil => exact hn
    | cons name seen ih => exact ih (hn.add (b := .here) trivial strict name)
  have hmapM (isAsync : Bool) (params : List Node) :
      Stays w (params.mapM (arrowFormals.formal isAsync)) := by
    induction params with
    | nil => exact .pure trivial
    | cons param params ih =>
      rw [List.mapM_cons]
      refine (formal_stays _ _).bind fun _ _ => ?_
      exact ih.bind fun _ _ => .pure trivial
  have hformals (isAsync : Bool) (params : List Node) :
      Stays w (arrowFormals.formals isAsync params) fun r => ∀ ps ∈ r, ps.1.LiesIn w := by
    refine (hmapM _ _).bind fun ns _ => ?_
    refine .get fun s _ => .ite (.guard .refuseToken ?checked) ?checked
    refine .guard .refuseHere <| .pure fun ps hps => Option.mem_some.1 hps ▸ ?_
    exact hnames s.strict _ Names.liesIn_empty
  unfold arrowFormals
  split
  · exact hformals _ _
  · exact hformals _ _
  · exact .pure (by simp)

theorem arrowRest_stays (hd : d.Stays w) (start : Nat) {ps : Parameters} (hps : ps.LiesIn w)
    (isAsync : Bool) : Stays w (arrowRest d start ps isAsync) := by
  refine .get fun _ _ => .guard .refuseToken <| .alterContext ?_ fun _ _ _ hb => by cases hb
  refine .get fun _ _ => .modifyContext rfl <| (bodyFor_stays hps ?_).bind fun _ _ => ?_
  · refine (expect_stays _).bind fun _ _ => ?_
    refine .isAt fun _ => .ite ?_ (hd _).isolate
    exact .get fun _ _ => .modifyContext rfl <| (functionBody_stays hd).bind fun _ _ =>
      .modifyContext rfl <| .pure trivial
  · exact .spanFrom fun _ => .modifyContext rfl <| .pure trivial

theorem isAtOperand_stays : Stays w isAtOperand := by
  refine .token fun _ _ => ?_
  split <;> exact .pure trivial

theorem yieldExpression_stays (hd : d.Stays w) : Stays w (yieldExpression d) := by
  refine .here fun _ => (expectKeyword_stays _).bind fun _ _ => ?_
  refine .get fun _ _ => ?_
  refine .ite (.spanFrom fun _ => .pure trivial) <| .get fun _ _ => .modifyContext rfl ?_
  refine (accept_stays _).bind fun _ _ => ?_
  refine isAtOperand_stays.bind fun _ _ => ?_
  extract_lets rest
  have hrest (argument : Option Node) : Stays w (rest argument) :=
    .modifyContext rfl <| .spanFrom fun _ => .pure trivial
  clear_value rest
  exact .ite ((hd _).bind fun _ _ => .pure_bind <| hrest _) (.pure_bind <| hrest _)

theorem assignmentRest_stays (hd : d.Stays w) {first : Token} (hfirst : first.LiesIn w)
    (op : Option BinaryOp) (target : Node) : Stays w (assignmentRest d first op target) := by
  refine .get fun _ _ => .guard .refuseLine ?_
  extract_lets left perform rest
  have hperform : Stays w (perform ()) := by
    refine advance_stays.bind fun _ _ => ?_
    refine (hd _).isolate.bind fun _ _ => ?_
    refine .spanFrom fun _ => ?_
    exact .alterContext (.pure trivial) fun _ _ _ hb => by cases hb
  clear_value perform
  have hrest : Stays w (rest ()) := .ite (.markValue hperform) hperform
  clear_value rest
  refine .ite ?_ hrest
  split
  · exact .guard (.refuseFor hfirst) <| .guard (.refuseFor hfirst) hrest
  · exact hrest

theorem asyncParameter_stays (hd : d.Stays w) (first : Token) (e : Node) :
    Stays w (asyncParameter d first e) := by
  refine .token fun _ _ => .ite ?_ (.pure trivial)
  split
  · exact (primary_stays hd).bind fun _ _ => .pure trivial
  · exact (primary_stays hd).bind fun _ _ => .pure trivial
  · exact .pure trivial

/-- An assignment blames its first token for names it must not assign to. -/
theorem assignment_stays (hd : d.Stays w) : Stays w (assignment d) := by
  refine .get fun _ _ => .isAtKeyword fun _ => .ite (yieldExpression_stays hd) ?_
  refine .token fun first hfirst => (conditional_stays hd).bind fun _ _ => ?_
  refine (asyncParameter_stays hd _ _).bind fun e _ => ?_
  refine .isAt fun _ => .ite (.markValue ?_) ?_
  · refine (arrowFormals_stays e).bind fun r hr => ?_
    cases r with
    | none => exact .pure trivial
    | some r => exact arrowRest_stays hd _ (hr r rfl) _
  · refine .token fun _ _ => ?_
    split
    · exact assignmentRest_stays hd hfirst _ _
    · exact .pure trivial

end Parse
end Elementwise
