import Elementwise.Grammar.Script
import Elementwise.Proofs.FaultPlace.Expression

/-!
# Statements stay in their text

Statements keep no tokens but that of a function behind a label.  With them the recursion of the
grammar is closed: every construct stays in its text, and so does a script.
-/

set_option autoImplicit false
namespace Elementwise
namespace Parse

variable {w : Text} {d : Deeper}

/-! ## Blocks and simple statements -/

theorem block_stays (hd : d.Stays w) : Stays w (block d) := by
  refine .here fun _ => (expect_stays _).bind fun _ _ => (Stays.collect ?_).bind fun _ _ =>
    (expect_stays _).bind fun _ _ => .spanFrom fun _ => .pure trivial
  exact .isAt fun _ => .ite (.pure trivial) <| (hd _).bind fun _ _ => .pure trivial

theorem expressionStatement_stays (hd : d.Stays w) : Stays w (expressionStatement d) := by
  refine .here fun _ => (expression_stays hd).bind fun _ _ => ?_
  exact endStatement_stays.bind fun _ _ => .spanFrom fun _ => .pure trivial

theorem emptyStatement_stays : Stays w emptyStatement :=
  .here fun _ => (expect_stays _).bind fun _ _ => .spanFrom fun _ => .pure trivial

theorem debuggerStatement_stays : Stays w debuggerStatement := by
  refine .here fun _ => (expectKeyword_stays _).bind fun _ _ => ?_
  exact endStatement_stays.bind fun _ _ => .spanFrom fun _ => .pure trivial

theorem condition_stays (hd : d.Stays w) : Stays w (condition d) := by
  refine (expect_stays _).bind fun _ _ => ?_
  refine (expression_stays hd).bind fun _ _ => ?_
  exact (expect_stays _).bind fun _ _ => .pure trivial

/-! ## Declarations -/

theorem checkVariable_stays (id : Node) : Stays w (checkVariable id) :=
  .get fun _ _ => .ite .refuseLine (.pure trivial)

theorem initializer_stays (hd : d.Stays w) : Stays w (initializer d) :=
  (hd _).isolate.bind fun _ _ => .pure trivial

theorem lexicalBinding_stays (hd : d.Stays w) (kind : VariableKind) (inFor : Bool) :
    Stays w (lexicalBinding d kind inFor) := by
  refine .here fun _ => (bindingPattern_stays hd _).bind fun _ _ => ?_
  refine (checkVariable_stays _).bind fun _ _ => ?_
  extract_lets rest
  have hrest (init : Option Node) : Stays w (rest init) := .spanFrom fun _ => .pure trivial
  clear_value rest
  have hinit : Stays w (do rest (← initializer d)) := (initializer_stays hd).bind fun _ _ => hrest _
  refine .isAt fun _ => .ite (.isAtKeyword fun _ => .isAtName fun _ => ?_) ?_
  · refine .ite (.pure_bind <| hrest _) <| (accept_stays _).bind fun _ _ => ?_
    exact .ite hinit (.absurd .refuseHere)
  · exact .ite ((expect_stays _).bind fun _ _ => hinit) (.pure_bind <| hrest _)

theorem variableBinding_stays (hd : d.Stays w) (inFor : Bool) :
    Stays w (variableBinding d inFor) := by
  refine .here fun _ => (bindingPattern_stays hd _).bind fun _ _ => ?_
  refine (checkVariable_stays _).bind fun _ _ => ?_
  extract_lets rest
  have hrest (init : Option Node) : Stays w (rest init) := .spanFrom fun _ => .pure trivial
  clear_value rest
  refine (accept_stays _).bind fun _ _ => ?_
  refine .ite ((initializer_stays hd).bind fun _ _ => hrest _) ?_
  exact .ite ((expect_stays _).bind fun _ _ => .pure_bind <| hrest _) (.pure_bind <| hrest _)

theorem bindings_stays {binding : Parse Node} (hbinding : Stays w binding) :
    Stays w (bindings d binding) := by
  refine hbinding.bind fun _ _ => (Stays.collect ?_).bind fun _ _ => .pure trivial
  refine (accept_stays _).bind fun _ _ => ?_
  exact .ite (hbinding.bind fun _ _ => .pure trivial) (.pure trivial)

theorem variableStatement_stays (hd : d.Stays w) : Stays w (variableStatement d) := by
  refine .here fun _ => (expectKeyword_stays _).bind fun _ _ => ?_
  refine (bindings_stays (variableBinding_stays hd _)).bind fun _ _ => ?_
  exact endStatement_stays.bind fun _ _ => .spanFrom fun _ => .pure trivial

theorem lexicalDeclaration_stays (hd : d.Stays w) (kind : VariableKind) :
    Stays w (lexicalDeclaration d kind) := by
  refine .here fun _ => advance_stays.bind fun _ _ => ?_
  refine (bindings_stays (lexicalBinding_stays hd _ _)).bind fun _ _ => ?_
  exact endStatement_stays.bind fun _ _ => .spanFrom fun _ => .pure trivial

theorem isAtLexicalDeclaration_stays : Stays w isAtLexicalDeclaration := by
  refine peek_stays.bind fun _ _ => ?_
  split <;> exact .pure trivial

/-! ## Branches -/

theorem branch_stays (hd : d.Stays w) : Stays w (branch d) :=
  .get fun _ _ => .isAtKeyword fun _ => .guard .refuseLine (hd _)

theorem ifStatement_stays (hd : d.Stays w) : Stays w (ifStatement d) := by
  refine .here fun _ => (expectKeyword_stays _).bind fun _ _ => ?_
  refine (condition_stays hd).bind fun _ _ => ?_
  refine (branch_stays hd).bind fun _ _ => ?_
  refine (acceptKeyword_stays _).bind fun _ _ => ?_
  extract_lets rest
  have hrest (alternate : Option Node) : Stays w (rest alternate) :=
    .spanFrom fun _ => .pure trivial
  clear_value rest
  exact .ite ((branch_stays hd).bind fun _ _ => .pure_bind <| hrest _) (.pure_bind <| hrest _)

theorem switchCase_stays (hd : d.Stays w) : Stays w (switchCase d) := by
  refine .here fun _ => (acceptKeyword_stays _).bind fun _ _ => ?_
  extract_lets rest
  have hrest (test : Option Node) : Stays w (rest test) := by
    refine (expect_stays _).bind fun _ _ => (Stays.collect ?_).bind fun _ _ =>
      .spanFrom fun _ => .pure trivial
    exact .isAt fun _ => .isAtKeyword fun _ => .isAtKeyword fun _ => .ite (.pure trivial) <|
      (hd _).bind fun _ _ => .pure trivial
  clear_value rest
  refine .ite (.pure_bind <| hrest _) <| (expectKeyword_stays _).bind fun _ _ => ?_
  exact (expression_stays hd).bind fun _ _ => .pure_bind <| hrest _

theorem switchStatement_stays (hd : d.Stays w) : Stays w (switchStatement d) := by
  refine .here fun _ => (expectKeyword_stays _).bind fun _ _ => ?_
  refine (condition_stays hd).bind fun _ _ => ?_
  refine .get fun _ _ => .modifyContext rfl <| (expect_stays _).bind fun _ _ => ?_
  refine (Stays.loop fun _ => .isAt fun _ => .ite (.pure trivial) ?_).bind fun _ _ =>
    (expect_stays _).bind fun _ _ => .modifyContext rfl <| .spanFrom fun _ => .pure trivial
  refine (switchCase_stays hd).bind fun _ _ => ?_
  exact .guard .refuseHere (.pure trivial)

/-! ## Loops -/

theorem loopBody_stays {body : Parse Node} (hbody : Stays w body) : Stays w (loopBody body) :=
  .get fun _ _ => .modifyContext rfl <| hbody.bind fun _ _ => .modifyContext rfl <| .pure trivial

theorem doWhileStatement_stays (hd : d.Stays w) : Stays w (doWhileStatement d) := by
  refine .here fun _ => (expectKeyword_stays _).bind fun _ _ => ?_
  refine (loopBody_stays (hd _)).bind fun _ _ => ?_
  refine (expectKeyword_stays _).bind fun _ _ => ?_
  refine (condition_stays hd).bind fun _ _ => ?_
  exact (accept_stays _).bind fun _ _ => .spanFrom fun _ => .pure trivial

theorem whileStatement_stays (hd : d.Stays w) : Stays w (whileStatement d) := by
  refine .here fun _ => (expectKeyword_stays _).bind fun _ _ => ?_
  refine (condition_stays hd).bind fun _ _ => ?_
  exact (loopBody_stays (hd _)).bind fun _ _ => .spanFrom fun _ => .pure trivial

theorem withoutIn_stays {α : Type} {p : Parse α} (hp : Stays w p) : Stays w (withoutIn p) :=
  .get fun _ _ => .modifyContext rfl <| hp.bind fun _ _ => .modifyContext rfl <| .pure trivial

theorem inKeys_stays (hd : d.Stays w) (left : Node) : Stays w (inKeys d left) := by
  refine advance_stays.bind fun _ _ => ?_
  exact (expression_stays hd).bind fun _ _ => .pure trivial

theorem ofValues_stays (hd : d.Stays w) (left : Node) : Stays w (ofValues d left) := by
  refine advance_stays.bind fun _ _ => ?_
  exact (hd _).bind fun _ _ => .pure trivial

theorem counting_stays (hd : d.Stays w) (init : Option Node) : Stays w (counting d init) := by
  refine .isAt fun _ => ?_
  extract_lets rest
  have hrest (test : Option Node) : Stays w (rest test) := by
    refine (expect_stays _).bind fun _ _ => ?_
    refine .isAt fun _ => .ite (.pure_bind <| .pure trivial) ?_
    exact (expression_stays hd).bind fun _ _ => .pure_bind <| .pure trivial
  clear_value rest
  exact .ite (.pure_bind <| hrest _) ((expression_stays hd).bind fun _ _ => .pure_bind <| hrest _)

theorem checkLoopInitializer_stays (ns : List Node) : Stays w (checkLoopInitializer ns) := by
  unfold checkLoopInitializer
  split
  · exact .get fun _ _ => .ite .refuseLine (.pure trivial)
  · exact .pure trivial

theorem isBadTarget_stays (e : Node) : Stays w (isBadTarget e) := by
  unfold isBadTarget
  split
  · exact .pure trivial
  · exact .get fun _ _ => .pure trivial

theorem forVariables_stays (hd : d.Stays w) : Stays w (forVariables d) := by
  refine .here fun _ => advance_stays.bind fun _ _ => ?_
  refine (withoutIn_stays (bindings_stays (variableBinding_stays hd _))).bind fun _ _ => ?_
  refine .isAtKeyword fun _ => .ite ?_ <| .isAtName fun _ => .ite ?_ ?_
  · refine (checkLoopInitializer_stays _).bind fun _ _ => ?_
    exact .spanFrom fun _ => inKeys_stays hd _
  · exact .spanFrom fun _ => ofValues_stays hd _
  · refine .spanFrom fun _ => (expect_stays _).bind fun _ _ => ?_
    exact counting_stays hd _

theorem forLexical_stays (hd : d.Stays w) (kind : VariableKind) : Stays w (forLexical d kind) := by
  refine .here fun _ => advance_stays.bind fun _ _ => ?_
  refine .get fun _ _ => ?_
  refine .ite (.spanFrom fun _ => inKeys_stays hd _) ?_
  refine (withoutIn_stays (bindings_stays (lexicalBinding_stays hd _ _))).bind fun _ _ => ?_
  refine .isAtKeyword fun _ => .ite ?_ <| .isAtName fun _ => .ite ?_ ?_
  · exact .spanFrom fun _ => inKeys_stays hd _
  · exact .spanFrom fun _ => ofValues_stays hd _
  · refine endStatement_stays.bind fun _ _ => ?_
    exact .spanFrom fun _ => counting_stays hd _

theorem forExpression_stays (hd : d.Stays w) : Stays w (forExpression d) := by
  refine .here fun _ => (withoutIn_stays (hd _).inherit).bind fun _ _ => ?_
  refine .isAtKeyword fun _ => .ite ?_ <| .isAtName fun _ => .ite ?_ <| .isAt fun _ => ?_
  · refine (isBadTarget_stays _).bind fun _ _ => ?_
    exact .guard .refuseLine (inKeys_stays hd _)
  · refine (isBadTarget_stays _).bind fun _ _ => ?_
    exact .guard .refuseLine (ofValues_stays hd _)
  extract_lets rest
  have hrest (init : Node) : Stays w (rest init) :=
    (expect_stays _).bind fun _ _ => counting_stays hd _
  clear_value rest
  refine .ite ((Stays.collect ?_).bind fun _ _ => .spanFrom fun _ => .pure_bind <| hrest _)
    (.pure_bind <| hrest _)
  refine (accept_stays _).bind fun _ _ => ?_
  exact .ite (initializer_stays hd) (.pure trivial)

theorem forStatement_stays (hd : d.Stays w) : Stays w (forStatement d) := by
  refine .here fun _ => (expectKeyword_stays _).bind fun _ _ => ?_
  refine (expect_stays _).bind fun _ _ => ?_
  refine (accept_stays _).bind fun _ _ => ?_
  extract_lets rest
  have hrest (head : ForHead) : Stays w (rest head) := by
    refine (expect_stays _).bind fun _ _ => ?_
    refine (loopBody_stays (hd _).isolate).bind fun _ _ => ?_
    refine .spanFrom fun _ => ?_
    cases head <;> exact .pure trivial
  clear_value rest
  refine .isAtKeyword fun _ => .isAtKeyword fun _ => .isAtKeyword fun _ => ?_
  refine .ite ((counting_stays hd _).bind fun _ _ => hrest _) ?_
  refine .ite ((forVariables_stays hd).bind fun _ _ => hrest _) ?_
  refine .ite ((forLexical_stays hd _).bind fun _ _ => hrest _) ?_
  exact .ite ((forLexical_stays hd _).bind fun _ _ => hrest _)
    ((forExpression_stays hd).bind fun _ _ => hrest _)

/-! ## Jumps -/

theorem jumpLabel_stays : Stays w jumpLabel := by
  refine .get fun _ _ => ?_
  split
  · refine .ite (.pure trivial) <| (bindingIdentifier_stays _).bind fun _ _ => ?_
    exact .guard .refuseHere (.pure trivial)
  · exact .pure trivial

theorem continueStatement_stays : Stays w continueStatement := by
  refine .here fun _ => (expectKeyword_stays _).bind fun _ _ => ?_
  refine jumpLabel_stays.bind fun _ _ => ?_
  refine endStatement_stays.bind fun _ _ => ?_
  refine .get fun _ _ => .guard .refuseHere ?_
  exact .spanFrom fun _ => .pure trivial

theorem breakStatement_stays : Stays w breakStatement := by
  refine .here fun _ => (expectKeyword_stays _).bind fun _ _ => ?_
  refine jumpLabel_stays.bind fun _ _ => ?_
  refine endStatement_stays.bind fun _ _ => ?_
  refine .get fun _ _ => .guard .refuseHere ?_
  exact .spanFrom fun _ => .pure trivial

theorem hasReturnValue_stays : Stays w hasReturnValue := by
  refine .get fun _ _ => ?_
  split <;> exact .pure trivial

theorem returnStatement_stays (hd : d.Stays w) : Stays w (returnStatement d) := by
  refine .get fun _ _ => .guard .refuseLine <|
    .here fun _ => (expectKeyword_stays _).bind fun _ _ => ?_
  refine hasReturnValue_stays.bind fun _ _ => ?_
  extract_lets rest
  have hrest (argument : Option Node) : Stays w (rest argument) :=
    endStatement_stays.bind fun _ _ => .spanFrom fun _ => .pure trivial
  clear_value rest
  exact .ite ((expression_stays hd).bind fun _ _ => .pure_bind <| hrest _) (.pure_bind <| hrest _)

theorem throwStatement_stays (hd : d.Stays w) : Stays w (throwStatement d) := by
  refine .here fun _ => (expectKeyword_stays _).bind fun _ _ => ?_
  refine .get fun _ _ => .guard .refuseHere ?_
  refine (expression_stays hd).bind fun _ _ => ?_
  exact endStatement_stays.bind fun _ _ => .spanFrom fun _ => .pure trivial

/-! ## Other compound statements -/

theorem withStatement_stays (hd : d.Stays w) : Stays w (withStatement d) := by
  refine .get fun _ _ => .guard .refuseLine <|
    .here fun _ => (expectKeyword_stays _).bind fun _ _ => ?_
  refine (condition_stays hd).bind fun _ _ => ?_
  exact (hd _).bind fun _ _ => .spanFrom fun _ => .pure trivial

theorem catchClause_stays (hd : d.Stays w) : Stays w (catchClause d) := by
  refine .here fun _ => (expectKeyword_stays _).bind fun _ _ => ?_
  refine (expect_stays _).bind fun _ _ => ?_
  refine .isAt fun _ => .guard .refuseToken <| (bindingPattern_stays hd _).bind fun r _ => ?_
  obtain ⟨param, names⟩ := r
  dsimp -zeta only
  extract_lets finish rest
  have hrest : Stays w (rest ()) := by
    refine .get fun _ _ => .guard .refuseLine <| (expect_stays _).bind fun _ _ => ?_
    exact (block_stays hd).bind fun _ _ => .spanFrom fun _ => .pure trivial
  clear_value rest
  split
  · exact .absurd .refuseLine
  · exact hrest

theorem tryStatement_stays (hd : d.Stays w) : Stays w (tryStatement d) := by
  refine .here fun _ => (expectKeyword_stays _).bind fun _ _ => ?_
  refine (block_stays hd).bind fun _ _ => ?_
  refine .isAtKeyword fun _ => ?_
  extract_lets rest
  have hrest (handler : Option Node) : Stays w (rest handler) := by
    refine (acceptKeyword_stays _).bind fun _ _ => ?_
    extract_lets finish
    have hfinish (finalizer : Option Node) : Stays w (finish finalizer) :=
      .guard .refuseHere <| .spanFrom fun _ => .pure trivial
    clear_value finish
    exact .ite ((block_stays hd).bind fun _ _ => .pure_bind <| hfinish _) (.pure_bind <| hfinish _)
  clear_value rest
  exact .ite ((catchClause_stays hd).bind fun _ _ => .pure_bind <| hrest _) (.pure_bind <| hrest _)

/-- A function behind a label is blamed on its first token. -/
theorem labeledBody_stays (hd : d.Stays w) : Stays w (labeledBody d) := by
  refine .isAtKeyword fun _ => .ite .refuseToken <| .isAtKeyword fun _ => .ite ?_ (hd _)
  refine .token fun _ ha => (functionDeclaration_stays hd).bind fun _ _ => ?_
  refine .get fun _ _ => ?_
  exact .guard (.refuseFor ha) <| .guard (.refuseFor ha) (.pure trivial)

theorem labeledStatement_stays (hd : d.Stays w) : Stays w (labeledStatement d) := by
  refine .here fun start => (expression_stays hd).bind fun e _ => ?_
  have hend : Stays w (do
      endStatement
      return Node.expression (← spanFrom start) e none) :=
    endStatement_stays.bind fun _ _ => .spanFrom fun _ => .pure trivial
  split
  · refine (accept_stays _).bind fun _ _ => .ite ?_ hend
    refine .get fun _ _ => .guard .refuseHere <| .modifyContext rfl <|
      (labeledBody_stays hd).bind fun _ _ => ?_
    exact .modifyContext rfl <| .spanFrom fun _ => .pure trivial
  · exact hend

/-! ## Dispatch -/

theorem statement_stays (hd : d.Stays w) : Stays w (statement d) := by
  refine .token fun _ _ => ?_
  split
  · exact .refuseToken
  · exact block_stays hd
  · exact emptyStatement_stays
  · refine isAtAsyncFunction_stays.bind fun _ _ => ?_
    exact .ite (functionDeclaration_stays hd) (labeledStatement_stays hd)
  · exact breakStatement_stays
  · exact continueStatement_stays
  · exact debuggerStatement_stays
  · exact doWhileStatement_stays hd
  · exact forStatement_stays hd
  · exact functionDeclaration_stays hd
  · exact ifStatement_stays hd
  · exact returnStatement_stays hd
  · exact switchStatement_stays hd
  · exact throwStatement_stays hd
  · exact tryStatement_stays hd
  · exact variableStatement_stays hd
  · exact whileStatement_stays hd
  · exact withStatement_stays hd
  · exact expressionStatement_stays hd

theorem item_stays (hd : d.Stays w) : Stays w (item d) := by
  refine .modifyContext rfl <| .token fun _ _ => ?_
  split
  · exact .token fun _ ha => .refuseFor ha
  · refine isAtImportCall_stays.bind fun _ _ => ?_
    refine .ite (expressionStatement_stays hd) ?_
    exact .token fun _ ha => .refuseFor ha
  · exact lexicalDeclaration_stays hd _
  · exact functionDeclaration_stays hd
  · exact classDeclaration_stays hd
  · refine isAtLexicalDeclaration_stays.bind fun _ _ => ?_
    exact .ite (lexicalDeclaration_stays hd _) (statement_stays hd)
  · exact statement_stays hd

/-! ## Scripts -/

/-- Nested however deep, every construct stays in its text. -/
theorem construct_stays (depth : Nat) (goal : Goal) : Stays w (construct depth goal) := by
  induction depth generalizing goal with
  | zero => exact .refuseHere
  | succ depth ih =>
    have hd : Deeper.Stays w ⟨depth, construct depth⟩ := ih
    cases goal
    case assignment => exact assignment_stays hd
    case unary => exact unary_stays hd
    case power => exact power_stays hd
    case callee => exact callee_stays hd
    case call => exact callOrMember_stays hd
    case item => exact item_stays hd
    case statement => exact statement_stays hd

theorem script_stays (hd : d.Stays w) : Stays w (script d) := by
  refine (directives_stays hd).bind fun _ _ => (Stays.collect ?_).bind fun _ _ => .pure trivial
  exact .isAtEnd fun _ => .ite (.pure trivial) <| (hd _).bind fun _ _ => .pure trivial

/-- The state in which the parse of a text begins lies in it. -/
theorem State.liesIn_ofText {s : State} (hw : w ≠ []) (hlast : w.getLast? ≠ some (.scalar '\\'))
    (h : State.ofText w = .ok s) : s.LiesIn w := by
  unfold State.ofText at h
  dsimp only at h
  split at h
  · next s' hnext =>
    cases h
    have hs := State.liesIn_next hlast (.beginning hw) (fun _ hb => by cases hb) hnext
    exact { hs with last := hs.reader.liesIn, order := Nat.le_refl _ }
  · cases h

/-- A text is refused at a place in it. -/
theorem parseScript_liesIn {e : ParseError} (hw : w ≠ [])
    (hlast : w.getLast? ≠ some (.scalar '\\')) (h : parseScript w = .error e) : e.LiesIn w := by
  have hd : Deeper.Stays w ⟨depthFor w, construct (depthFor w)⟩ := construct_stays _
  unfold parseScript at h
  dsimp only at h
  split at h
  · next s hs =>
    split at h
    · cases h
    · next hrun =>
      cases h
      exact (script_stays hd s (State.liesIn_ofText hw hlast hs)).2 _ hrun
  · next hs =>
    cases h
    unfold State.ofText at hs
    dsimp only at hs
    split at hs
    · cases hs
    · next hnext =>
      cases hs
      exact State.fault_next hlast (.beginning hw) hnext

end Parse
end Elementwise
