import Elementwise.Grammar.Script
import Elementwise.Proofs.SourceEnd.Expression

/-!
# Statements in front of the end of a source

A statement may end without a token of its own, so it is followed only up to the end of the source.
That is where a statement of the source can stand at all: in the body of a function, whose closing
brace lies in the source.  With statements the recursion of the grammar is closed.
-/

set_option autoImplicit false
namespace Elementwise

open Parse

namespace SourceEnd

variable {x : SourceEnd} {i o : Limit} {d : Deeper}

/-! ## Blocks and simple statements -/

theorem block_agrees (hd : d.Agrees x) : x.Agrees .reached .reached (block d) := by
  refine .here fun _ => (expect_agrees _).next fun _ => (Agrees.collect ?_).next fun _ =>
    (expect_agrees _).next fun _ => .spanFrom fun _ => .pure
  exact .isAt fun _ => .ite .pure <| hd.item.next fun _ => .pure

theorem expressionStatement_agrees (hd : d.Agrees x) :
    x.Agrees .reached .reached (expressionStatement d) := by
  refine .here fun _ => (expression_agrees hd).next fun _ => ?_
  exact endStatement_agrees.next fun _ => .spanFrom fun _ => .pure

theorem emptyStatement_agrees : x.Agrees .reached .reached emptyStatement :=
  .here fun _ => (expect_agrees _).next fun _ => .spanFrom fun _ => .pure

theorem debuggerStatement_agrees : x.Agrees .reached .reached debuggerStatement := by
  refine .here fun _ => (expectKeyword_agrees _).next fun _ => ?_
  exact endStatement_agrees.next fun _ => .spanFrom fun _ => .pure

theorem condition_agrees (hd : d.Agrees x) : x.Agrees i o (condition d) := by
  refine (expect_agrees _).next fun _ => ?_
  refine (expression_agrees hd).next fun _ => ?_
  exact (expect_agrees _).bind fun _ => .pure

/-! ## Declarations -/

theorem checkVariable_agrees (id : Node) : x.Agrees i i (checkVariable id) :=
  .consult rfl fun _ => .ite .refuseLine .pure

theorem initializer_agrees (hd : d.Agrees x) : x.Agrees i o (initializer d) :=
  hd.assignment.isolate.eats.bind fun _ => .pure

theorem lexicalBinding_agrees (hd : d.Agrees x) (kind : VariableKind) (inFor : Bool) :
    x.Agrees .reached .reached (lexicalBinding d kind inFor) := by
  refine .here fun _ => (bindingPattern_agrees hd _).next fun _ => ?_
  refine (checkVariable_agrees _).next fun _ => ?_
  extract_lets rest
  have hrest (init : Option Node) : x.Agrees .reached .reached (rest init) :=
    .spanFrom fun _ => .pure
  clear_value rest
  have hinit : x.Agrees .reached .reached (do rest (← initializer d)) :=
    (initializer_agrees hd).next fun _ => hrest _
  refine .isAt fun _ => .ite (.isAtKeyword fun _ => .isAtName fun _ => ?_) ?_
  · refine .ite (.pure_bind <| hrest _) <| (accept_agrees _).next fun _ => ?_
    exact .ite hinit (.absurd .refuseHere)
  · exact .ite ((expect_agrees _).next fun _ => hinit) (.pure_bind <| hrest _)

theorem variableBinding_agrees (hd : d.Agrees x) (inFor : Bool) :
    x.Agrees .reached .reached (variableBinding d inFor) := by
  refine .here fun _ => (bindingPattern_agrees hd _).next fun _ => ?_
  refine (checkVariable_agrees _).next fun _ => ?_
  extract_lets rest
  have hrest (init : Option Node) : x.Agrees .reached .reached (rest init) :=
    .spanFrom fun _ => .pure
  clear_value rest
  refine (accept_agrees _).next fun _ => ?_
  refine .ite ((initializer_agrees hd).next fun _ => hrest _) ?_
  exact .ite ((expect_agrees _).next fun _ => .pure_bind <| hrest _) (.pure_bind <| hrest _)

theorem bindings_agrees {binding : Parse Node} (hbinding : x.Agrees .reached .reached binding) :
    x.Agrees .reached .reached (bindings d binding) := by
  refine hbinding.next fun _ => (Agrees.collect ?_).next fun _ => .pure
  refine (accept_agrees _).next fun _ => ?_
  exact .ite (hbinding.next fun _ => .pure) .pure

theorem variableStatement_agrees (hd : d.Agrees x) :
    x.Agrees .reached .reached (variableStatement d) := by
  refine .here fun _ => (expectKeyword_agrees _).next fun _ => ?_
  refine (bindings_agrees (variableBinding_agrees hd _)).next fun _ => ?_
  exact endStatement_agrees.next fun _ => .spanFrom fun _ => .pure

theorem lexicalDeclaration_agrees (hd : d.Agrees x) (kind : VariableKind) :
    x.Agrees .reached .reached (lexicalDeclaration d kind) := by
  refine .here fun _ => advance_agrees.next fun _ => ?_
  refine (bindings_agrees (lexicalBinding_agrees hd _ _)).next fun _ => ?_
  exact endStatement_agrees.next fun _ => .spanFrom fun _ => .pure

theorem isAtLexicalDeclaration_agrees : x.Agrees .reached .reached isAtLexicalDeclaration := by
  refine .peek (fun a => ?_) ?_
  · split <;> exact .pure
  · rintro a b (ha | ha) (hb | hb) <;> simp only [ha, hb]

/-! ## Branches -/

theorem branch_agrees (hd : d.Agrees x) : x.Agrees .reached .reached (branch d) :=
  .consult rfl fun _ => .isAtKeyword fun _ => .guard .refuseLine hd.statement

theorem ifStatement_agrees (hd : d.Agrees x) : x.Agrees .reached .reached (ifStatement d) := by
  refine .here fun _ => (expectKeyword_agrees _).next fun _ => ?_
  refine (condition_agrees hd).next fun _ => ?_
  refine (branch_agrees hd).next fun _ => ?_
  refine (acceptKeyword_agrees _).next fun _ => ?_
  extract_lets rest
  have hrest (alternate : Option Node) : x.Agrees .reached .reached (rest alternate) :=
    .spanFrom fun _ => .pure
  clear_value rest
  exact .ite ((branch_agrees hd).next fun _ => .pure_bind <| hrest _) (.pure_bind <| hrest _)

theorem switchCase_agrees (hd : d.Agrees x) : x.Agrees .reached .reached (switchCase d) := by
  refine .here fun _ => (acceptKeyword_agrees _).next fun _ => ?_
  extract_lets rest
  have hrest (test : Option Node) : x.Agrees .reached .reached (rest test) := by
    refine (expect_agrees _).next fun _ => (Agrees.collect ?_).next fun _ =>
      .spanFrom fun _ => .pure
    exact .isAt fun _ => .isAtKeyword fun _ => .isAtKeyword fun _ => .ite .pure <|
      hd.item.next fun _ => .pure
  clear_value rest
  refine .ite (.pure_bind <| hrest _) <| (expectKeyword_agrees _).next fun _ => ?_
  exact (expression_agrees hd).next fun _ => .pure_bind <| hrest _

theorem switchStatement_agrees (hd : d.Agrees x) :
    x.Agrees .reached .reached (switchStatement d) := by
  refine .here fun _ => (expectKeyword_agrees _).next fun _ => ?_
  refine (condition_agrees hd).next fun _ => ?_
  refine .consult rfl fun _ => .modifyContext <| (expect_agrees _).next fun _ => ?_
  refine (Agrees.iterate fun _ => .isAt fun _ => .ite .pure ?_).next fun _ =>
    (expect_agrees _).next fun _ => .modifyContext <| .spanFrom fun _ => .pure
  refine (switchCase_agrees hd).next fun _ => ?_
  exact .guard .refuseHere .pure

/-! ## Loops -/

theorem loopBody_agrees {body : Parse Node} (hbody : x.Agrees .reached .reached body) :
    x.Agrees .reached .reached (loopBody body) :=
  .consult rfl fun _ => .modifyContext <| hbody.next fun _ => .modifyContext .pure

theorem doWhileStatement_agrees (hd : d.Agrees x) :
    x.Agrees .reached .reached (doWhileStatement d) := by
  refine .here fun _ => (expectKeyword_agrees _).next fun _ => ?_
  refine (loopBody_agrees hd.statement).next fun _ => ?_
  refine (expectKeyword_agrees _).next fun _ => ?_
  refine (condition_agrees hd).next fun _ => ?_
  exact (accept_agrees _).next fun _ => .spanFrom fun _ => .pure

theorem whileStatement_agrees (hd : d.Agrees x) :
    x.Agrees .reached .reached (whileStatement d) := by
  refine .here fun _ => (expectKeyword_agrees _).next fun _ => ?_
  refine (condition_agrees hd).next fun _ => ?_
  exact (loopBody_agrees hd.statement).next fun _ => .spanFrom fun _ => .pure

theorem withoutIn_agrees {α : Type} {p : Parse α} (hp : x.Agrees i o p) :
    x.Agrees i o (withoutIn p) :=
  .consult rfl fun _ => .modifyContext <| hp.bind fun _ => .modifyContext .pure

theorem inKeys_agrees (hd : d.Agrees x) (left : Node) : x.Agrees i o (inKeys d left) := by
  refine advance_agrees.next fun _ => ?_
  exact (expression_agrees hd).bind fun _ => .pure

theorem ofValues_agrees (hd : d.Agrees x) (left : Node) : x.Agrees i o (ofValues d left) := by
  refine advance_agrees.next fun _ => ?_
  exact hd.assignment.eats.bind fun _ => .pure

theorem counting_agrees (hd : d.Agrees x) (init : Option Node) :
    x.Agrees .reached .reached (counting d init) := by
  refine .isAt fun _ => ?_
  extract_lets rest
  have hrest (test : Option Node) : x.Agrees .reached .reached (rest test) := by
    refine (expect_agrees _).next fun _ => ?_
    refine .isAt fun _ => .ite (.pure_bind .pure) ?_
    exact (expression_agrees hd).next fun _ => .pure_bind .pure
  clear_value rest
  exact .ite (.pure_bind <| hrest _) ((expression_agrees hd).next fun _ => .pure_bind <| hrest _)

theorem checkLoopInitializer_agrees (ns : List Node) : x.Agrees i i (checkLoopInitializer ns) := by
  unfold checkLoopInitializer
  split
  · exact .consult rfl fun _ => .ite .refuseLine .pure
  · exact .pure

theorem isBadTarget_agrees (e : Node) : x.Agrees i i (isBadTarget e) := by
  unfold isBadTarget
  split
  · exact .pure
  · exact .consult rfl fun _ => .pure

theorem forVariables_agrees (hd : d.Agrees x) : x.Agrees .reached .reached (forVariables d) := by
  refine .here fun _ => advance_agrees.next fun _ => ?_
  refine (withoutIn_agrees (bindings_agrees (variableBinding_agrees hd _))).next fun _ => ?_
  refine .isAtKeyword fun _ => .ite ?_ <| .isAtName fun _ => .ite ?_ ?_
  · refine (checkLoopInitializer_agrees _).next fun _ => ?_
    exact .spanFrom fun _ => inKeys_agrees hd _
  · exact .spanFrom fun _ => ofValues_agrees hd _
  · refine .spanFrom fun _ => (expect_agrees _).next fun _ => ?_
    exact counting_agrees hd _

theorem forLexical_agrees (hd : d.Agrees x) (kind : VariableKind) :
    x.Agrees .reached .reached (forLexical d kind) := by
  refine .here fun _ => advance_agrees.next fun _ => ?_
  refine .get rfl fun _ => ?_
  refine .ite (.spanFrom fun _ => inKeys_agrees hd _) ?_
  refine (withoutIn_agrees (bindings_agrees (lexicalBinding_agrees hd _ _))).next fun _ => ?_
  refine .isAtKeyword fun _ => .ite ?_ <| .isAtName fun _ => .ite ?_ ?_
  · exact .spanFrom fun _ => inKeys_agrees hd _
  · exact .spanFrom fun _ => ofValues_agrees hd _
  · refine endStatement_agrees.next fun _ => ?_
    exact .spanFrom fun _ => counting_agrees hd _

theorem forExpression_agrees (hd : d.Agrees x) : x.Agrees .reached .reached (forExpression d) := by
  refine .here fun _ => (withoutIn_agrees hd.assignment.inherit.eats).next fun _ => ?_
  refine .isAtKeyword fun _ => .ite ?_ <| .isAtName fun _ => .ite ?_ <| .isAt fun _ => ?_
  · refine (isBadTarget_agrees _).next fun _ => ?_
    exact .guard .refuseLine (inKeys_agrees hd _)
  · refine (isBadTarget_agrees _).next fun _ => ?_
    exact .guard .refuseLine (ofValues_agrees hd _)
  extract_lets rest
  have hrest (init : Node) : x.Agrees .reached .reached (rest init) :=
    (expect_agrees _).next fun _ => counting_agrees hd _
  clear_value rest
  refine .ite ((Agrees.collect ?_).next fun _ => .spanFrom fun _ => .pure_bind <| hrest _)
    (.pure_bind <| hrest _)
  refine (accept_agrees _).next fun _ => ?_
  exact .ite (initializer_agrees hd) .pure

theorem forStatement_agrees (hd : d.Agrees x) : x.Agrees .reached .reached (forStatement d) := by
  refine .here fun _ => (expectKeyword_agrees _).next fun _ => ?_
  refine (expect_agrees _).next fun _ => ?_
  refine (accept_agrees _).next fun _ => ?_
  extract_lets rest
  have hrest (head : ForHead) : x.Agrees .reached .reached (rest head) := by
    refine (expect_agrees _).next fun _ => ?_
    refine (loopBody_agrees hd.statement.isolate).next fun _ => ?_
    refine .spanFrom fun _ => ?_
    cases head <;> exact .pure
  clear_value rest
  refine .isAtKeyword fun _ => .isAtKeyword fun _ => .isAtKeyword fun _ => ?_
  refine .ite ((counting_agrees hd _).next fun _ => hrest _) ?_
  refine .ite ((forVariables_agrees hd).next fun _ => hrest _) ?_
  refine .ite ((forLexical_agrees hd _).next fun _ => hrest _) ?_
  exact .ite ((forLexical_agrees hd _).next fun _ => hrest _)
    ((forExpression_agrees hd).next fun _ => hrest _)

/-! ## Jumps -/

theorem jumpLabel_agrees : x.Agrees .reached .reached jumpLabel := by
  refine .get rfl fun _ => ?_
  split
  · refine .ite .pure <| (bindingIdentifier_agrees _).next fun _ => ?_
    exact .guard .refuseHere .pure
  · exact .pure

theorem continueStatement_agrees : x.Agrees .reached .reached continueStatement := by
  refine .here fun _ => (expectKeyword_agrees _).next fun _ => ?_
  refine jumpLabel_agrees.next fun _ => ?_
  refine endStatement_agrees.next fun _ => ?_
  refine .consult rfl fun _ => .guard .refuseHere ?_
  exact .spanFrom fun _ => .pure

theorem breakStatement_agrees : x.Agrees .reached .reached breakStatement := by
  refine .here fun _ => (expectKeyword_agrees _).next fun _ => ?_
  refine jumpLabel_agrees.next fun _ => ?_
  refine endStatement_agrees.next fun _ => ?_
  refine .consult rfl fun _ => .guard .refuseHere ?_
  exact .spanFrom fun _ => .pure

theorem hasReturnValue_agrees : x.Agrees .reached .reached hasReturnValue := by
  refine .get rfl fun _ => ?_
  split <;> exact .pure

theorem returnStatement_agrees (hd : d.Agrees x) :
    x.Agrees .reached .reached (returnStatement d) := by
  refine .consult rfl fun _ => .guard .refuseLine <|
    .here fun _ => (expectKeyword_agrees _).next fun _ => ?_
  refine hasReturnValue_agrees.next fun _ => ?_
  extract_lets rest
  have hrest (argument : Option Node) : x.Agrees .reached .reached (rest argument) :=
    endStatement_agrees.next fun _ => .spanFrom fun _ => .pure
  clear_value rest
  exact .ite ((expression_agrees hd).next fun _ => .pure_bind <| hrest _) (.pure_bind <| hrest _)

theorem throwStatement_agrees (hd : d.Agrees x) :
    x.Agrees .reached .reached (throwStatement d) := by
  refine .here fun _ => (expectKeyword_agrees _).next fun _ => ?_
  refine .get rfl fun _ => .guard .refuseHere ?_
  refine (expression_agrees hd).next fun _ => ?_
  exact endStatement_agrees.next fun _ => .spanFrom fun _ => .pure

/-! ## Other compound statements -/

theorem withStatement_agrees (hd : d.Agrees x) : x.Agrees .reached .reached (withStatement d) := by
  refine .consult rfl fun _ => .guard .refuseLine <|
    .here fun _ => (expectKeyword_agrees _).next fun _ => ?_
  refine (condition_agrees hd).next fun _ => ?_
  exact hd.statement.next fun _ => .spanFrom fun _ => .pure

theorem catchClause_agrees (hd : d.Agrees x) : x.Agrees .reached .reached (catchClause d) := by
  refine .here fun _ => (expectKeyword_agrees _).next fun _ => ?_
  refine (expect_agrees _).next fun _ => ?_
  refine .isAt fun _ => .guard .refuseToken <| (bindingPattern_agrees hd _).next fun r => ?_
  obtain ⟨param, names⟩ := r
  dsimp -zeta only
  extract_lets finish rest
  have hrest : x.Agrees .reached .reached (rest ()) := by
    refine .consult rfl fun _ => .guard .refuseLine <| (expect_agrees _).next fun _ => ?_
    exact (block_agrees hd).next fun _ => .spanFrom fun _ => .pure
  clear_value rest
  split
  · exact .absurd .refuseLine
  · exact hrest

theorem tryStatement_agrees (hd : d.Agrees x) : x.Agrees .reached .reached (tryStatement d) := by
  refine .here fun _ => (expectKeyword_agrees _).next fun _ => ?_
  refine (block_agrees hd).next fun _ => ?_
  refine .isAtKeyword fun _ => ?_
  extract_lets rest
  have hrest (handler : Option Node) : x.Agrees .reached .reached (rest handler) := by
    refine (acceptKeyword_agrees _).next fun _ => ?_
    extract_lets finish
    have hfinish (finalizer : Option Node) : x.Agrees .reached .reached (finish finalizer) :=
      .guard .refuseHere <| .spanFrom fun _ => .pure
    clear_value finish
    exact .ite ((block_agrees hd).next fun _ => .pure_bind <| hfinish _) (.pure_bind <| hfinish _)
  clear_value rest
  exact .ite ((catchClause_agrees hd).next fun _ => .pure_bind <| hrest _) (.pure_bind <| hrest _)

theorem labeledBody_agrees (hd : d.Agrees x) : x.Agrees .reached .reached (labeledBody d) := by
  refine .isAtKeyword fun _ => .ite .refuseToken <| .isAtKeyword fun _ => .ite ?_ hd.statement
  refine .token fun _ => (functionDeclaration_agrees hd).next fun _ => ?_
  refine .consult rfl fun _ => ?_
  exact .guard .refuseFor <| .guard .refuseFor .pure

theorem labeledStatement_agrees (hd : d.Agrees x) :
    x.Agrees .reached .reached (labeledStatement d) := by
  refine .here fun start => (expression_agrees hd).next fun e => ?_
  have hend : x.Agrees .reached .reached (do
      endStatement
      return Node.expression (← spanFrom start) e none) :=
    endStatement_agrees.next fun _ => .spanFrom fun _ => .pure
  split
  · refine (accept_agrees _).next fun _ => .ite ?_ hend
    refine .consult rfl fun _ => .guard .refuseHere <| .modifyContext <|
      (labeledBody_agrees hd).next fun _ => ?_
    exact .modifyContext <| .spanFrom fun _ => .pure
  · exact hend

/-! ## Dispatch -/

theorem statement_agrees (hd : d.Agrees x) : x.Agrees .reached .reached (statement d) := by
  refine .token fun _ => ?_
  split
  · exact .refuseToken
  · exact block_agrees hd
  · exact emptyStatement_agrees
  · refine isAtAsyncFunction_agrees.next fun _ => ?_
    exact .ite (functionDeclaration_agrees hd) (labeledStatement_agrees hd)
  · exact breakStatement_agrees
  · exact continueStatement_agrees
  · exact debuggerStatement_agrees
  · exact doWhileStatement_agrees hd
  · exact forStatement_agrees hd
  · exact functionDeclaration_agrees hd
  · exact ifStatement_agrees hd
  · exact returnStatement_agrees hd
  · exact switchStatement_agrees hd
  · exact throwStatement_agrees hd
  · exact tryStatement_agrees hd
  · exact variableStatement_agrees hd
  · exact whileStatement_agrees hd
  · exact withStatement_agrees hd
  · exact expressionStatement_agrees hd

theorem item_agrees (hd : d.Agrees x) : x.Agrees .reached .reached (item d) := by
  refine .modifyContext <| .token fun _ => ?_
  split
  · exact .token fun _ => .refuseFor
  · refine isAtImportCall_agrees.next fun _ => ?_
    refine .ite (expressionStatement_agrees hd) ?_
    exact .token fun _ => .refuseFor
  · exact lexicalDeclaration_agrees hd _
  · exact functionDeclaration_agrees hd
  · exact classDeclaration_agrees hd
  · refine isAtLexicalDeclaration_agrees.next fun _ => ?_
    exact .ite (lexicalDeclaration_agrees hd _) (statement_agrees hd)
  · exact statement_agrees hd

/-- **Up to the end of the source every construct is parsed alike**, nested however deep. -/
theorem construct_agrees (depth : Nat) : Deeper.Agrees x ⟨depth, construct depth⟩ := by
  induction depth with
  | zero =>
    exact ⟨.refuseHere, .refuseHere, .refuseHere, .refuseHere, .refuseHere, .refuseHere,
      .refuseHere⟩
  | succ depth ih =>
    exact {
      assignment := assignment_agrees ih
      unary := unary_agrees ih
      power := power_agrees ih
      callee := callee_agrees ih
      call := callOrMember_agrees ih
      item := item_agrees ih
      statement := statement_agrees ih }

end SourceEnd
end Elementwise
