import Elementwise.Grammar.Class
import Elementwise.Proofs.SourceEnd.Contract

/-!
# Functions in front of the end of a source

Parameters and bodies stand in brackets, so nothing in them comes to the end of the source: what is
between the brackets is followed up to it, and the closing bracket goes beyond.  The same holds for
patterns and classes.
-/

set_option autoImplicit false
namespace Elementwise

open Parse

namespace SourceEnd

variable {x : SourceEnd} {i o : Limit} {d : Deeper}

/-! ## Names that are bound -/

theorem propertyKey_agrees (hd : d.Agrees x) : x.Agrees i o (propertyKey d) := by
  refine .eats <| .here fun _ => advance_agrees.after fun a => ?_
  refine .consult rfl fun _ => ?_
  split
  · exact .guard .refuseFor <| .spanFrom fun _ => .pure
  · exact .guard .refuseFor <| .spanFrom fun _ => .pure
  · refine hd.assignment.isolate.eats.next fun _ => ?_
    exact (expect_agrees _).next fun _ => .pure
  · exact .ite (.spanFrom fun _ => .pure) .refuse

theorem bindingIdentifier_agrees (kind : Option VariableKind) :
    x.Agrees i o (bindingIdentifier kind) := by
  refine .eats <| .here fun start => advance_agrees.after fun a => ?_
  refine .consult rfl fun _ => ?_
  have hname : x.Agrees .passed .passed (do return Node.identifier (← spanFrom start) a.text) :=
    .spanFrom fun _ => .pure
  split
  · exact .guard .refuseFor <| .guard .refuse hname
  · exact .guard .refuse hname
  · exact .guard .refuseFor <| .guard .refuse hname
  · exact .guard .refuse hname

theorem withDefault_agrees (hd : d.Agrees x) {pattern : Parse Bound}
    (hpattern : x.Agrees .reached .passed pattern) : x.Agrees i o (withDefault d pattern) := by
  refine .eats <| .here fun _ => hpattern.after fun _ => ?_
  refine (accept_agrees _).next fun _ => ?_
  refine .ite ?_ .pure
  refine .consult rfl fun _ => .modifyContext <| hd.assignment.isolate.eats.next fun _ => ?_
  refine .modifyContext ?_
  exact .spanFrom fun _ => .pure

theorem arrayPatternElements_agrees (hd : d.Agrees x) {pattern : Parse Bound}
    (hpattern : x.Agrees .reached .passed pattern) :
    x.Agrees .reached .reached (arrayPatternElements d pattern) := by
  refine .iterate fun r => ?_
  refine .isAt fun _ => .ite .pure <| (accept_agrees _).next fun _ => ?_
  refine .ite .pure ?_
  refine .isAt fun _ => .ite ?_ ?_
  · refine .here fun _ => (expect_agrees _).next fun _ => ?_
    refine hpattern.eats.next fun _ => ?_
    exact .spanFrom fun _ => .pure
  · refine (withDefault_agrees hd hpattern).next fun _ => ?_
    refine .isAt fun _ => .ite .pure ?_
    exact (expect_agrees _).next fun _ => .pure

theorem propertyPattern_agrees (hd : d.Agrees x) {pattern : Parse Bound}
    (hpattern : x.Agrees .reached .passed pattern) : x.Agrees i o (propertyPattern d pattern) := by
  refine .eats <| .here fun _ => .token fun a => ?_
  split
  · refine (bindingIdentifier_agrees _).after fun _ => ?_
    refine .spanFrom fun _ => ?_
    refine (accept_agrees _).next fun _ => .ite ?_ <| (accept_agrees _).next fun _ => .ite ?_ ?_
    · exact hd.assignment.eats.next fun _ => .spanFrom fun _ => .spanFrom fun _ => .pure
    · exact (withDefault_agrees hd hpattern).next fun _ => .spanFrom fun _ => .pure
    · exact .spanFrom fun _ => .pure
  · refine .isAt fun _ => (propertyKey_agrees hd).after fun _ => ?_
    refine (expect_agrees _).next fun _ => ?_
    exact (withDefault_agrees hd hpattern).next fun _ => .spanFrom fun _ => .pure

theorem restProperty_agrees {pattern : Parse Bound} (hpattern : x.Agrees .reached .passed pattern) :
    x.Agrees i o (restProperty pattern) := by
  refine .eats <| .here fun _ => (expect_agrees _).after fun _ => ?_
  refine hpattern.eats.next fun _ => ?_
  refine .isAt fun _ => .guard .refuseHere <| .isAt fun _ => ?_
  exact .ite (.spanFrom fun _ => .pure) (.absurd .refuseHere)

theorem objectPatternProperties_agrees (hd : d.Agrees x) {pattern restPattern : Parse Bound}
    (hpattern : x.Agrees .reached .passed pattern) (hrest : x.Agrees .reached .passed restPattern) :
    x.Agrees .reached .reached (objectPatternProperties d pattern restPattern) := by
  refine .iterate fun r => .isAt fun _ => .ite .pure <| .isAt fun _ => ?_
  extract_lets more
  have hmore (r' : Bound) : x.Agrees .reached .reached (more r') :=
    .isAt fun _ => .ite .pure <| (expect_agrees _).next fun _ => .pure
  clear_value more
  exact .ite ((restProperty_agrees hrest).next hmore)
    ((propertyPattern_agrees hd hpattern).next hmore)

theorem pattern_agrees (hd : d.Agrees x) (depth : Nat) (kind : Option VariableKind) :
    x.Agrees .reached .passed (pattern d depth kind) := by
  induction depth generalizing kind with
  | zero => exact .refuseHere
  | succ depth ih =>
    refine .here fun _ => (accept_agrees _).next fun _ => ?_
    refine .ite ?_ ?_
    · refine (arrayPatternElements_agrees hd (ih kind)).next fun _ => ?_
      exact (expect_agrees _).after fun _ => .spanFrom fun _ => .pure
    refine (accept_agrees _).next fun _ => ?_
    refine .ite ?_ ?_
    · refine (objectPatternProperties_agrees hd (ih kind) (ih none)).next fun _ => ?_
      exact (expect_agrees _).after fun _ => .spanFrom fun _ => .pure
    · refine .token fun a => .guard .refuseFor ?_
      exact (bindingIdentifier_agrees _).after fun _ => .pure

theorem bindingPattern_agrees (hd : d.Agrees x) (kind : Option VariableKind) :
    x.Agrees i o (bindingPattern d kind) := (pattern_agrees hd _ _).eats

theorem restParameter_agrees (hd : d.Agrees x) : x.Agrees i o (restParameter d) := by
  refine .eats <| .here fun _ => (expect_agrees _).after fun _ => ?_
  refine (bindingPattern_agrees hd _).next fun _ => ?_
  refine .isAt fun _ => .guard .refuseHere <| .isAt fun _ => ?_
  exact .ite (.spanFrom fun _ => .pure) (.absurd .refuseHere)

/-! ## Parameters -/

theorem Refuses.blame {α : Type} {b : Blame} {cause : Fault} :
    Refuses (b.refuse cause : Parse α) := by
  cases b with
  | token a => exact .refuseFor
  | here => exact .refuseHere

theorem check_agrees {n : Names} : x.Agrees i i n.check := by
  refine .consult rfl fun _ => .ite ?_ .pure
  extract_lets cause rest
  have hrest : x.Agrees i i (rest ()) := by
    dsimp only [rest]
    split
    · exact .of_refuses .blame
    · exact .pure
  clear_value rest
  split
  · exact .absurd .blame
  · exact hrest

theorem formalParameters_agrees (hd : d.Agrees x) {names : Names} :
    x.Agrees i o (formalParameters d names) := by
  refine .eats <| (expect_agrees _).after fun _ => ?_
  refine .isAt fun _ => ?_
  extract_lets rest
  have hrest (ps : Parameters) : x.Agrees .passed .passed (rest ps) :=
    (expect_agrees _).next fun _ => .pure
  clear_value rest
  refine .ite (.pure_bind (hrest _)) (.next ?_ hrest)
  refine .iterate fun r => .isAtEnd fun _ => .ite .pure ?_
  refine .isAt fun _ => ?_
  extract_lets more
  have hmore (b : Bound) : x.Agrees .passed .passed (more b) := by
    refine .consult rfl fun s => .isAt fun _ => .ite .pure <| (expect_agrees _).next fun _ => ?_
    exact .isAt fun _ => .ite .pure .pure
  clear_value more
  exact .ite ((restParameter_agrees hd).next hmore)
    ((withDefault_agrees hd (bindingPattern_agrees hd _)).next hmore)

/-! ## Bodies -/

theorem directive_agrees (hd : d.Agrees x) (raw : Text) :
    x.Agrees .reached .reached (directive d raw) := by
  refine .here fun _ => (expression_agrees hd).next fun _ => ?_
  exact endStatement_agrees.next fun _ => .spanFrom fun _ => .pure

theorem directives_agrees (hd : d.Agrees x) : x.Agrees .reached .reached (directives d) := by
  refine .iterate fun r => .token fun a => ?_
  split
  · refine (directive_agrees hd _).next fun r' => ?_
    obtain ⟨statement, text?⟩ := r'
    cases text? with
    | none => exact .pure
    | some text =>
      refine .ite (.modifyContext ?_) .pure
      have hrest : x.Agrees .reached .reached (do
          if !(← get).allowStrictDirective then refuseFor a .directiveAfterPatterns
          return .inl (statement :: r.1, r.2) :
          Parse ((List Node × Option Token) ⊕ List Node)) :=
        .consult rfl fun _ => .guard .refuseFor .pure
      split
      · exact .absurd .refuseFor
      · exact hrest
  · exact .pure

theorem functionBody_agrees (hd : d.Agrees x) : x.Agrees i o (functionBody d) := by
  refine .eats <| .here fun _ => (expect_agrees _).next fun _ => ?_
  refine (directives_agrees hd).next fun _ => ?_
  refine .consult rfl fun _ => .modifyContext <| (Agrees.collect ?_).next fun _ => ?_
  · exact .isAtEnd fun _ => .isAt fun _ => .ite .pure <| hd.item.next fun _ => .pure
  · exact (expect_agrees _).after fun _ => .modifyContext <| .spanFrom fun _ => .pure

theorem bodyFor_agrees {ps : Parameters} {body : Parse Node}
    (hbody : x.Agrees .reached .passed body) : x.Agrees i o (bodyFor ps body) := by
  refine .eats <| .consult rfl fun _ => .modifyContext <| hbody.after fun _ => ?_
  exact check_agrees.next fun _ => .modifyContext .pure

/-! ## Methods and functions -/

theorem methodBody_agrees (hd : d.Agrees x) {ps : Parameters} : x.Agrees i o (methodBody d ps) :=
  .markValue <| bodyFor_agrees (functionBody_agrees hd).isolate

theorem method_agrees (hd : d.Agrees x) (form : MethodForm) {accepts : Parameters → Parse Unit}
    (haccepts : ∀ ps, x.Agrees .passed .passed (accepts ps)) :
    x.Agrees i o (method d form accepts) := by
  refine .eats <| .here fun _ => .consult rfl fun _ => .modifyContext ?_
  refine (formalParameters_agrees hd).after fun ps => ?_
  refine (haccepts ps).next fun _ => ?_
  extract_lets rest
  have hrest : x.Agrees .passed .passed (rest ()) := (methodBody_agrees hd).next fun _ =>
    .modifyContext <| .spanFrom fun _ => .pure
  clear_value rest
  exact .ite (.modifyContext hrest) hrest

theorem plainMethod_agrees (hd : d.Agrees x) : x.Agrees i o (plainMethod d) :=
  method_agrees hd _ fun _ => .pure

theorem getter_agrees (hd : d.Agrees x) : x.Agrees i o (getter d) :=
  method_agrees hd _ fun _ => .ite .pure .refuseLine

theorem setter_agrees (hd : d.Agrees x) : x.Agrees i o (setter d) := by
  refine method_agrees hd _ fun _ => ?_
  split
  · exact .refuseLine
  · exact .pure
  · exact .refuseLine

theorem functionName_agrees {name : Parse Node} (hname : x.Agrees .reached .passed name) :
    x.Agrees i o (functionName name) := by
  refine .eats <| .token fun a => hname.after fun _ => ?_
  refine .consult rfl fun _ => .ite ?_ ?_
  · exact .guard .refuseFor .pure
  · exact .ite .pure <| .ite .pure .pure

theorem isAtAsyncFunction_agrees : x.Agrees .reached .reached isAtAsyncFunction := by
  refine .isAtName fun _ => .ite (.get rfl fun _ => .peek (fun _ => .pure) ?_) .pure
  rintro a b (ha | ha) (hb | hb) <;> simp [ha, hb]

theorem functionHead_agrees : x.Agrees i o functionHead := by
  refine .eats <| .isAtName fun isAsync => ?_
  extract_lets finish rest
  have hrest : x.Agrees .reached .passed (rest ()) := by
    refine (expectKeyword_agrees _).after fun _ => ?_
    exact .ite (.pure_bind .pure) ((accept_agrees _).next fun _ => .pure)
  clear_value rest
  exact .ite (advance_agrees.next fun _ => hrest) hrest

theorem inFunctionContext_agrees {α : Type} {isAsync isGenerator : Bool} {p : Parse α}
    (hp : x.Agrees i o p) : x.Agrees i o (inFunctionContext isAsync isGenerator p) :=
  .consult rfl fun _ => .modifyContext <| hp.bind fun _ => .modifyContext .pure

theorem functionRest_agrees (hd : d.Agrees x) {names : Names} :
    x.Agrees i o (functionRest d names) := by
  refine .eats <| (formalParameters_agrees hd).after fun _ => ?_
  exact (bodyFor_agrees (functionBody_agrees hd)).next fun _ => .pure

theorem functionDeclaration_agrees (hd : d.Agrees x) : x.Agrees i o (functionDeclaration d) := by
  refine .eats <| .here fun _ => functionHead_agrees.after fun _ => ?_
  refine (functionName_agrees (bindingIdentifier_agrees _)).next fun _ => ?_
  exact (inFunctionContext_agrees (functionRest_agrees hd)).next fun _ => .spanFrom fun _ => .pure

theorem functionExpression_agrees (hd : d.Agrees x) : x.Agrees i o (functionExpression d) := by
  refine .eats <| .here fun _ => functionHead_agrees.after fun _ => ?_
  refine (inFunctionContext_agrees (.isAt fun _ => ?_)).next fun _ => .spanFrom fun _ => .pure
  extract_lets rest
  have hrest (r : Option Node × Names) : x.Agrees .passed .passed (rest r) :=
    (functionRest_agrees hd).next fun _ => .pure
  clear_value rest
  refine .ite (.pure_bind (hrest _)) <| .consult rfl fun _ => .isAtKeyword fun _ => ?_
  refine (functionName_agrees ?_).next fun r => .pure_bind (hrest (some r.1, r.2))
  exact .ite identifierName_agrees (bindingIdentifier_agrees _)

/-! ## Classes -/

theorem memberHead_agrees (hd : d.Agrees x) : x.Agrees .reached .reached (memberHead d) := by
  refine .token fun first => (accept_agrees _).next fun _ => ?_
  refine .ite .pure ?_
  refine .isAt fun _ => (propertyKey_agrees hd).next fun _ => ?_
  refine .token fun t => ?_
  extract_lets rest
  have hrest (head : MemberHead) : x.Agrees .reached .reached (rest head) := by
    refine .get rfl fun s => .ite ?_ .pure
    refine (propertyKey_agrees hd).next fun _ => ?_
    exact .guard .refuseFor .pure
  clear_value rest
  refine .ite (.isAt fun _ => (accept_agrees _).next fun _ => .ite ?_ ?_) ?_
  · exact .pure_bind <| hrest _
  · exact (propertyKey_agrees hd).next fun _ => .pure_bind <| hrest _
  · exact .pure_bind <| hrest _

theorem classMember_agrees (hd : d.Agrees x) (hasConstructor : Bool) :
    x.Agrees .reached .reached (classMember d hasConstructor) := by
  refine .here fun _ => (memberHead_agrees hd).next fun head => ?_
  refine .token fun _ => ?_
  extract_lets rest ordinary
  have hrest (r : Option MemberKind × Bool × Option Node × Node) :
      x.Agrees .reached .reached (rest r) := by
    obtain ⟨kind?, computed, key, value⟩ := r
    dsimp -zeta only [rest]
    split
    · refine .guard .refuseFor <| .ite ?_ (.spanFrom fun _ => .pure)
      exact .guard .refuseFor <| .guard .refuseFor <| .spanFrom fun _ => .pure
    · exact .refuseToken
  clear_value rest
  have hkey {p : Node → Parse (Node × Bool)} (hp : ∀ n, x.Agrees .reached .reached (p n)) :
      x.Agrees .reached .reached (propertyKey d >>= p) := (propertyKey_agrees hd).next fun n => hp n
  refine .ite (.isAt fun _ => hkey fun _ => .modifyContext ?_) <|
    .ite (.isAt fun _ => hkey fun _ => ?_) <| .ite (.isAt fun _ => hkey fun _ => ?_) <|
      .ite (.ite ?_ ?_) (.pure_bind <| hrest _)
  · exact (getter_agrees hd).next fun _ => .pure_bind <| hrest _
  · exact (setter_agrees hd).next fun _ => .pure_bind <| hrest _
  · exact (method_agrees hd _ fun _ => .pure).next fun _ => .pure_bind <| hrest _
  · exact (method_agrees hd _ fun _ => .pure).next fun _ => .pure_bind <| hrest _
  · exact (plainMethod_agrees hd).next fun _ => .pure_bind <| hrest _

theorem classBody_agrees (hd : d.Agrees x) : x.Agrees i o (classBody d) := by
  refine .eats <| .here fun _ => (expect_agrees _).next fun _ => ?_
  refine (Agrees.iterate fun _ => ?_).next fun _ => ?_
  · refine .isAt fun _ => .ite .pure <| (accept_agrees _).next fun _ => ?_
    exact .ite .pure <| (classMember_agrees hd _).next fun _ => .pure
  · exact (expect_agrees _).after fun _ => .spanFrom fun _ => .pure

theorem class_agrees (hd : d.Agrees x) (isDeclaration : Bool) {name : Parse (Option Node)}
    (hname : x.Agrees .reached .reached name) : x.Agrees i o (class_ d isDeclaration name) := by
  refine .eats <| .here fun _ => .consult rfl fun _ => .modifyContext <|
    (expectKeyword_agrees _).next fun _ => ?_
  refine hname.next fun _ => ?_
  refine (acceptKeyword_agrees _).next fun _ => ?_
  extract_lets rest
  have hrest (superClass : Option Node) : x.Agrees .reached .passed (rest superClass) :=
    (classBody_agrees hd).after fun _ => .modifyContext <| .spanFrom fun _ => .pure
  clear_value rest
  exact .ite (hd.call.isolate.eats.next fun _ => .pure_bind <| hrest _) (.pure_bind <| hrest _)

theorem classDeclaration_agrees (hd : d.Agrees x) : x.Agrees i o (classDeclaration d) :=
  class_agrees hd _ <| (bindingIdentifier_agrees _).next fun _ => .pure

theorem classExpression_agrees (hd : d.Agrees x) : x.Agrees i o (classExpression d) := by
  refine class_agrees hd _ <| .token fun _ => ?_
  split
  · exact (bindingIdentifier_agrees _).next fun _ => .pure
  · exact .pure

end SourceEnd
end Elementwise
