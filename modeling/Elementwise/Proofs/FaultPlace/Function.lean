import Elementwise.Grammar.Class
import Elementwise.Proofs.FaultPlace.Contract

/-!
# Functions stay in their text

Names that are bound are blamed after the pattern that holds them, and names of parameters even
after the body of the function.  So these parsers give tokens, or keep them, and it is said of each
that these lie in the text.  Classes do the same with the word in front of a member.
-/

set_option autoImplicit false
namespace Elementwise
namespace Parse

variable {w : Text} {d : Deeper}

/-! ## Names that are bound -/

theorem propertyKey_stays (hd : d.Stays w) : Stays w (propertyKey d) := by
  refine .here fun _ => advance_stays.bind fun a ha => ?_
  refine .get fun _ _ => ?_
  split
  · exact .guard (.refuseFor ha) <| .spanFrom fun _ => .pure trivial
  · exact .guard (.refuseFor ha) <| .spanFrom fun _ => .pure trivial
  · refine (hd _).isolate.bind fun _ _ => ?_
    exact (expect_stays _).bind fun _ _ => .pure trivial
  · exact .ite (.spanFrom fun _ => .pure trivial) (.refuse ha)

theorem bindingIdentifier_stays (kind : Option VariableKind) :
    Stays w (bindingIdentifier kind) := by
  refine .here fun start => advance_stays.bind fun a ha => ?_
  refine .get fun _ _ => ?_
  have hname : Stays w (do return Node.identifier (← spanFrom start) a.text) :=
    .spanFrom fun _ => .pure trivial
  split
  · exact .guard (.refuseFor ha) <| .guard (.refuse ha) hname
  · exact .guard (.refuse ha) hname
  · exact .guard (.refuseFor ha) <| .guard (.refuse ha) hname
  · exact .guard (.refuse ha) hname

/-- The tokens of names that come with a result lie in a text. -/
def NamesLieIn {α : Type} (w : Text) (r : α × List Token) : Prop := ∀ a ∈ r.2, Token.LiesIn w a

theorem withDefault_stays (hd : d.Stays w) {pattern : Parse Bound}
    (hpattern : Stays w pattern (NamesLieIn w)) :
    Stays w (withDefault d pattern) (NamesLieIn w) := by
  refine .here fun _ => hpattern.bind fun r hr => ?_
  refine (accept_stays _).bind fun _ _ => ?_
  refine .ite ?_ (.pure hr)
  refine .get fun _ _ => .modifyContext rfl <| (hd _).isolate.bind fun _ _ => ?_
  refine .modifyContext rfl ?_
  exact .spanFrom fun _ => .pure hr

theorem arrayPatternElements_stays (hd : d.Stays w) {pattern : Parse Bound}
    (hpattern : Stays w pattern (NamesLieIn w)) :
    Stays w (arrayPatternElements d pattern) (NamesLieIn w) := by
  refine .iterate (I := NamesLieIn w) (fun r hr => ?_) (fun _ h => by cases h)
  refine .isAt fun _ => .ite (.pure hr) <| (accept_stays _).bind fun _ _ => ?_
  refine .ite (.pure hr) ?_
  refine .isAt fun _ => .ite ?_ ?_
  · refine .here fun _ => (expect_stays _).bind fun _ _ => ?_
    refine hpattern.bind fun r' hr' => ?_
    exact .spanFrom fun _ => .pure (List.forall_mem_append.2 ⟨hr, hr'⟩)
  · refine (withDefault_stays hd hpattern).bind fun r' hr' => ?_
    refine .isAt fun _ => ?_
    have hmore : Stays w (Pure.pure (.inl (r'.1 :: r.1, r.2 ++ r'.2)) :
        Parse ((List Node × List Token) ⊕ (List Node × List Token)))
        (Sum.elim (NamesLieIn w) (NamesLieIn w)) := .pure (List.forall_mem_append.2 ⟨hr, hr'⟩)
    exact .ite hmore <| (expect_stays _).bind fun _ _ => hmore

theorem propertyPattern_stays (hd : d.Stays w) {pattern : Parse Bound}
    (hpattern : Stays w pattern (NamesLieIn w)) :
    Stays w (propertyPattern d pattern) (NamesLieIn w) := by
  refine .here fun _ => .token fun a ha => ?_
  have hone (n : Node) : NamesLieIn w (n, [a]) := List.forall_mem_singleton.2 ha
  split
  · refine (bindingIdentifier_stays _).bind fun _ _ => ?_
    refine .spanFrom fun _ => ?_
    refine (accept_stays _).bind fun _ _ => .ite ?_ <| (accept_stays _).bind fun _ _ => .ite ?_ ?_
    · refine (hd _).bind fun _ _ => ?_
      exact .spanFrom fun _ => .spanFrom fun _ => .pure (hone _)
    · exact (withDefault_stays hd hpattern).bind fun _ hr => .spanFrom fun _ => .pure hr
    · exact .spanFrom fun _ => .pure (hone _)
  · refine .isAt fun _ => (propertyKey_stays hd).bind fun _ _ => ?_
    refine (expect_stays _).bind fun _ _ => ?_
    exact (withDefault_stays hd hpattern).bind fun _ hr => .spanFrom fun _ => .pure hr

theorem restProperty_stays {pattern : Parse Bound} (hpattern : Stays w pattern (NamesLieIn w)) :
    Stays w (restProperty pattern) (NamesLieIn w) := by
  refine .here fun _ => (expect_stays _).bind fun _ _ => ?_
  refine hpattern.bind fun _ hr => ?_
  refine .isAt fun _ => .guard .refuseHere <| .isAt fun _ => ?_
  exact .ite (.spanFrom fun _ => .pure hr) (.absurd .refuseHere)

theorem objectPatternProperties_stays (hd : d.Stays w) {pattern restPattern : Parse Bound}
    (hpattern : Stays w pattern (NamesLieIn w)) (hrest : Stays w restPattern (NamesLieIn w)) :
    Stays w (objectPatternProperties d pattern restPattern) (NamesLieIn w) := by
  refine .iterate (I := NamesLieIn w) (fun r hr => ?_) (fun _ h => by cases h)
  refine .isAt fun _ => .ite (.pure hr) <| .isAt fun _ => ?_
  extract_lets more
  have hmore (r' : Bound) (hr' : NamesLieIn w r') :
      Stays w (more r') (Sum.elim (NamesLieIn w) (NamesLieIn w)) := by
    have hboth : Stays w (Pure.pure (.inl (r'.1 :: r.1, r.2 ++ r'.2)) :
        Parse ((List Node × List Token) ⊕ (List Node × List Token)))
        (Sum.elim (NamesLieIn w) (NamesLieIn w)) := .pure (List.forall_mem_append.2 ⟨hr, hr'⟩)
    refine .isAt fun _ => .ite hboth <| (expect_stays _).bind fun _ _ => ?_
    exact hboth
  clear_value more
  exact .ite ((restProperty_stays hrest).bind hmore)
    ((propertyPattern_stays hd hpattern).bind hmore)

theorem pattern_stays (hd : d.Stays w) (depth : Nat) (kind : Option VariableKind) :
    Stays w (pattern d depth kind) (NamesLieIn w) := by
  induction depth generalizing kind with
  | zero => exact .refuseHere
  | succ depth ih =>
    refine .here fun _ => (accept_stays _).bind fun _ _ => ?_
    refine .ite ?_ ?_
    · refine (arrayPatternElements_stays hd (ih kind)).bind fun _ hr => ?_
      exact (expect_stays _).bind fun _ _ => .spanFrom fun _ => .pure hr
    refine (accept_stays _).bind fun _ _ => ?_
    refine .ite ?_ ?_
    · refine (objectPatternProperties_stays hd (ih kind) (ih none)).bind fun _ hr => ?_
      exact (expect_stays _).bind fun _ _ => .spanFrom fun _ => .pure hr
    · refine .token fun a ha => .guard (.refuseFor ha) ?_
      refine (bindingIdentifier_stays _).bind fun _ _ => ?_
      exact .pure (List.forall_mem_singleton.2 ha)

theorem bindingPattern_stays (hd : d.Stays w) (kind : Option VariableKind) :
    Stays w (bindingPattern d kind) (NamesLieIn w) := pattern_stays hd _ _

theorem restParameter_stays (hd : d.Stays w) : Stays w (restParameter d) (NamesLieIn w) := by
  refine .here fun _ => (expect_stays _).bind fun _ _ => ?_
  refine (bindingPattern_stays hd _).bind fun _ hr => ?_
  refine .isAt fun _ => .guard .refuseHere <| .isAt fun _ => ?_
  exact .ite (.spanFrom fun _ => .pure hr) (.absurd .refuseHere)

/-! ## Parameters -/

/-- The token that is blamed lies in a text. -/
def Blame.LiesIn (w : Text) : Blame → Prop
  | token a => a.LiesIn w
  | here => True

/-- What is known about names blames tokens of a text. -/
structure Names.LiesIn (w : Text) (n : Names) : Prop where
  restricted : ∀ b ∈ n.restricted, b.LiesIn w
  stricted : ∀ b ∈ n.stricted, b.LiesIn w

theorem Names.liesIn_empty : Names.LiesIn w {} := ⟨by simp, by simp⟩

theorem Names.LiesIn.add {n : Names} {b : Blame} (h : n.LiesIn w) (hb : b.LiesIn w) (strict : Bool)
    (name : Text) : (n.add strict name b).LiesIn w := by
  obtain ⟨hrestricted, hstricted⟩ := h
  unfold Names.add
  constructor <;> grind

theorem Names.LiesIn.addAll {n : Names} (h : n.LiesIn w) (strict : Bool) {tokens : List Token}
    (htokens : ∀ a ∈ tokens, a.LiesIn w) :
    (tokens.foldl (fun n a => n.add strict a.text (.token a)) n).LiesIn w := by
  induction tokens generalizing n with
  | nil => exact h
  | cons a tokens ih =>
    obtain ⟨ha, htokens⟩ := List.forall_mem_cons.1 htokens
    exact ih (h.add (b := .token a) ha strict a.text) htokens

theorem Blame.refuse_stays {α : Type} {P : α → Prop} {b : Blame} {cause : Fault} (hb : b.LiesIn w) :
    Stays w (b.refuse cause) P := by
  cases b with
  | token a => exact .refuseFor hb
  | here => exact .refuseHere

theorem Names.check_stays {n : Names} (hn : n.LiesIn w) : Stays w n.check := by
  obtain ⟨hrestricted, hstricted⟩ := hn
  refine .get fun _ _ => .ite ?_ (.pure trivial)
  extract_lets cause rest
  have hrest : Stays w (rest ()) := by
    dsimp only [rest]
    split
    · next b hb => exact Blame.refuse_stays (hstricted b hb)
    · exact .pure trivial
  clear_value rest
  split
  · next b hb => exact .absurd (Blame.refuse_stays (hrestricted b hb))
  · exact hrest

/-- A parameter list lies in a text if what is blamed for its names does. -/
def Parameters.LiesIn (w : Text) (ps : Parameters) : Prop := ps.names.LiesIn w

theorem formalParameters_stays (hd : d.Stays w) {names : Names} (hnames : names.LiesIn w) :
    Stays w (formalParameters d names) (Parameters.LiesIn w) := by
  refine (expect_stays _).bind fun _ _ => ?_
  refine .isAt fun _ => ?_
  extract_lets rest
  have hrest (ps : Parameters) (hps : ps.LiesIn w) : Stays w (rest ps) (Parameters.LiesIn w) :=
    (expect_stays _).bind fun _ _ => .pure hps
  clear_value rest
  refine .ite (.pure_bind (hrest _ hnames)) (.bind ?_ hrest)
  refine .iterate (I := fun r => r.2.LiesIn w)
    (fun r hr => .isAtEnd fun _ => .ite (.pure hr) ?_) hnames
  refine .isAt fun _ => ?_
  extract_lets more
  have hmore (b : Bound) (hb : NamesLieIn w b) :
      Stays w (more b) (Sum.elim (fun r => r.2.LiesIn w) (Parameters.LiesIn w)) := by
    refine .get fun s _ => ?_
    have hnames := hr.addAll s.strict hb
    refine .isAt fun _ => .ite (.pure hnames) <| (expect_stays _).bind fun _ _ => ?_
    exact .isAt fun _ => .ite (.pure hnames) (.pure hnames)
  clear_value more
  exact .ite ((restParameter_stays hd).bind hmore)
    ((withDefault_stays hd (bindingPattern_stays hd _)).bind hmore)

/-! ## Bodies -/

theorem directive_stays (hd : d.Stays w) (raw : Text) : Stays w (directive d raw) := by
  refine .here fun _ => (expression_stays hd).bind fun _ _ => ?_
  exact endStatement_stays.bind fun _ _ => .spanFrom fun _ => .pure trivial

/-- An octal escape is blamed once a later directive makes the body strict. -/
theorem directives_stays (hd : d.Stays w) : Stays w (directives d) := by
  refine .iterate (I := fun r => ∀ a ∈ r.2, Token.LiesIn w a) (fun r hr => .token fun a ha => ?_)
    (by simp)
  split
  · refine (directive_stays hd _).bind fun r' _ => ?_
    obtain ⟨statement, text?⟩ := r'
    cases text? with
    | none => exact .pure trivial
    | some text =>
      refine .ite (.modifyContext rfl ?_) (.pure ?_)
      · have hrest : Stays w (do
            if !(← get).allowStrictDirective then refuseFor a .directiveAfterPatterns
            return .inl (statement :: r.1, r.2) :
            Parse ((List Node × Option Token) ⊕ List Node))
            (Sum.elim (fun r => ∀ a ∈ r.2, Token.LiesIn w a) fun _ => True) :=
          .get fun _ _ => .guard (.refuseFor ha) (.pure hr)
        split
        · next b hb => exact .absurd (.refuseFor (hr b hb))
        · exact hrest
      · intro b hb
        cases hoctal : r.2 with
        | none => grind
        | some c => exact hr b (by simpa [hoctal] using hb)
  · exact .pure trivial

theorem functionBody_stays (hd : d.Stays w) : Stays w (functionBody d) := by
  refine .here fun _ => (expect_stays _).bind fun _ _ => ?_
  refine (directives_stays hd).bind fun _ _ => ?_
  refine .get fun _ _ => .modifyContext rfl <| (Stays.collect ?_).bind fun _ _ => ?_
  · exact .isAtEnd fun _ => .isAt fun _ => .ite (.pure trivial) <|
      (hd _).bind fun _ _ => .pure trivial
  · exact (expect_stays _).bind fun _ _ => .modifyContext rfl <| .spanFrom fun _ => .pure trivial

theorem bodyFor_stays {ps : Parameters} {body : Parse Node} (hps : ps.LiesIn w)
    (hbody : Stays w body) : Stays w (bodyFor ps body) := by
  refine .get fun _ _ => .modifyContext rfl <| hbody.bind fun _ _ => ?_
  exact (Names.check_stays hps).bind fun _ _ => .modifyContext rfl <| .pure trivial

/-! ## Methods and functions -/

theorem methodBody_stays (hd : d.Stays w) {ps : Parameters} (hps : ps.LiesIn w) :
    Stays w (methodBody d ps) := .markValue <| bodyFor_stays hps (functionBody_stays hd).isolate

theorem method_stays (hd : d.Stays w) (form : MethodForm) {accepts : Parameters → Parse Unit}
    (haccepts : ∀ ps, Stays w (accepts ps)) : Stays w (method d form accepts) := by
  refine .here fun _ => .get fun _ _ => .modifyContext rfl ?_
  refine (formalParameters_stays hd Names.liesIn_empty).bind fun ps hps => ?_
  refine (haccepts ps).bind fun _ _ => ?_
  extract_lets rest
  have hrest : Stays w (rest ()) := (methodBody_stays hd hps).bind fun _ _ =>
    .modifyContext rfl <| .spanFrom fun _ => .pure trivial
  clear_value rest
  exact .ite (.modifyContext rfl hrest) hrest

theorem plainMethod_stays (hd : d.Stays w) : Stays w (plainMethod d) :=
  method_stays hd _ fun _ => .pure trivial

theorem getter_stays (hd : d.Stays w) : Stays w (getter d) :=
  method_stays hd _ fun _ => .ite (.pure trivial) .refuseLine

theorem setter_stays (hd : d.Stays w) : Stays w (setter d) := by
  refine method_stays hd _ fun _ => ?_
  split
  · exact .refuseLine
  · exact .pure trivial
  · exact .refuseLine

theorem functionName_stays {name : Parse Node} (hname : Stays w name) :
    Stays w (functionName name) fun r => r.2.LiesIn w := by
  refine .token fun a ha => hname.bind fun _ _ => ?_
  refine .get fun _ _ => .ite ?_ ?_
  · exact .guard (.refuseFor ha) <| .pure Names.liesIn_empty
  · have hone {cause : Fault} :
        Names.LiesIn w { restricted := some (.token a), cause := some cause } :=
      ⟨fun _ hb => Option.mem_some.1 hb ▸ ha, by simp⟩
    exact .ite (.pure hone) <| .ite (.pure hone) (.pure Names.liesIn_empty)

theorem isAtAsyncFunction_stays : Stays w isAtAsyncFunction :=
  .isAtName fun _ => .ite (.get fun _ _ => peek_stays.bind fun _ _ => .pure trivial) (.pure trivial)

theorem functionHead_stays : Stays w functionHead := by
  refine .isAtName fun isAsync => ?_
  extract_lets finish rest
  have hrest : Stays w (rest ()) := by
    refine (expectKeyword_stays _).bind fun _ _ => ?_
    exact .ite (.pure_bind <| .pure trivial) ((accept_stays _).bind fun _ _ => .pure trivial)
  clear_value rest
  exact .ite (advance_stays.bind fun _ _ => hrest) hrest

theorem inFunctionContext_stays {α : Type} {isAsync isGenerator : Bool} {p : Parse α}
    (hp : Stays w p) : Stays w (inFunctionContext isAsync isGenerator p) :=
  .get fun _ _ => .modifyContext rfl <| hp.bind fun _ _ => .modifyContext rfl <| .pure trivial

theorem functionRest_stays (hd : d.Stays w) {names : Names} (hnames : names.LiesIn w) :
    Stays w (functionRest d names) := by
  refine (formalParameters_stays hd hnames).bind fun _ hps => ?_
  exact (bodyFor_stays hps (functionBody_stays hd)).bind fun _ _ => .pure trivial

theorem functionDeclaration_stays (hd : d.Stays w) : Stays w (functionDeclaration d) := by
  refine .here fun _ => functionHead_stays.bind fun _ _ => ?_
  refine (functionName_stays (bindingIdentifier_stays _)).bind fun _ hnames => ?_
  exact (inFunctionContext_stays (functionRest_stays hd hnames)).bind fun _ _ =>
    .spanFrom fun _ => .pure trivial

theorem functionExpression_stays (hd : d.Stays w) : Stays w (functionExpression d) := by
  refine .here fun _ => functionHead_stays.bind fun _ _ => ?_
  refine (inFunctionContext_stays (.isAt fun _ => ?_)).bind fun _ _ =>
    .spanFrom fun _ => .pure trivial
  extract_lets rest
  have hrest (r : Option Node × Names) (hr : r.2.LiesIn w) : Stays w (rest r) :=
    (functionRest_stays hd hr).bind fun _ _ => .pure trivial
  clear_value rest
  refine .ite (.pure_bind (hrest _ Names.liesIn_empty)) <| .get fun _ _ => .isAtKeyword fun _ => ?_
  refine (functionName_stays ?_).bind fun r hr => .pure_bind (hrest (some r.1, r.2) hr)
  exact .ite identifierName_stays (bindingIdentifier_stays _)

/-! ## Classes -/

theorem memberHead_stays (hd : d.Stays w) : Stays w (memberHead d) fun r => r.token.LiesIn w := by
  refine .token fun first hfirst => (accept_stays _).bind fun _ _ => ?_
  refine .ite (.pure hfirst) ?_
  refine .isAt fun _ => (propertyKey_stays hd).bind fun _ _ => ?_
  refine .token fun t ht => ?_
  extract_lets rest
  have hrest (head : MemberHead) (hhead : head.token.LiesIn w) :
      Stays w (rest head) fun r => r.token.LiesIn w := by
    refine .get fun s hs => .ite ?_ (.pure hhead)
    refine (propertyKey_stays hd).bind fun _ _ => ?_
    exact .guard (.refuseFor hs.token) (.pure hs.token)
  clear_value rest
  refine .ite (.isAt fun _ => (accept_stays _).bind fun _ _ => .ite ?_ ?_) ?_
  · exact .pure_bind <| hrest _ ht
  · refine (propertyKey_stays hd).bind fun _ _ => ?_
    exact .pure_bind <| hrest _ ht
  · exact .pure_bind <| hrest _ hfirst

theorem classMember_stays (hd : d.Stays w) (hasConstructor : Bool) :
    Stays w (classMember d hasConstructor) := by
  refine .here fun _ => (memberHead_stays hd).bind fun head hhead => ?_
  refine .token fun _ _ => ?_
  extract_lets rest ordinary
  have hrest (r : Option MemberKind × Bool × Option Node × Node) : Stays w (rest r) := by
    obtain ⟨kind?, computed, key, value⟩ := r
    dsimp -zeta only [rest]
    split
    · refine .guard (.refuseFor hhead) <| .ite ?_ (.spanFrom fun _ => .pure trivial)
      exact .guard (.refuseFor hhead) <| .guard (.refuseFor hhead) <|
        .spanFrom fun _ => .pure trivial
    · exact .refuseToken
  clear_value rest
  have hkey {p : Node → Parse (Node × Bool)} (hp : ∀ n, Stays w (p n)) :
      Stays w (propertyKey d >>= p) := (propertyKey_stays hd).bind fun n _ => hp n
  refine .ite (.isAt fun _ => hkey fun _ => .modifyContext rfl ?_) <|
    .ite (.isAt fun _ => hkey fun _ => ?_) <| .ite (.isAt fun _ => hkey fun _ => ?_) <|
      .ite (.ite ?_ ?_) (.pure_bind <| hrest _)
  · exact (getter_stays hd).bind fun _ _ => .pure_bind <| hrest _
  · exact (setter_stays hd).bind fun _ _ => .pure_bind <| hrest _
  · exact (method_stays hd _ fun _ => .pure trivial).bind fun _ _ => .pure_bind <| hrest _
  · exact (method_stays hd _ fun _ => .pure trivial).bind fun _ _ => .pure_bind <| hrest _
  · exact (plainMethod_stays hd).bind fun _ _ => .pure_bind <| hrest _

theorem classBody_stays (hd : d.Stays w) : Stays w (classBody d) := by
  refine .here fun _ => (expect_stays _).bind fun _ _ => ?_
  refine (Stays.loop fun _ => ?_).bind fun _ _ => ?_
  · refine .isAt fun _ => .ite (.pure trivial) <| (accept_stays _).bind fun _ _ => ?_
    exact .ite (.pure trivial) <| (classMember_stays hd _).bind fun _ _ => .pure trivial
  · exact (expect_stays _).bind fun _ _ => .spanFrom fun _ => .pure trivial

theorem class_stays (hd : d.Stays w) (isDeclaration : Bool) {name : Parse (Option Node)}
    (hname : Stays w name) : Stays w (class_ d isDeclaration name) := by
  refine .here fun _ => .get fun _ _ => .modifyContext rfl <|
    (expectKeyword_stays _).bind fun _ _ => ?_
  refine hname.bind fun _ _ => ?_
  refine (acceptKeyword_stays _).bind fun _ _ => ?_
  extract_lets rest
  have hrest (superClass : Option Node) : Stays w (rest superClass) :=
    (classBody_stays hd).bind fun _ _ => .modifyContext rfl <| .spanFrom fun _ => .pure trivial
  clear_value rest
  exact .ite ((hd _).isolate.bind fun _ _ => .pure_bind <| hrest _) (.pure_bind <| hrest _)

theorem classDeclaration_stays (hd : d.Stays w) : Stays w (classDeclaration d) :=
  class_stays hd _ <| (bindingIdentifier_stays _).bind fun _ _ => .pure trivial

theorem classExpression_stays (hd : d.Stays w) : Stays w (classExpression d) := by
  refine class_stays hd _ <| .token fun _ _ => ?_
  split
  · exact (bindingIdentifier_stays _).bind fun _ _ => .pure trivial
  · exact .pure trivial

end Parse
end Elementwise
