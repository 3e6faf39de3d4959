import Elementwise.Grammar.Binding

/-!
# Functions

Parameters, bodies, methods, and functions as declarations and expressions.

Names of parameters that strict code refuses are remembered while they are read, because only the
body tells whether the function is strict.
-/

set_option autoImplicit false
namespace Elementwise
namespace Parse

/-! ## Names of parameters -/

/-- What is blamed for a fault: a token, or the last consumed token if none is at hand. -/
inductive Blame where
  | token (t : Token)
  | here
deriving Inhabited

/-- Refuses the text for a fault in a parameter. -/
def Blame.refuse {α : Type} : Blame → Fault → Parse α
  | token t, cause => refuseFor t cause
  | here, cause => refuseHere cause

/-- What is known about the names of parameters read so far. -/
structure Names where
  /-- The names. -/
  seen : List Text := []
  /-- A name that the function may only have if it does not turn out to be strict. -/
  restricted : Option Blame := none
  /-- A name that strict code refuses. -/
  stricted : Option Blame := none
  /-- What is wrong with it. -/
  cause : Option Fault := none
deriving Inhabited

/-- Takes note of one more name. -/
def Names.add (strict : Bool) (name : Text) (b : Blame) (n : Names) : Names :=
  let n' : Names :=
    if strict then
      let n :=
        if Word.isRestricted name then
          { n with stricted := some b, cause := some .strictParameter }
        else n
      if name ∈ n.seen then
        { n with stricted := some b, cause := some .strictDuplicateParameter }
      else n
    else if n.restricted.isNone then
      if Word.isRestricted name then
        { n with restricted := some b, cause := some .strictParameter }
      else if Word.isStrictReserved name then
        { n with restricted := some b, cause := some .strictReservedWord }
      else if name ∈ n.seen then
        { n with stricted := some b, cause := some .strictDuplicateParameter }
      else n
    else n
  { n' with seen := name :: n'.seen }

/-- Refuses the names that a strict function may not have. -/
def Names.check (n : Names) : Parse Unit := do
  if (← get).strict then
    let cause := n.cause.getD .strictParameter
    if let some b := n.restricted then b.refuse cause
    if let some b := n.stricted then b.refuse cause

/-- A parameter list. -/
structure Parameters where
  params : List Node
  names : Names
deriving Inhabited

/-- Whether all parameters are plain names. -/
def Parameters.isSimple (p : Parameters) : Bool := p.params.all Node.isIdentifier

/-- A parenthesised parameter list; `names` says what is known about the name of the function. -/
def formalParameters (d : Deeper) (names : Names) : Parse Parameters := do
  expect .leftParen
  let params ←
    if ← isAt .rightParen then pure ⟨[], names⟩
    else
      iterate
        (fun (params, names) => do
          if ← isAtEnd then return .inr ⟨List.reverse params, names⟩
          else
            let (param, tokens) ←
              if ← isAt .ellipsis then restParameter d
              else withDefault d (bindingPattern d none)
            let strict := (← get).strict
            let names := tokens.foldl (fun n t => n.add strict t.text (.token t)) names
            if ← isAt .rightParen then return .inr ⟨(param :: params).reverse, names⟩
            else
              expect .comma
              if ← isAt .rightParen then return .inr ⟨(param :: params).reverse, names⟩
              else return .inl (param :: params, names))
        d.bound ([], names)
  expect .rightParen
  return params

/-! ## Bodies -/

/-- A statement that begins with a string: a directive if the string is all of it and not empty. -/
def directive (d : Deeper) (raw : Text) : Parse (Node × Option Text) := do
  let start ← here
  let e ← expression d
  let directive :=
    match e with
    | .literal .. => if raw.isEmpty then none else some raw
    | _ => none
  endStatement
  return (.expression (← spanFrom start) e directive, directive)

/-- The directives in front of a body.  One of them may make the body strict, and then no directive
before it may hold an octal escape. -/
def directives (d : Deeper) : Parse (List Node) :=
  iterate
    (fun (statements, octal) => do
      let t ← token
      match t.kind with
      | .string _ raw _ =>
        let (statement, text?) ← directive d raw
        let statements := statement :: statements
        match text? with
        | none => return .inr statements.reverse
        | some text =>
          if text = Word.useStrict then
            modifyContext fun c => { c with strict := true }
            if let some t := octal then refuseFor t .strictOctal
            if !(← get).allowStrictDirective then refuseFor t .directiveAfterPatterns
            return .inl (statements, octal)
          else
            return .inl (statements, octal <|> (if t.isOctal then some t else none))
      | _ => return .inr statements.reverse)
    d.bound (([] : List Node), (none : Option Token))

/-- The body of a function. -/
def functionBody (d : Deeper) : Parse Node := do
  let start ← here
  expect .leftBrace
  let front ← directives d
  let c := (← get).toContext
  modifyContext fun c =>
    { c with labels := [], inLoop := false, inSwitch := false, inFunction := true }
  let statements ← collect
    (do
      if (← isAtEnd) || (← isAt .rightBrace) then return none
      else return some (← d.parse .item))
    d.bound
  expect .rightBrace
  modifyContext fun c' =>
    { c' with
      labels := c.labels, inLoop := c.inLoop, inSwitch := c.inSwitch, inFunction := c.inFunction }
  return .block (← spanFrom start) (front ++ statements)

/-- The body of a function with given parameters, which may become strict on its own. -/
def bodyFor (ps : Parameters) (body : Parse Node) : Parse Node := do
  let c := (← get).toContext
  modifyContext fun c => { c with allowStrictDirective := ps.isSimple }
  let node ← body
  ps.names.check
  modifyContext fun c' =>
    { c' with strict := c.strict, allowStrictDirective := c.allowStrictDirective }
  return node

/-! ## Methods -/

/-- The body of a method. -/
def methodBody (d : Deeper) (ps : Parameters) : Parse Node := do
  markValue
  bodyFor ps (isolate (functionBody d))

/-- The way a method treats `yield` and `await`. -/
inductive MethodForm where
  | plain | asynchronous | generator
deriving DecidableEq, Inhabited, Repr

/-- Parameters and body of a method.  `accepts` refuses parameter lists that the method may not
have. -/
def method (d : Deeper) (form : MethodForm) (accepts : Parameters → Parse Unit) : Parse Node := do
  let start ← here
  let c := (← get).toContext
  modifyContext fun c =>
    { c with
      allowYield := form ≠ .asynchronous
      allowAwait := form = .asynchronous || c.allowAwait }
  let ps ← formalParameters d {}
  accepts ps
  if form = .generator then modifyContext fun c => { c with allowYield := false }
  let body ← methodBody d ps
  modifyContext fun c' => { c' with allowYield := c.allowYield, allowAwait := c.allowAwait }
  return .function (← spanFrom start) false (form = .asynchronous) (form = .generator) none
    ps.params body

/-- A method without a word in front of its key. -/
def plainMethod (d : Deeper) : Parse Node := method d .plain fun _ => pure ()

/-- A getter, behind its key. -/
def getter (d : Deeper) : Parse Node :=
  method d .plain fun ps => unless ps.params.isEmpty do refuseLine .getterArity

/-- A setter, behind its key. -/
def setter (d : Deeper) : Parse Node :=
  method d .plain fun ps =>
    match ps.params with
    | [.rest ..] => refuseLine .setterRest
    | [_] => pure ()
    | _ => refuseLine .setterArity

/-! ## Functions -/

/-- The name of a function, which the strictness of the function decides about. -/
def functionName (name : Parse Node) : Parse (Node × Names) := do
  let t ← token
  let id ← name
  if (← get).strict then
    if Word.isRestricted t.text then refuseFor t .strictFunctionName
    return (id, {})
  else if Word.isRestricted t.text then
    return (id, { restricted := some (.token t), cause := some .strictFunctionName })
  else if Word.isStrictReserved t.text then
    return (id, { restricted := some (.token t), cause := some .strictReservedWord })
  else return (id, {})

/-- Whether an asynchronous function starts here: `async` with `function` behind it on its line. -/
def isAtAsyncFunction : Parse Bool := do
  if ← isAtName Word.async then
    let line := (← get).reader.place.line
    let t ← peek
    return t.line = line && t.kind = .keyword .function
  else return false

/-- The words in front of a function: whether it is asynchronous and whether it is a generator. -/
def functionHead : Parse (Bool × Bool) := do
  let isAsync ← isAtName Word.async
  if isAsync then
    let _ ← advance
  expectKeyword .function
  let isGenerator ← if isAsync then pure false else accept (.operator .times)
  return (isAsync, isGenerator)

/-- Lets a function's parameters and body be parsed in its own context. -/
def inFunctionContext {α : Type} (isAsync isGenerator : Bool) (p : Parse α) : Parse α := do
  let c := (← get).toContext
  modifyContext fun c => { c with allowAwait := isAsync, allowYield := !isGenerator }
  let a ← p
  modifyContext fun c' => { c' with allowAwait := c.allowAwait, allowYield := c.allowYield }
  return a

/-- Parameters and body of a function. -/
def functionRest (d : Deeper) (names : Names) : Parse (List Node × Node) := do
  let ps ← formalParameters d names
  let body ← bodyFor ps (functionBody d)
  return (ps.params, body)

/-- A function declaration. -/
def functionDeclaration (d : Deeper) : Parse Node := do
  let start ← here
  let (isAsync, isGenerator) ← functionHead
  let (id, names) ← functionName (bindingIdentifier none)
  let (params, body) ← inFunctionContext isAsync isGenerator (functionRest d names)
  return .function (← spanFrom start) true isAsync isGenerator (some id) params body

/-- A function expression.  Its name is read in its own context. -/
def functionExpression (d : Deeper) : Parse Node := do
  let start ← here
  let (isAsync, isGenerator) ← functionHead
  let (id, params, body) ← inFunctionContext isAsync isGenerator do
    let (id, names) ←
      if ← isAt .leftParen then pure (none, {})
      else
        let anyName := !(← get).strict && !isGenerator && (← isAtKeyword .yield)
        let (id, names) ← functionName (if anyName then identifierName else bindingIdentifier none)
        pure (some id, names)
    let (params, body) ← functionRest d names
    return (id, params, body)
  return .function (← spanFrom start) false isAsync isGenerator id params body

end Parse
end Elementwise
