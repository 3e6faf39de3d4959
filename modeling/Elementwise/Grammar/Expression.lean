import Elementwise.Grammar.Class
import Elementwise.Syntax.Pattern

/-!
# Expressions

The grammar of expressions from literals up to assignments.

A list in parentheses, brackets or braces may turn out to be a pattern when `=` or `=>` follows, so
two facts are kept while expressions are read: whether what was read last can be assigned to, and
whether it can be a parameter.
-/

set_option autoImplicit false
namespace Elementwise
namespace Parse

/-! ## Templates -/

/-- A piece of a template. -/
def templateElement : Parse (Node × Bool) := do
  let start ← here
  match (← token).kind with
  | .template raw cooked _ tail =>
    let _ ← advance
    return (.templateElement (← spanFrom start) raw cooked tail, tail)
  | _ => refuseHere .illegal

/-- Whether a template starts here. -/
def isAtTemplate : Parse Bool := do
  match (← token).kind with
  | .template _ _ head _ => return head
  | _ => return false

/-- A template. -/
def template (d : Deeper) : Parse Node := do
  let start ← here
  unless ← isAtTemplate do throw .templateContinuation
  let (first, tail) ← templateElement
  let (quasis, expressions) ← iterate
    (fun (quasis, expressions, tail) => do
      if tail then return .inr (List.reverse quasis, List.reverse expressions)
      else
        let e ← expression d
        let (quasi, tail) ← templateElement
        return .inl (quasi :: quasis, e :: expressions, tail))
    d.bound ([first], [], tail)
  return .template (← spanFrom start) quasis expressions

/-! ## Arrays and objects -/

/-- An element or argument with `...` in front of it. -/
def spreadElement (d : Deeper) : Parse Node := do
  let start ← here
  expect .ellipsis
  let argument ← inherit (d.parse .assignment)
  return .spread (← spanFrom start) argument

/-- An array literal. -/
def arrayLiteral (d : Deeper) : Parse Node := do
  let start ← here
  expect .leftBracket
  let elements ← collect
    (do
      if ← isAt .rightBracket then return none
      else if ← accept .comma then return some .hole
      else if ← isAt .ellipsis then
        let element ← spreadElement d
        unless ← isAt .rightBracket do
          markValue
          expect .comma
        return some element
      else
        let element ← inherit (d.parse .assignment)
        unless ← isAt .rightBracket do expect .comma
        return some element)
    d.bound
  expect .rightBracket
  return .array (← spanFrom start) elements

/-- The value of a property behind its key: after a colon, or as a method.  None if there is
neither.  `hasProto` says whether the object has its prototype set already. -/
def propertyValue (d : Deeper) (key : Node) (computed isAsync hasProto : Bool) :
    Parse (Option (Node × Bool) × Bool) := do
  let next ← token
  if next.kind = .punctuator .colon && !isAsync then
    let isProto := !computed && key.isKey Word.proto
    if isProto && hasProto then refuseLine .duplicateProto
    let _ ← advance
    return (some (← inherit (d.parse .assignment), false), hasProto || isProto)
  else if next.kind = .punctuator .leftParen then
    let value ← if isAsync then method d .asynchronous fun _ => pure () else plainMethod d
    return (some (value, true), hasProto)
  else return (none, hasProto)

/-- A property of an object literal.  `hasProto` says whether the object has its prototype set
already; the result says whether it has now. -/
def objectProperty (d : Deeper) (hasProto : Bool) : Parse (Node × Bool) := do
  let start ← here
  let first ← token
  let name? : Option Text :=
    match first.kind with
    | .identifier name => some name
    | _ => none
  let isGenerator := first.kind = .punctuator (.operator .times)
  let (key?, computed, isAsync) : Option Node × Bool × Bool ←
    match name? with
    | some name => do
      let _ ← advance
      let s ← get
      let computed ← isAt .leftBracket
      let next := s.token.kind
      let isAsync := !s.afterNewline && name = Word.async &&
        next ≠ .punctuator .colon && next ≠ .punctuator .leftParen &&
        next ≠ .punctuator (.operator .times) && next ≠ .punctuator .comma
      if isAsync then pure (some (← propertyKey d), computed, true)
      else pure (some (.identifier (← spanFrom start) name), computed, false)
    | none =>
      if isGenerator then do
        let _ ← advance
        pure (none, false, false)
      else do
        let computed ← isAt .leftBracket
        pure (some (← propertyKey d), computed, false)
  let next ← token
  if name? = some Word.get && !isAsync && next.startsKey then
    let computed ← isAt .leftBracket
    let key ← propertyKey d
    modifyContext fun c => { c with allowYield := false }
    let value ← getter d
    return (.property (← spanFrom start) .getter computed false false key value, hasProto)
  else if name? = some Word.set && !isAsync && next.startsKey then
    let computed ← isAt .leftBracket
    let key ← propertyKey d
    let value ← setter d
    return (.property (← spanFrom start) .setter computed false false key value, hasProto)
  else if isGenerator && next.startsKey then
    let computed ← isAt .leftBracket
    let key ← propertyKey d
    let value ← method d .generator fun _ => pure ()
    return (.property (← spanFrom start) .value computed true false key value, hasProto)
  else
    match key? with
    | none => refuseToken
    | some key =>
      let (value?, hasProto) ← propertyValue d key computed isAsync hasProto
      match value?, name? with
      | some (value, isMethod), _ =>
        return (.property (← spanFrom start) .value computed isMethod false key value, hasProto)
      | none, some name =>
        let target := Node.identifier (← spanFrom start) name
        if ← isAt (.assign none) then
          let t ← token
          modifyContext fun c => { c with coverInit := some t }
          let _ ← advance
          let init ← isolate (d.parse .assignment)
          let value := Node.assignmentPattern (← spanFrom start) target init
          return (.property (← spanFrom start) .value computed false true key value, hasProto)
        else
          return (.property (← spanFrom start) .value computed false true key target, hasProto)
      | none, none => refuse (← advance)

/-- An object literal. -/
def objectLiteral (d : Deeper) : Parse Node := do
  let start ← here
  expect .leftBrace
  let properties ← iterate
    (fun (properties, hasProto) => do
      if ← isAt .rightBrace then return .inr (List.reverse properties)
      else
        let (property, hasProto) ←
          if ← isAt .ellipsis then pure (← spreadElement d, hasProto)
          else objectProperty d hasProto
        unless ← isAt .rightBrace do expect .comma
        return .inl (property :: properties, hasProto))
    d.bound ([], false)
  expect .rightBrace
  return .object (← spanFrom start) properties

/-! ## Parentheses -/

/-- Consumes a closing parenthesis in front of `=>`. -/
def closeParameters : Parse Unit := do
  expect .rightParen
  unless ← isAt .arrow do expect .arrow

/-- The expressions behind the first one in parentheses, and whether they can only be parameters. -/
def groupRest (d : Deeper) (first : Node) : Parse (List Node × Bool) :=
  iterate
    (fun nodes => do
      if ← accept .comma then
        if ← accept .rightParen then return .inr (nodes.reverse.map Node.asPattern, true)
        else if ← isAt .ellipsis then
          if !(← get).isBinding then refuseToken
          let (last, _) ← restParameter d
          closeParameters
          modifyContext fun c => { c with isBinding := false }
          return .inr ((last :: nodes).reverse.map Node.asPattern, true)
        else
          return .inl ((← inherit (d.parse .assignment)) :: nodes)
      else return .inr (nodes.reverse, false))
    d.bound [first]

/-- What stands in parentheses: an expression, or the parameters of an arrow function. -/
def group (d : Deeper) : Parse Node := do
  expect .leftParen
  if ← isAt .rightParen then
    closeParameters
    return .arrowParameters false []
  let start ← here
  if ← isAt .ellipsis then
    let (param, _) ← restParameter d
    closeParameters
    return .arrowParameters false [param]
  modifyContext fun c => { c with isBinding := true }
  let first ← inherit (d.parse .assignment)
  let (nodes, isList) ←
    if ← isAt .comma then do
      modifyContext fun c => { c with isTarget := false }
      groupRest d first
    else pure ([first], false)
  if isList then return .arrowParameters false nodes
  let e : Node ←
    if nodes.length = 1 then pure first else pure (.sequence (← spanFrom start) nodes)
  expect .rightParen
  if ← isAt .arrow then
    if e.name? = some Keyword.yield.text then
      modifyContext fun c => { c with isBinding := false }
      return .arrowParameters false [e]
    if !(← get).isBinding then refuseToken
    modifyContext fun c => { c with isBinding := false }
    let params :=
      match e with
      | .sequence _ nodes => nodes
      | e => [e]
    return .arrowParameters false (params.map Node.asPattern)
  modifyContext fun c => { c with isBinding := false }
  return e

/-! ## Calls and members -/

/-- Arguments in parentheses, each read by `argument` unless it is spread. -/
def argumentsOf (d : Deeper) (argument : Parse Node) : Parse (List Node) := do
  expect .leftParen
  let nodes ←
    if ← isAt .rightParen then pure []
    else
      iterate
        (fun nodes => do
          let node ← if ← isAt .ellipsis then spreadElement d else isolate argument
          if ← isAt .rightParen then return .inr (node :: nodes).reverse
          else
            expect .comma
            if ← isAt .rightParen then return .inr (node :: nodes).reverse
            else return .inl (node :: nodes))
        d.bound []
  expect .rightParen
  return nodes

/-- The arguments of a call. -/
def callArguments (d : Deeper) : Parse (List Node) := argumentsOf d (d.parse .assignment)

/-- The arguments of a call that may turn out to be the parameters of an asynchronous arrow
function. -/
def asyncArguments (d : Deeper) : Parse (List Node) :=
  argumentsOf d do
    let node ← d.parse .assignment
    modifyContext fun c => { c with coverInit := none }
    return node

/-- Whether `import` stands here as a function to call. -/
def isAtImportCall : Parse Bool := do
  if ← isAtKeyword .import_ then return (← peek).kind = .punctuator .leftParen
  else return false

/-- A regular expression, whose first slash has been read as an operator. -/
def regex : Parse Node := do
  let s ← get
  let start := s.tokenPlace
  markValue
  match Regex.read start (s.tokenRest.drop 1) with
  | .error e => throw e
  | .ok (pattern, flags, p, t) =>
    modify fun s =>
      { s with
        token := ⟨.punctuator (.operator .divide), ⟨start.index, p.index⟩, s.reader.place.line⟩
        reader := { s.reader with place := p, rest := t } }
    let _ ← advance
    return .literal (← spanFrom start.index) (.regex pattern flags)

/-- A literal that is a single token. -/
def literal (value : Literal) : Parse Node := do
  let start ← here
  markValue
  let _ ← advance
  return .literal (← spanFrom start) value

/-- An expression that no operator belongs to. -/
def primary (d : Deeper) : Parse Node := do
  let start ← here
  let s ← get
  match s.token.kind with
  | .identifier name =>
    if s.allowAwait && name = Word.await then refuseToken
    if ← isAtAsyncFunction then functionExpression d
    else
      let _ ← advance
      return .identifier (← spanFrom start) name
  | .number value octal =>
    if s.strict && octal then refuseFor s.token .strictOctal
    literal (.number value)
  | .string value _ octal =>
    if s.strict && octal then refuseFor s.token .strictOctal
    literal (.string value)
  | .boolean value => literal (.boolean value)
  | .null => literal .null
  | .template .. => template d
  | .punctuator .leftParen =>
    modifyContext fun c => { c with isBinding := false }
    inherit (group d)
  | .punctuator .leftBracket => inherit (arrayLiteral d)
  | .punctuator .leftBrace => inherit (objectLiteral d)
  | .punctuator (.operator .divide) => regex
  | .punctuator (.assign (some .divide)) => regex
  | .keyword k =>
    if !s.strict && s.allowYield && k = .yield then identifierName
    else if !s.strict && k = .let_ then
      let t ← advance
      return .identifier (← spanFrom start) t.text
    else
      markValue
      match k with
      | .function => functionExpression d
      | .this =>
        let _ ← advance
        return .this (← spanFrom start)
      | .class_ => classExpression d
      | .import_ =>
        if ← isAtImportCall then
          let _ ← advance
          return .importReference (← spanFrom start)
        else refuse (← advance)
      | _ => refuse (← advance)
  | _ => refuse (← advance)

/-- An object made with `new`, or the meta property `new.target`. -/
def newExpression (d : Deeper) : Parse Node := do
  let start ← here
  let head ← identifierName
  if ← accept .dot then
    let s ← get
    if s.token.isNamed Word.target && s.inFunction then
      let property ← identifierName
      return .metaProperty (← spanFrom start) head property
    else refuseToken
  else if ← isAtKeyword .import_ then refuseToken
  else
    let callee ← isolate (d.parse .callee)
    let arguments ← if ← isAt .leftParen then callArguments d else pure []
    markValue
    return .new (← spanFrom start) callee arguments

/-- What members are taken of and calls are made of. -/
def head (d : Deeper) : Parse Node := do
  if ← isAtKeyword .new then inherit (newExpression d) else inherit (primary d)

/-- The access to a member or the template that follows an expression, if one does. -/
def suffix? (d : Deeper) (start : Nat) (e : Node) : Parse (Option Node) := do
  if ← isAt .dot then
    markMember
    expect .dot
    let property ← identifierName
    return some (.member (← spanFrom start) false e property)
  else if ← isAt .leftBracket then
    markMember
    expect .leftBracket
    let property ← isolate (expression d)
    expect .rightBracket
    return some (.member (← spanFrom start) true e property)
  else if ← isAtTemplate then
    let quasi ← template d
    return some (.taggedTemplate (← spanFrom start) e quasi)
  else return none

/-- The callee of `new`: members, but no calls. -/
def callee (d : Deeper) : Parse Node := do
  let start ← here
  let first ←
    if (← isAtKeyword .super) && (← get).inFunction then do
      let _ ← advance
      let e := Node.superReference (← spanFrom start)
      unless (← isAt .leftBracket) || (← isAt .dot) do refuseToken
      pure e
    else head d
  iterate
    (fun e => do
      match ← suffix? d start e with
      | some e => return .inl e
      | none => return .inr e)
    d.bound first

/-- A call, given what is called.  With `async` in front it may be the parameter list of an arrow
function. -/
def call (d : Deeper) (start : Nat) (mayBeAsync : Bool) (e : Node) : Parse Node := do
  markValue
  let arguments ← if mayBeAsync then asyncArguments d else callArguments d
  match e with
  | .importReference _ => if arguments.length ≠ 1 then refuseLine .unexpectedSomething
  | _ => pure ()
  if mayBeAsync && (← isAt .arrow) then
    return .arrowParameters true (arguments.map Node.asPattern)
  else return .call (← spanFrom start) e arguments

/-- Members and calls. -/
def callOrMember (d : Deeper) : Parse Node := do
  let start ← here
  let s ← get
  let startToken := s.token
  modifyContext fun c => { c with allowIn := true }
  let first ←
    if startToken.kind = .keyword .super && s.inFunction then do
      let _ ← advance
      let e := Node.superReference (← spanFrom start)
      unless (← isAt .leftParen) || (← isAt .dot) || (← isAt .leftBracket) do refuseToken
      pure e
    else head d
  let e ← iterate
    (fun e => do
      if ← isAt .leftParen then
        let mayBeAsync := startToken.isNamed Word.async && startToken.line = (← token).line
        return .inl (← call d start mayBeAsync e)
      else
        match ← suffix? d start e with
        | some e => return .inl e
        | none => return .inr e)
    d.bound first
  modifyContext fun c => { c with allowIn := s.allowIn }
  return e

/-! ## Operators -/

/-- The operator that changes its operand, if one stands here. -/
def updateOp? : Parse (Option UpdateOp) := do
  match (← token).kind with
  | .punctuator .increment => return some .increment
  | .punctuator .decrement => return some .decrement
  | _ => return none

/-- Refuses what an updating operator cannot change. -/
def checkUpdated (e : Node) (restricted : Fault) : Parse Unit := do
  let s ← get
  if s.strict && e.name?.any Word.isRestricted then refuseLine restricted
  if !s.isTarget then refuseLine .invalidTarget

/-- An expression with an updating operator in front of it or behind it. -/
def update (d : Deeper) : Parse Node := do
  let start ← here
  match ← updateOp? with
  | some op =>
    let _ ← advance
    let e ← inherit (d.parse .unary)
    checkUpdated e .strictPrefix
    markValue
    return .update (← spanFrom start) op true e
  | none =>
    let e ← inherit (callOrMember d)
    if (← get).afterNewline then return e
    match ← updateOp? with
    | some op =>
      checkUpdated e .strictPostfix
      markValue
      let _ ← advance
      return .update (← spanFrom start) op false e
    | none => return e

/-- The operator with one operand that stands here. -/
def unaryOp? : Parse (Option UnaryOp) := do
  match (← token).kind with
  | .punctuator (.operator .plus) => return some .plus
  | .punctuator (.operator .minus) => return some .minus
  | .punctuator .tilde => return some .complement
  | .punctuator .bang => return some .not
  | .keyword .delete => return some .delete
  | .keyword .void => return some .void
  | .keyword .typeof => return some .typeof
  | _ => return none

/-- An expression with an operator in front of it. -/
def unary (d : Deeper) : Parse Node := do
  let start ← here
  match ← unaryOp? with
  | some op =>
    let _ ← advance
    let e ← inherit (d.parse .unary)
    if (← get).strict && op = .delete && e.isIdentifier then refuseLine .strictDelete
    markValue
    return .unary (← spanFrom start) op e
  | none =>
    if (← get).allowAwait && (← isAtName Word.await) then
      let _ ← advance
      let e ← d.parse .unary
      return .await (← spanFrom start) e
    else update d

/-- A power: the right operand is read first, and the left one has no operator in front of it. -/
def power (d : Deeper) : Parse Node := do
  let start ← here
  let left ← inherit (unary d)
  match left with
  | .unary .. => return left
  | _ =>
    if ← accept (.operator .power) then
      markValue
      let right ← isolate (d.parse .power)
      return .binary (← spanFrom start) .power left right
    else return left

/-- A left operand that waits for its right one, with the offset at which it starts. -/
structure Pending where
  start : Nat
  left : Node
  op : BinaryOp
deriving Inhabited

/-- The binary operator that stands here. -/
def binaryOp? : Parse (Option BinaryOp) := do
  let s ← get
  match s.token.kind with
  | .punctuator (.operator op) => return if op.strength = 0 then none else some op
  | .keyword .instanceof => return some .instanceof
  | .keyword .in_ => return if s.allowIn then some .in_ else none
  | _ => return none

/-- Completes the waiting operations that bind at least as strongly as `strength`; the operand
starts at the given offset, and the last token read ends at `stop`. -/
def reduce (strength stop : Nat) : List Pending → Nat → Node → List Pending × Nat × Node
  | [], start, operand => ([], start, operand)
  | top :: waiting, start, operand =>
    if strength ≤ top.op.strength then
      reduce strength stop waiting top.start (.binary ⟨top.start, stop⟩ top.op top.left operand)
    else (top :: waiting, start, operand)

/-- Operations with two operands, grouped by the strength of their operators, equal strength from
the left. -/
def binary (d : Deeper) : Parse Node := do
  let start ← here
  let first ← inherit (power d)
  match ← binaryOp? with
  | none => return first
  | some op =>
    let _ ← advance
    markValue
    let second ← here
    let right ← isolate (power d)
    iterate
      (fun (waiting, start, operand) => do
        let stop := (← get).last.index
        match ← binaryOp? with
        | none => return .inr (reduce 0 stop waiting start operand).2.2
        | some op =>
          let (waiting, start, operand) := reduce op.strength stop waiting start operand
          let _ ← advance
          let next ← here
          let right ← isolate (power d)
          return .inl (⟨start, operand, op⟩ :: waiting, next, right))
      d.bound ([⟨start, first, op⟩], second, right)

/-- A choice between two expressions. -/
def conditional (d : Deeper) : Parse Node := do
  let start ← here
  let test ← inherit (binary d)
  if ← accept .question then
    let allowIn := (← get).allowIn
    modifyContext fun c => { c with allowIn := true }
    let consequent ← isolate (d.parse .assignment)
    modifyContext fun c => { c with allowIn }
    expect .colon
    let alternate ← isolate (d.parse .assignment)
    markValue
    return .conditional (← spanFrom start) test consequent alternate
  else return test

/-! ## Arrow functions -/

/-- The parameters an expression in front of `=>` stands for, and whether the function is
asynchronous; none if it stands for no parameters. -/
def arrowFormals (e : Node) : Parse (Option (Parameters × Bool)) := do
  match e with
  | .identifier .. => formals false [e]
  | .arrowParameters isAsync params => formals isAsync params
  | _ => return none
where
  /-- The parameter an element of the list stands for: `yield` as a default is a name. -/
  formal (isAsync : Bool) (param : Node) : Parse Node := do
    match param with
    | .assignmentPattern s left (.yield t _ argument) =>
      if argument.isSome then refuseToken
      return .assignmentPattern s left (.identifier t Keyword.yield.text)
    | .identifier _ name =>
      if isAsync && name = Word.await then refuseToken
      return param
    | _ => return param
  /-- Checks all parameters. -/
  formals (isAsync : Bool) (params : List Node) : Parse (Option (Parameters × Bool)) := do
    let params ← params.mapM (formal isAsync)
    let s ← get
    let names := (params.flatMap Node.boundNames).foldl
      (fun (n : Names) name => n.add s.strict name .here) {}
    if s.strict || !s.allowYield then
      if params.any fun | .yield .. => true | _ => false then refuseToken
    if names.cause = some .strictDuplicateParameter then refuseHere .strictDuplicateParameter
    return some (⟨params, names⟩, isAsync)

/-- The rest of an arrow function behind its parameters. -/
def arrowRest (d : Deeper) (start : Nat) (ps : Parameters) (isAsync : Bool) : Parse Node := do
  if (← get).afterNewline then refuseToken
  modifyContext fun c => { c with coverInit := none }
  let c := (← get).toContext
  modifyContext fun c => { c with allowYield := true, allowAwait := isAsync }
  let body ← bodyFor ps do
    expect .arrow
    if ← isAt .leftBrace then
      let allowIn := (← get).allowIn
      modifyContext fun c => { c with allowIn := true }
      let body ← functionBody d
      modifyContext fun c => { c with allowIn }
      return body
    else isolate (d.parse .assignment)
  let node := Node.arrow (← spanFrom start) isAsync ps.params body
  modifyContext fun c' => { c' with allowYield := c.allowYield, allowAwait := c.allowAwait }
  return node

/-! ## Assignments -/

/-- Whether an operand of `yield` can start here. -/
def isAtOperand : Parse Bool := do
  match (← token).kind with
  | .punctuator p =>
    return p ∈ [.leftBracket, .leftParen, .leftBrace, .operator .plus, .operator .minus, .bang,
      .tilde, .increment, .decrement, .operator .divide, .assign (some .divide)]
  | .keyword k =>
    return k ∈ [.class_, .delete, .function, .let_, .new, .super, .this, .typeof, .void, .yield]
  | _ => return true

/-- A `yield` in a generator. -/
def yieldExpression (d : Deeper) : Parse Node := do
  let start ← here
  expectKeyword .yield
  if (← get).afterNewline then return .yield (← spanFrom start) false none
  let allowYield := (← get).allowYield
  modifyContext fun c => { c with allowYield := false }
  let delegate ← accept (.operator .times)
  let argument ←
    if delegate || (← isAtOperand) then pure (some (← d.parse .assignment)) else pure none
  modifyContext fun c => { c with allowYield }
  return .yield (← spanFrom start) delegate argument

/-- The rest of an assignment behind its target. -/
def assignmentRest (d : Deeper) (first : Token) (op : Option BinaryOp) (target : Node) :
    Parse Node := do
  let s ← get
  if !s.isTarget then refuseLine .invalidTarget
  if s.strict then
    if let some name := target.name? then
      if Word.isRestricted name then refuseFor first .strictAssignment
      if Word.isStrictReserved name then refuseFor first .strictReservedWord
  if op.isSome then markValue
  let _ ← advance
  let right ← isolate (d.parse .assignment)
  let left := if op.isNone then target.asPattern else target
  let node := Node.assignment (← spanFrom first.span.start) op left right
  modifyContext fun c => { c with coverInit := none }
  return node

/-- The single parameter of an asynchronous arrow function, behind the `async` in front of it. -/
def asyncParameter (d : Deeper) (first : Token) (e : Node) : Parse Node := do
  let t ← token
  if first.isNamed Word.async && first.line = t.line then
    match t.kind with
    | .identifier _ | .keyword .yield => return .arrowParameters true [(← primary d).asPattern]
    | _ => return e
  else return e

/-- An assignment, an arrow function, or an expression without either. -/
def assignment (d : Deeper) : Parse Node := do
  if !(← get).allowYield && (← isAtKeyword .yield) then yieldExpression d
  else
    let first ← token
    let e ← asyncParameter d first (← conditional d)
    let isList := match e with
      | .arrowParameters .. => true
      | _ => false
    if isList || (← isAt .arrow) then
      markValue
      match ← arrowFormals e with
      | some (ps, isAsync) => arrowRest d first.span.start ps isAsync
      | none => return e
    else
      match (← token).kind with
      | .punctuator (.assign op) => assignmentRest d first op e
      | _ => return e

end Parse
end Elementwise
