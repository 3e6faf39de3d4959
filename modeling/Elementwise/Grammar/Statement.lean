import Elementwise.Grammar.Expression

/-!
# Statements

Declarations and statements.  The labels around a statement, and whether it lies in a loop or a
switch, are kept in the context and end at the body of a function.
-/

set_option autoImplicit false
namespace Elementwise
namespace Parse

/-! ## Blocks and simple statements -/

/-- Statements in braces. -/
def block (d : Deeper) : Parse Node := do
  let start ← here
  expect .leftBrace
  let body ← collect
    (do if ← isAt .rightBrace then return none else return some (← d.parse .item))
    d.bound
  expect .rightBrace
  return .block (← spanFrom start) body

/-- A statement that consists of an expression. -/
def expressionStatement (d : Deeper) : Parse Node := do
  let start ← here
  let e ← expression d
  endStatement
  return .expression (← spanFrom start) e none

/-- The statement that does nothing. -/
def emptyStatement : Parse Node := do
  let start ← here
  expect .semicolon
  return .empty (← spanFrom start)

/-- A statement that halts a debugger. -/
def debuggerStatement : Parse Node := do
  let start ← here
  expectKeyword .debugger
  endStatement
  return .debugger (← spanFrom start)

/-- An expression in parentheses, behind the keyword of a statement. -/
def condition (d : Deeper) : Parse Node := do
  expect .leftParen
  let e ← expression d
  expect .rightParen
  return e

/-! ## Declarations -/

/-- Refuses a variable that strict code cannot bind. -/
def checkVariable (id : Node) : Parse Unit := do
  if (← get).strict && id.name?.any Word.isRestricted then refuseLine .strictVariable

/-- What follows `=`. -/
def initializer (d : Deeper) : Parse (Option Node) := do
  return some (← isolate (d.parse .assignment))

/-- A variable of a `let` or `const` declaration. -/
def lexicalBinding (d : Deeper) (kind : VariableKind) (inFor : Bool) : Parse Node := do
  let start ← here
  let (id, _) ← bindingPattern d (some kind)
  checkVariable id
  let init ←
    if kind = .constant then do
      if (← isAtKeyword .in_) || (← isAtName Word.of) then pure none
      else if ← accept (.assign none) then initializer d
      else refuseHere .missingConstInitializer
    else if (!inFor && !id.isIdentifier) || (← isAt (.assign none)) then do
      expect (.assign none)
      initializer d
    else pure none
  return .declarator (← spanFrom start) id init

/-- A variable of a `var` declaration. -/
def variableBinding (d : Deeper) (inFor : Bool) : Parse Node := do
  let start ← here
  let (id, _) ← bindingPattern d (some .variable)
  checkVariable id
  let init ←
    if ← accept (.assign none) then initializer d
    else if !id.isIdentifier && !inFor then do
      expect (.assign none)
      pure none
    else pure none
  return .declarator (← spanFrom start) id init

/-- Bindings separated by commas. -/
def bindings (d : Deeper) (binding : Parse Node) : Parse (List Node) := do
  let first ← binding
  let others ← collect
    (do if ← accept .comma then return some (← binding) else return none)
    d.bound
  return first :: others

/-- A `var` declaration. -/
def variableStatement (d : Deeper) : Parse Node := do
  let start ← here
  expectKeyword .var
  let declarations ← bindings d (variableBinding d false)
  endStatement
  return .declaration (← spanFrom start) .variable declarations

/-- A `let` or `const` declaration. -/
def lexicalDeclaration (d : Deeper) (kind : VariableKind) : Parse Node := do
  let start ← here
  let _ ← advance
  let declarations ← bindings d (lexicalBinding d kind false)
  endStatement
  return .declaration (← spanFrom start) kind declarations

/-- Whether the `let` that stands here begins a declaration. -/
def isAtLexicalDeclaration : Parse Bool := do
  match (← peek).kind with
  | .identifier _ | .punctuator .leftBracket | .punctuator .leftBrace
  | .keyword .let_ | .keyword .yield => return true
  | _ => return false

/-! ## Branches -/

/-- A branch of a conditional statement. -/
def branch (d : Deeper) : Parse Node := do
  if (← get).strict && (← isAtKeyword .function) then refuseLine .strictFunction
  d.parse .statement

/-- A conditional statement. -/
def ifStatement (d : Deeper) : Parse Node := do
  let start ← here
  expectKeyword .if_
  let test ← condition d
  let consequent ← branch d
  let alternate ← if ← acceptKeyword .else_ then pure (some (← branch d)) else pure none
  return .ifElse (← spanFrom start) test consequent alternate

/-- A case of a switch, and whether it is the default. -/
def switchCase (d : Deeper) : Parse (Node × Bool) := do
  let start ← here
  let test ←
    if ← acceptKeyword .default_ then pure none
    else do
      expectKeyword .case_
      pure (some (← expression d))
  expect .colon
  let consequent ← collect
    (do
      if (← isAt .rightBrace) || (← isAtKeyword .default_) || (← isAtKeyword .case_) then
        return none
      else return some (← d.parse .item))
    d.bound
  return (.switchCase (← spanFrom start) test consequent, test.isNone)

/-- A switch. -/
def switchStatement (d : Deeper) : Parse Node := do
  let start ← here
  expectKeyword .switch
  let discriminant ← condition d
  let inSwitch := (← get).inSwitch
  modifyContext fun c => { c with inSwitch := true }
  expect .leftBrace
  let cases ← iterate
    (fun (cases, hasDefault) => do
      if ← isAt .rightBrace then return .inr (List.reverse cases)
      else
        let (clause, isDefault) ← switchCase d
        if isDefault && hasDefault then refuseHere .duplicateDefault
        return .inl (clause :: cases, hasDefault || isDefault))
    d.bound ([], false)
  expect .rightBrace
  modifyContext fun c => { c with inSwitch }
  return .switch (← spanFrom start) discriminant cases

/-! ## Loops -/

/-- The body of a loop. -/
def loopBody (body : Parse Node) : Parse Node := do
  let inLoop := (← get).inLoop
  modifyContext fun c => { c with inLoop := true }
  let node ← body
  modifyContext fun c => { c with inLoop }
  return node

/-- A loop that tests behind its body. -/
def doWhileStatement (d : Deeper) : Parse Node := do
  let start ← here
  expectKeyword .do_
  let body ← loopBody (d.parse .statement)
  expectKeyword .while_
  let test ← condition d
  let _ ← accept .semicolon
  return .doWhile (← spanFrom start) body test

/-- A loop that tests in front of its body. -/
def whileStatement (d : Deeper) : Parse Node := do
  let start ← here
  expectKeyword .while_
  let test ← condition d
  let body ← loopBody (d.parse .statement)
  return .whileDo (← spanFrom start) test body

/-- What the parentheses of a `for` loop hold. -/
inductive ForHead where
  | counting (init test update : Option Node)
  | inKeys (left right : Node)
  | ofValues (left right : Node)

/-- Parses without `in` as an operator. -/
def withoutIn {α : Type} (p : Parse α) : Parse α := do
  let allowIn := (← get).allowIn
  modifyContext fun c => { c with allowIn := false }
  let a ← p
  modifyContext fun c => { c with allowIn }
  return a

/-- The rest of an iterating loop's head, behind `in`. -/
def inKeys (d : Deeper) (left : Node) : Parse ForHead := do
  let _ ← advance
  return .inKeys left (← expression d)

/-- The rest of an iterating loop's head, behind `of`. -/
def ofValues (d : Deeper) (left : Node) : Parse ForHead := do
  let _ ← advance
  return .ofValues left (← d.parse .assignment)

/-- Test and update of a counting loop. -/
def counting (d : Deeper) (init : Option Node) : Parse ForHead := do
  let test ← if ← isAt .semicolon then pure none else pure (some (← expression d))
  expect .semicolon
  let update ← if ← isAt .rightParen then pure none else pure (some (← expression d))
  return .counting init test update

/-- Whether declarations are a single one without a value. -/
def isPlainTarget : List Node → Bool
  | [.declarator _ _ none] => true
  | _ => false

/-- Refuses a value for the variable of an iterating loop, which only a plain name in sloppy code
may have. -/
def checkLoopInitializer : List Node → Parse Unit
  | [.declarator _ id (some _)] => do
    if !id.isIdentifier || (← get).strict then refuseLine .loopInitializer
  | _ => pure ()

/-- A loop head that declares its variable with `var`. -/
def forVariables (d : Deeper) : Parse ForHead := do
  let start ← here
  let _ ← advance
  let declarations ← withoutIn (bindings d (variableBinding d true))
  if declarations.length = 1 && (← isAtKeyword .in_) then
    checkLoopInitializer declarations
    inKeys d (.declaration (← spanFrom start) .variable declarations)
  else if isPlainTarget declarations && (← isAtName Word.of) then
    ofValues d (.declaration (← spanFrom start) .variable declarations)
  else
    let init := Node.declaration (← spanFrom start) .variable declarations
    expect .semicolon
    counting d (some init)

/-- A loop head that declares its variable with `let` or `const`. -/
def forLexical (d : Deeper) (kind : VariableKind) : Parse ForHead := do
  let start ← here
  let word ← advance
  let s ← get
  if !s.strict && s.token.text = Keyword.in_.text then
    inKeys d (.identifier (← spanFrom start) word.text)
  else
    let declarations ← withoutIn (bindings d (lexicalBinding d kind true))
    if isPlainTarget declarations && (← isAtKeyword .in_) then
      inKeys d (.declaration (← spanFrom start) kind declarations)
    else if isPlainTarget declarations && (← isAtName Word.of) then
      ofValues d (.declaration (← spanFrom start) kind declarations)
    else
      endStatement
      let init := Node.declaration (← spanFrom start) kind declarations
      counting d (some init)

/-- Whether an expression cannot be the target of an iterating loop. -/
def isBadTarget (e : Node) : Parse Bool := do
  match e with
  | .assignment .. => return true
  | _ => return !(← get).isTarget

/-- A loop head that begins with an expression. -/
def forExpression (d : Deeper) : Parse ForHead := do
  let start ← here
  let first ← withoutIn (inherit (d.parse .assignment))
  if ← isAtKeyword .in_ then
    if ← isBadTarget first then refuseLine .invalidForInTarget
    inKeys d first.asPattern
  else if ← isAtName Word.of then
    if ← isBadTarget first then refuseLine .invalidForOfTarget
    ofValues d first.asPattern
  else
    let init ←
      if ← isAt .comma then do
        let others ← collect
          (do if ← accept .comma then initializer d else return none)
          d.bound
        pure (Node.sequence (← spanFrom start) (first :: others))
      else pure first
    expect .semicolon
    counting d (some init)

/-- A `for` loop. -/
def forStatement (d : Deeper) : Parse Node := do
  let start ← here
  expectKeyword .for_
  expect .leftParen
  let head ←
    if ← accept .semicolon then counting d none
    else if ← isAtKeyword .var then forVariables d
    else if ← isAtKeyword .const_ then forLexical d .constant
    else if ← isAtKeyword .let_ then forLexical d .lexical
    else forExpression d
  expect .rightParen
  let body ← loopBody (isolate (d.parse .statement))
  let span ← spanFrom start
  match head with
  | .counting init test update => return .loop span init test update body
  | .inKeys left right => return .forIn span left right body
  | .ofValues left right => return .forOf span left right body

/-! ## Jumps -/

/-- The label behind `break` or `continue`, which must be one around the statement. -/
def jumpLabel : Parse (Option Node) := do
  let s ← get
  match s.token.kind with
  | .identifier name =>
    if s.afterNewline then return none
    let label ← bindingIdentifier none
    if name ∉ s.labels then refuseHere (.undefinedLabel name)
    return some label
  | _ => return none

/-- A `continue` statement. -/
def continueStatement : Parse Node := do
  let start ← here
  expectKeyword .continue_
  let label ← jumpLabel
  endStatement
  if label.isNone && !(← get).inLoop then refuseHere .illegalContinue
  return .continueTo (← spanFrom start) label

/-- A `break` statement. -/
def breakStatement : Parse Node := do
  let start ← here
  expectKeyword .break_
  let label ← jumpLabel
  endStatement
  let s ← get
  if label.isNone && !s.inLoop && !s.inSwitch then refuseHere .illegalBreak
  return .breakTo (← spanFrom start) label

/-- Whether a `return` has a value: a string or template belongs to it even on the next line. -/
def hasReturnValue : Parse Bool := do
  let s ← get
  match s.token.kind with
  | .string .. | .template .. => return true
  | .punctuator .semicolon | .punctuator .rightBrace | .endOfText => return false
  | _ => return !s.afterNewline

/-- A `return` statement. -/
def returnStatement (d : Deeper) : Parse Node := do
  if !(← get).inFunction then refuseLine .illegalReturn
  let start ← here
  expectKeyword .return_
  let argument ← if ← hasReturnValue then pure (some (← expression d)) else pure none
  endStatement
  return .returning (← spanFrom start) argument

/-- A `throw` statement. -/
def throwStatement (d : Deeper) : Parse Node := do
  let start ← here
  expectKeyword .throw
  if (← get).afterNewline then refuseHere .newlineAfterThrow
  let argument ← expression d
  endStatement
  return .throwing (← spanFrom start) argument

/-! ## Other compound statements -/

/-- A `with` statement. -/
def withStatement (d : Deeper) : Parse Node := do
  if (← get).strict then refuseLine .strictWith
  let start ← here
  expectKeyword .with_
  let object ← condition d
  let body ← d.parse .statement
  return .withObject (← spanFrom start) object body

/-- The first name that occurs a second time. -/
def firstRepeated : List Text → List Text → Option Text
  | _, [] => none
  | seen, name :: names =>
    if name ∈ seen then some name else firstRepeated (name :: seen) names

/-- The handler of a `try` statement. -/
def catchClause (d : Deeper) : Parse Node := do
  let start ← here
  expectKeyword .catch_
  expect .leftParen
  if ← isAt .rightParen then refuseToken
  let (param, names) ← bindingPattern d none
  if let some name := firstRepeated [] (names.map Token.text) then
    refuseLine (.duplicateBinding name)
  if (← get).strict && param.name?.any Word.isRestricted then refuseLine .strictCatch
  expect .rightParen
  let body ← block d
  return .catching (← spanFrom start) param body

/-- A `try` statement. -/
def tryStatement (d : Deeper) : Parse Node := do
  let start ← here
  expectKeyword .try_
  let body ← block d
  let handler ← if ← isAtKeyword .catch_ then pure (some (← catchClause d)) else pure none
  let finalizer ← if ← acceptKeyword .finally_ then pure (some (← block d)) else pure none
  if handler.isNone && finalizer.isNone then refuseHere .missingHandler
  return .trying (← spanFrom start) body handler finalizer

/-- A statement behind a label. -/
def labeledBody (d : Deeper) : Parse Node := do
  if ← isAtKeyword .class_ then refuseToken
  else if ← isAtKeyword .function then
    let t ← token
    let declaration ← functionDeclaration d
    if (← get).strict then refuseFor t .strictFunction
    if declaration.isGenerator then refuseFor t .generatorInLegacyContext
    return declaration
  else d.parse .statement

/-- A statement that begins with an identifier: an expression, or a label with a statement. -/
def labeledStatement (d : Deeper) : Parse Node := do
  let start ← here
  let e ← expression d
  match e with
  | .identifier _ name =>
    if ← accept .colon then
      let labels := (← get).labels
      if name ∈ labels then refuseHere (.duplicateLabel name)
      modifyContext fun c => { c with labels := name :: labels }
      let body ← labeledBody d
      modifyContext fun c => { c with labels }
      return .labeled (← spanFrom start) e body
    else
      endStatement
      return .expression (← spanFrom start) e none
  | _ =>
    endStatement
    return .expression (← spanFrom start) e none

/-! ## Dispatch -/

/-- A statement. -/
def statement (d : Deeper) : Parse Node := do
  match (← token).kind with
  | .endOfText => refuseToken
  | .punctuator .leftBrace => block d
  | .punctuator .semicolon => emptyStatement
  | .identifier _ =>
    if ← isAtAsyncFunction then functionDeclaration d else labeledStatement d
  | .keyword .break_ => breakStatement
  | .keyword .continue_ => continueStatement
  | .keyword .debugger => debuggerStatement
  | .keyword .do_ => doWhileStatement d
  | .keyword .for_ => forStatement d
  | .keyword .function => functionDeclaration d
  | .keyword .if_ => ifStatement d
  | .keyword .return_ => returnStatement d
  | .keyword .switch => switchStatement d
  | .keyword .throw => throwStatement d
  | .keyword .try_ => tryStatement d
  | .keyword .var => variableStatement d
  | .keyword .while_ => whileStatement d
  | .keyword .with_ => withStatement d
  | _ => expressionStatement d

/-- A statement or a declaration. -/
def item (d : Deeper) : Parse Node := do
  modifyContext fun c => { c with isTarget := true, isBinding := true }
  match (← token).kind with
  | .keyword .export_ => refuseFor (← token) .unexpectedSomething
  | .keyword .import_ =>
    if ← isAtImportCall then expressionStatement d
    else refuseFor (← token) .unexpectedSomething
  | .keyword .const_ => lexicalDeclaration d .constant
  | .keyword .function => functionDeclaration d
  | .keyword .class_ => classDeclaration d
  | .keyword .let_ =>
    if ← isAtLexicalDeclaration then lexicalDeclaration d .lexical else statement d
  | _ => statement d

end Parse
end Elementwise
