import Elementwise.Grammar.State

/-!
# Names that are bound

Property keys, and the patterns of declarations and parameters.  A pattern is read together with
the tokens of the names it binds, from left to right, because faults of parameters blame these
tokens.
-/

set_option autoImplicit false
namespace Elementwise
namespace Parse

/-- A property key: a word, a string, a number, or an expression in brackets. -/
def propertyKey (d : Deeper) : Parse Node := do
  let start ← here
  let t ← advance
  let strict := (← get).strict
  match t.kind with
  | .string value _ octal =>
    if strict && octal then refuseFor t .strictOctal
    return .literal (← spanFrom start) (.string value)
  | .number value octal =>
    if strict && octal then refuseFor t .strictOctal
    return .literal (← spanFrom start) (.number value)
  | .punctuator .leftBracket =>
    let key ← isolate (d.parse .assignment)
    expect .rightBracket
    return key
  | _ =>
    if t.isWord then return .identifier (← spanFrom start) t.text else refuse t

/-- A name that is bound or referred to.  Only a variable declared in sloppy code may have the text
`let`, however that is written. -/
def bindingIdentifier (kind : Option VariableKind) : Parse Node := do
  let start ← here
  let t ← advance
  let s ← get
  match t.kind with
  | .keyword .yield =>
    if s.strict then refuseFor t .strictReservedWord
    if !s.allowYield then refuse t
  | .identifier name =>
    if s.allowAwait && name = Word.await then refuse t
  | .keyword k =>
    if s.strict && k.isStrictReserved then refuseFor t .strictReservedWord
    if s.strict || k ≠ .let_ || kind ≠ some .variable then refuse t
  | _ =>
    if s.strict || t.text ≠ Keyword.let_.text || kind ≠ some .variable then refuse t
  return .identifier (← spanFrom start) t.text

/-- A pattern with the tokens of the names it binds. -/
abbrev Bound := Node × List Token

/-- A pattern with an optional default value behind it. -/
def withDefault (d : Deeper) (pattern : Parse Bound) : Parse Bound := do
  let start ← here
  let (left, names) ← pattern
  if ← accept (.assign none) then
    let allowYield := (← get).allowYield
    modifyContext fun c => { c with allowYield := true }
    let right ← isolate (d.parse .assignment)
    modifyContext fun c => { c with allowYield }
    return (.assignmentPattern (← spanFrom start) left right, names)
  else return (left, names)

/-- The elements of an array pattern, behind its opening bracket. -/
def arrayPatternElements (d : Deeper) (pattern : Parse Bound) :
    Parse (List Node × List Token) :=
  iterate
    (fun (nodes, names) => do
      if ← isAt .rightBracket then return .inr (nodes.reverse, names)
      else if ← accept .comma then return .inl (.hole :: nodes, names)
      else if ← isAt .ellipsis then
        let start ← here
        expect .ellipsis
        let (argument, more) ← pattern
        let element := Node.rest (← spanFrom start) argument
        return .inr ((element :: nodes).reverse, names ++ more)
      else
        let (element, more) ← withDefault d pattern
        unless ← isAt .rightBracket do expect .comma
        return .inl (element :: nodes, names ++ more))
    d.bound ([], [])

/-- A property of an object pattern. -/
def propertyPattern (d : Deeper) (pattern : Parse Bound) : Parse Bound := do
  let start ← here
  let t ← token
  match t.kind with
  | .identifier name =>
    let key ← bindingIdentifier none
    let target := Node.identifier (← spanFrom start) name
    if ← accept (.assign none) then
      let init ← d.parse .assignment
      let value := Node.assignmentPattern (← spanFrom t.span.start) target init
      return (.property (← spanFrom start) .value false false true key value, [t])
    else if ← accept .colon then
      let (value, names) ← withDefault d pattern
      return (.property (← spanFrom start) .value false false false key value, names)
    else
      return (.property (← spanFrom start) .value false false true key target, [t])
  | _ =>
    let computed ← isAt .leftBracket
    let key ← propertyKey d
    expect .colon
    let (value, names) ← withDefault d pattern
    return (.property (← spanFrom start) .value computed false false key value, names)

/-- The rest of an object, which its pattern has last. -/
def restProperty (pattern : Parse Bound) : Parse Bound := do
  let start ← here
  expect .ellipsis
  let (argument, names) ← pattern
  if ← isAt (.assign none) then refuseHere (.unexpected (Punctuator.assign none).text)
  unless ← isAt .rightBrace do refuseHere .unexpectedSomething
  return (.rest (← spanFrom start) argument, names)

/-- The properties of an object pattern, behind its opening brace. -/
def objectPatternProperties (d : Deeper) (pattern restPattern : Parse Bound) :
    Parse (List Node × List Token) :=
  iterate
    (fun (nodes, names) => do
      if ← isAt .rightBrace then return .inr (nodes.reverse, names)
      else
        let (property, more) ←
          if ← isAt .ellipsis then restProperty restPattern else propertyPattern d pattern
        unless ← isAt .rightBrace do expect .comma
        return .inl (property :: nodes, names ++ more))
    d.bound ([], [])

/-- A pattern nested at most as deep as the first argument says. -/
def pattern (d : Deeper) : Nat → Option VariableKind → Parse Bound
  | 0, _ => refuseHere .unexpectedEnd
  | depth + 1, kind => do
    let start ← here
    if ← accept .leftBracket then
      let (elements, names) ← arrayPatternElements d (pattern d depth kind)
      expect .rightBracket
      return (.arrayPattern (← spanFrom start) elements, names)
    else if ← accept .leftBrace then
      let (properties, names) ←
        objectPatternProperties d (pattern d depth kind) (pattern d depth none)
      expect .rightBrace
      return (.objectPattern (← spanFrom start) properties, names)
    else
      let t ← token
      if t.kind = .keyword .let_ && (kind = some .constant || kind = some .lexical) then
        refuseFor t .letBinding
      return (← bindingIdentifier kind, [t])

/-- A pattern of a declaration, or of parameters if no kind is given. -/
def bindingPattern (d : Deeper) (kind : Option VariableKind) : Parse Bound := pattern d d.bound kind

/-- The last element of a parameter list, which takes the remaining arguments. -/
def restParameter (d : Deeper) : Parse Bound := do
  let start ← here
  expect .ellipsis
  let (argument, names) ← bindingPattern d none
  if ← isAt (.assign none) then refuseHere (.unexpected (Punctuator.assign none).text)
  unless ← isAt .rightParen do refuseHere .restNotLast
  return (.rest (← spanFrom start) argument, names)

end Parse
end Elementwise
