import Elementwise.Grammar.Function

/-!
# Classes

Class members and bodies, and classes as declarations and expressions.  All of a class is strict
code.
-/

set_option autoImplicit false
namespace Elementwise
namespace Parse

/-- What has been read in front of a class member's parameter list. -/
structure MemberHead where
  /-- The token that may be a word with a meaning in front of a key. -/
  token : Token
  key : Option Node
  computed : Bool
  isStatic : Bool
  isAsync : Bool
deriving Inhabited

/-- Whether `async`, which was read as a key, is one, as its next token tells. -/
def isKeyEnd (t : Token) : Bool :=
  t.text = Punctuator.colon.text || t.text = Punctuator.leftParen.text ||
  t.text = (Punctuator.operator .times).text

/-- The words in front of a class member, and its key unless one of these words is followed by
another key. -/
def memberHead (d : Deeper) : Parse MemberHead := do
  let first ← token
  if ← accept (.operator .times) then return ⟨first, none, false, false, false⟩
  let computed ← isAt .leftBracket
  let key ← propertyKey d
  let t ← token
  let head : MemberHead ←
    if key.name? = some Keyword.static.text &&
      (t.startsKey || t.kind = .punctuator (.operator .times))
    then do
      let computed ← isAt .leftBracket
      if ← accept (.operator .times) then pure ⟨t, some key, computed, true, false⟩
      else pure ⟨t, some (← propertyKey d), computed, true, false⟩
    else pure ⟨first, some key, computed, false, false⟩
  let s ← get
  if head.token.isNamed Word.async && !s.afterNewline && !isKeyEnd s.token then
    let t := s.token
    let key ← propertyKey d
    if t.isNamed Word.constructor then refuseFor t .constructorAsync
    return { head with token := t, key := some key, isAsync := true }
  else return head

/-- A class member.  `hasConstructor` says whether the class has a constructor already; the result
says whether it has one now. -/
def classMember (d : Deeper) (hasConstructor : Bool) : Parse (Node × Bool) := do
  let start ← here
  let head ← memberHead d
  let next ← token
  let (kind?, computed, key, value) : Option MemberKind × Bool × Option Node × Node ←
    if head.token.isNamed Word.get && next.startsKey then do
      let computed ← isAt .leftBracket
      let key ← propertyKey d
      modifyContext fun c => { c with allowYield := false }
      pure (some .getter, computed, some key, ← getter d)
    else if head.token.isNamed Word.set && next.startsKey then do
      let computed ← isAt .leftBracket
      let key ← propertyKey d
      pure (some .setter, computed, some key, ← setter d)
    else if head.token.kind = .punctuator (.operator .times) && next.startsKey then do
      let computed ← isAt .leftBracket
      let key ← propertyKey d
      pure (some .method, computed, some key, ← method d .generator fun _ => pure ())
    else if head.key.isSome && next.kind = .punctuator .leftParen then do
      let value ←
        if head.isAsync then method d .asynchronous fun _ => pure () else plainMethod d
      pure (some .method, head.computed, head.key, value)
    else pure (none, head.computed, head.key, .hole)
  match kind?, key with
  | some kind, some key =>
    if !computed && head.isStatic && key.isKey Word.prototype then
      refuseFor head.token .staticPrototype
    if !computed && !head.isStatic && key.isKey Word.constructor then
      if kind ≠ .method || value.isGenerator then refuseFor head.token .constructorAccessor
      if hasConstructor then refuseFor head.token .duplicateConstructor
      return (.classMember (← spanFrom start) .constructor head.isStatic computed key value, true)
    return (.classMember (← spanFrom start) kind head.isStatic computed key value, hasConstructor)
  | _, _ => refuseToken

/-- The members of a class in braces. -/
def classBody (d : Deeper) : Parse Node := do
  let start ← here
  expect .leftBrace
  let members ← iterate
    (fun (members, hasConstructor) => do
      if ← isAt .rightBrace then return .inr (List.reverse members)
      else if ← accept .semicolon then return .inl (members, hasConstructor)
      else
        let (member, hasConstructor) ← classMember d hasConstructor
        return .inl (member :: members, hasConstructor))
    d.bound ([], false)
  expect .rightBrace
  return .classBody (← spanFrom start) members

/-- A class; `name` reads its name, if it has one. -/
def class_ (d : Deeper) (isDeclaration : Bool) (name : Parse (Option Node)) : Parse Node := do
  let start ← here
  let strict := (← get).strict
  modifyContext fun c => { c with strict := true }
  expectKeyword .class_
  let id ← name
  let superClass ←
    if ← acceptKeyword .extends_ then pure (some (← isolate (d.parse .call))) else pure none
  let body ← classBody d
  modifyContext fun c => { c with strict }
  return .class_ (← spanFrom start) isDeclaration id superClass body

/-- A class declaration. -/
def classDeclaration (d : Deeper) : Parse Node :=
  class_ d true (do return some (← bindingIdentifier none))

/-- A class expression, whose name may be absent. -/
def classExpression (d : Deeper) : Parse Node :=
  class_ d false do
    match (← token).kind with
    | .identifier _ => return some (← bindingIdentifier none)
    | _ => return none

end Parse
end Elementwise
