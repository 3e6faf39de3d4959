import Elementwise.Syntax.Node
import Elementwise.Token.Lexer

/-!
# The state of a parse

The grammar looks one token ahead.  A `Parse.State` holds the reader of tokens, the token it looks
at, where that token starts and where the last consumed one ended, and what the grammar allows at
this point.  `Parse` is a computation on such states that may refuse the text.

## Positions of faults

A fault is reported in one of two ways.  `refuse` blames a token: the offset is the token's and the
line the one on which it ends, while the column counts from the line on which the last consumed
token ended.  `refuseHere` and `refuseLine` blame the end of the last consumed token, and differ in
the line they give: that of this end, or that of the token looked at.
-/

set_option autoImplicit false
namespace Elementwise
namespace Parse

/-- What the grammar allows where the parse stands. -/
structure Context where
  /-- Strict code. -/
  strict : Bool := false
  /-- `in` is an operator. -/
  allowIn : Bool := true
  /-- `yield` is a name in sloppy code. -/
  allowYield : Bool := true
  /-- `await` is an operator. -/
  allowAwait : Bool := false
  /-- A directive may make the function strict. -/
  allowStrictDirective : Bool := true
  inFunction : Bool := false
  inLoop : Bool := false
  inSwitch : Bool := false
  /-- The labels of the statements around this point. -/
  labels : List Text := []
  /-- What was read last can be assigned to. -/
  isTarget : Bool := false
  /-- What was read last can be a parameter. -/
  isBinding : Bool := false
  /-- The `=` behind a shorthand property, which is right in patterns only. -/
  coverInit : Option Token := none
deriving Inhabited

/-- The state of a parse. -/
structure State extends Context where
  /-- Stands behind the token looked at. -/
  reader : Reader
  /-- The token looked at. -/
  token : Token
  /-- Where the token looked at starts. -/
  tokenPlace : Place
  /-- The text from the start of the token looked at. -/
  tokenRest : Text
  /-- Whether the token looked at ends on another line than the token before it. -/
  afterNewline : Bool
  /-- The end of the last consumed token. -/
  last : Place
deriving Inhabited

end Parse

/-- A computation that consumes tokens and may refuse the text. -/
abbrev Parse := StateT Parse.State (Except ParseError)

namespace Parse

/-! ## Refusals -/

/-- The fault of a token in the wrong place. -/
def misplaced (strict : Bool) (t : Token) : Fault :=
  match t.kind with
  | .endOfText => .unexpectedEnd
  | .identifier _ => .unexpectedIdentifier
  | .number .. => .unexpectedNumber
  | .string .. => .unexpectedString
  | .template raw .. => .unexpectedTemplate raw
  | .keyword k =>
    if k.isFutureReserved then .reservedWord
    else if strict && k.isStrictReserved then .strictReservedWord
    else .unexpected t.text
  | _ => .unexpected t.text

/-- Refuses the text because of a token. -/
def refuseFor {α : Type} (t : Token) (cause : Fault) : Parse α := do
  let s ← get
  throw (.fault t.span.start t.line (s.last.columnOf t.span.start) cause)

/-- Refuses the text because a token stands in the wrong place. -/
def refuse {α : Type} (t : Token) : Parse α := do
  let s ← get
  refuseFor t (misplaced s.strict t)

/-- Refuses the text at the end of the last consumed token. -/
def refuseHere {α : Type} (cause : Fault) : Parse α := do
  let s ← get
  throw (s.last.fault cause)

/-- Refuses the text at the end of the last consumed token, giving the line of the token looked
at. -/
def refuseLine {α : Type} (cause : Fault) : Parse α := do
  let s ← get
  throw (.fault s.last.index s.reader.place.line s.last.column cause)

/-- Refuses the token looked at. -/
def refuseToken {α : Type} : Parse α := do refuse (← get).token

/-! ## Tokens -/

/-- A token as strict code sees it: more words are reserved. -/
def strictToken (t : Token) : Token :=
  match t.kind with
  | .identifier name =>
    match Keyword.ofText? name with
    | some k => if k.isStrictOnly then { t with kind := .keyword k } else t
    | none => t
  | _ => t

/-- The state behind the token looked at, which is consumed. -/
def State.next (s : State) : Except ParseError State :=
  match s.reader.skipSeparators with
  | .error e => .error e
  | .ok r =>
    match r.token with
    | .error e => .error e
    | .ok (t, r') =>
      .ok { s with
        last := s.reader.place
        tokenPlace := r.place
        tokenRest := r.rest
        token := if s.strict then strictToken t else t
        afterNewline := s.token.line != t.line
        reader := r' }

/-- Consumes the token looked at. -/
def advance : Parse Token := do
  let s ← get
  match s.next with
  | .ok s' => set s'; return s.token
  | .error e => throw e

/-- The token behind the one looked at.  Reading it leaves its mark on the open braces. -/
def peek : Parse Token := do
  let s ← get
  match s.reader.peek with
  | .ok (t, braces) =>
    set { s with reader := { s.reader with braces } }
    return t
  | .error e => throw e

/-- The token looked at. -/
def token : Parse Token := return (← get).token

/-- Whether the token looked at is a given punctuator. -/
def isAt (p : Punctuator) : Parse Bool := return (← get).token.kind = .punctuator p

/-- Whether the token looked at is a given keyword. -/
def isAtKeyword (k : Keyword) : Parse Bool := return (← get).token.kind = .keyword k

/-- Whether the token looked at is an identifier of a given name. -/
def isAtName (name : Text) : Parse Bool := return (← get).token.isNamed name

/-- Whether the text ends here. -/
def isAtEnd : Parse Bool := return (← get).token.kind = .endOfText

/-- Consumes a punctuator that must stand here. -/
def expect (p : Punctuator) : Parse Unit := do
  let t ← advance
  if t.kind ≠ .punctuator p then refuse t

/-- Consumes a keyword that must stand here. -/
def expectKeyword (k : Keyword) : Parse Unit := do
  let t ← advance
  if t.kind ≠ .keyword k then refuse t

/-- Consumes a punctuator if it stands here. -/
def accept (p : Punctuator) : Parse Bool := do
  if ← isAt p then
    let _ ← advance
    return true
  else return false

/-- Consumes a keyword if it stands here. -/
def acceptKeyword (k : Keyword) : Parse Bool := do
  if ← isAtKeyword k then
    let _ ← advance
    return true
  else return false

/-- Ends a statement.  Without a semicolon it ends at a line break, before a closing brace and at
the end of the text; in the last two cases it covers what separates it from the next token. -/
def endStatement : Parse Unit := do
  if ← isAt .semicolon then
    let _ ← advance
  else
    let s ← get
    unless s.afterNewline do
      if s.token.kind ≠ .endOfText ∧ s.token.kind ≠ .punctuator .rightBrace then refuse s.token
      set { s with last := s.tokenPlace }

/-! ## Spans and context -/

/-- The offset at which the token looked at starts. -/
def here : Parse Nat := return (← get).tokenPlace.index

/-- The span from an offset to the end of the last consumed token. -/
def spanFrom (start : Nat) : Parse Span := return ⟨start, (← get).last.index⟩

/-- Changes the context. -/
def modifyContext (f : Context → Context) : Parse Unit :=
  modify fun s => { s with toContext := f s.toContext }

/-- What was read last is neither a target nor a parameter. -/
def markValue : Parse Unit :=
  modifyContext fun c => { c with isTarget := false, isBinding := false }

/-- What was read last is a property of an object: a target but no parameter. -/
def markMember : Parse Unit :=
  modifyContext fun c => { c with isTarget := true, isBinding := false }

/-- Parses something on its own: a shorthand property with `=` in it must have found its pattern,
and what can be assigned to inside says nothing about what is around. -/
def isolate {α : Type} (p : Parse α) : Parse α := do
  let c := (← get).toContext
  modifyContext fun c => { c with isBinding := true, isTarget := true, coverInit := none }
  let a ← p
  if let some t := (← get).coverInit then refuse t
  modifyContext fun c' =>
    { c' with isBinding := c.isBinding, isTarget := c.isTarget, coverInit := c.coverInit }
  return a

/-- Parses something that may turn out to be a part of a pattern. -/
def inherit {α : Type} (p : Parse α) : Parse α := do
  let c := (← get).toContext
  modifyContext fun c => { c with isBinding := true, isTarget := true, coverInit := none }
  let a ← p
  modifyContext fun c' =>
    { c' with
      isBinding := c'.isBinding && c.isBinding
      isTarget := c'.isTarget && c.isTarget
      coverInit := c.coverInit <|> c'.coverInit }
  return a

/-! ## Repetition -/

/-- Repeats a step until it gives a result.  A loop consumes a token in every turn, so the bound,
which is taken from the length of the text, is reached at the end of the text at the earliest. -/
def iterate {σ β : Type} (step : σ → Parse (σ ⊕ β)) : Nat → σ → Parse β
  | 0, _ => refuseHere .unexpectedEnd
  | n + 1, s => do
    match ← step s with
    | .inl s' => iterate step n s'
    | .inr b => return b

/-- Repeats a step as long as it gives something. -/
def collect {α : Type} (step : Parse (Option α)) : Nat → Parse (List α)
  | 0 => refuseHere .unexpectedEnd
  | n + 1 => do
    match ← step with
    | some a => return a :: (← collect step n)
    | none => return []

/-! ## Recursion -/

/-- The constructs in which the grammar is recursive. -/
inductive Goal where
  | assignment | unary | power | callee | call | item | statement
deriving DecidableEq, Inhabited, Repr

/-- How to parse what lies deeper: the recursive constructs, and a bound for loops. -/
structure Deeper where
  bound : Nat
  parse : Goal → Parse Node

/-- An expression: assignments separated by commas. -/
def expression (d : Deeper) : Parse Node := do
  let start ← here
  let first ← isolate (d.parse .assignment)
  if ← isAt .comma then
    let others ← collect
      (do if ← accept .comma then return some (← isolate (d.parse .assignment)) else return none)
      d.bound
    return .sequence (← spanFrom start) (first :: others)
  else return first

/-- A name that may be any word. -/
def identifierName : Parse Node := do
  let start ← here
  let t ← advance
  if !t.isWord then refuse t
  return .identifier (← spanFrom start) t.text

end Parse
end Elementwise
