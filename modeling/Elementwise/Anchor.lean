import Elementwise.Failure
import Elementwise.Grammar.Script

/-!
# Anchored functions

A routine is written as a function, in any of several forms.  Put in parentheses and called, every
form parses as the callee of a single call, and that is how the function is found.

* `RoutineSource.text` — the source of a routine, which may be held by an object.
* `anchor` — the function of a routine with its parameters and its body.
-/

set_option autoImplicit false
namespace Elementwise

/-- Where the source of a routine is taken from. -/
inductive RoutineSource where
  /-- A plain value, which is a source if it is a text. -/
  | value (v : Value)
  /-- An object that holds a value as its source. -/
  | handle (source : Value)
  /-- An object without source. -/
  | bareHandle
deriving Inhabited, Repr

/-- The source of a routine. -/
def RoutineSource.text : RoutineSource → Except Failure Text
  | value (.text t) | handle (.text t) => .ok t
  | value v => .error (.noSource v.typeName)
  | handle _ | bareHandle => .error (.noSource "Handle")

/-- A parameter with a plain name. -/
structure Parameter where
  name : Text
  span : Span
deriving DecidableEq, Inhabited, Repr

/-- A routine's function with its parts.  All spans refer to the text that was parsed, in which the
source stands in parentheses. -/
structure AnchoredFunction where
  text : Text
  isArrow : Bool
  span : Span
  params : List Parameter
  body : Node
  bodySpan : Span
deriving Inhabited, Repr

namespace AnchoredFunction

/-- Whether the body is an expression, as that of an arrow function may be. -/
def isExpressionBody (f : AnchoredFunction) : Bool :=
  match f.body with
  | .block .. => false
  | _ => true

/-- The name by which reports call the function's form. -/
def typeName (f : AnchoredFunction) : String :=
  if f.isArrow then "ArrowFunctionExpression" else "FunctionExpression"

end AnchoredFunction

/-- The span of a node that must have one. -/
def Node.span (node : Node) : Except Failure Span :=
  match node.span? with
  | some s => .ok s
  | none => .error (.noRange (some (.ofString node.typeName)))

/-- The two ends of a range that a node is said to have: the first two items of a list or the first
two characters of a text.  What counts as false counts as absent. -/
def describedRange (typeName : Option Value) (range : Value) : Except Failure (Value × Value) :=
  if !range.isTrue then .error (.noRange typeName)
  else
    match range with
    | .list (start :: stop :: _) => .ok (start, stop)
    | .text (start :: stop :: _) => .ok (.text [start], .text [stop])
    | .list _ => .error (.rangeFault (.short false))
    | .text _ => .error (.rangeFault (.short true))
    | .map _ => .error (.rangeFault .unordered)
    | v => .error (.rangeFault (.notIndexed v.typeName))

namespace Anchor

/-- The text that is parsed for a source: the source in parentheses, called. -/
def wrap (source : Text) : Text := .scalar '(' :: source ++ .ofChars [')', '(', ')']

/-- The expression that is called in a script made of one call without arguments. -/
def callee : List Node → Except Failure Node
  | [.expression _ e _] =>
    match e with
    | .call _ callee [] => .ok callee
    | e => .error (.notCall e.typeName)
  | statements => .error (.statementCount statements.length)

/-- The parameters of a function, which must have plain names. -/
def parameters : List Node → Except Failure (List Parameter)
  | [] => .ok []
  | .identifier span name :: nodes =>
    match parameters nodes with
    | .ok ps => .ok (⟨name, span⟩ :: ps)
    | .error e => .error e
  | node :: _ =>
    match node.span with
    | .ok span => .error (.parameterForm node.typeName span)
    | .error e => .error e

/-- Puts together the function found in a text. -/
def function (text : Text) (isArrow isAsync isGenerator : Bool) (span : Span)
    (params : List Node) (body : Node) : Except Failure AnchoredFunction :=
  if isAsync || isGenerator then .error (.suspendable isAsync span)
  else
    match parameters params with
    | .error e => .error e
    | .ok params =>
      match body.span with
      | .error e => .error e
      | .ok bodySpan => .ok ⟨text, isArrow, span, params, body, bodySpan⟩

/-- The function that a text calls. -/
def locate (text : Text) (statements : List Node) : Except Failure AnchoredFunction :=
  match callee statements with
  | .error e => .error e
  | .ok (.function span false isAsync isGenerator _ params body) =>
    function text false isAsync isGenerator span params body
  | .ok (.arrow span isAsync params body) => function text true isAsync false span params body
  | .ok node => .error (.notFunction node.typeName)

end Anchor

/-- The function of a routine, given its source. -/
def anchor (source : Text) : Except Failure AnchoredFunction :=
  let text := Anchor.wrap source
  match parseScript text with
  | .ok statements => Anchor.locate text statements
  | .error e => .error (.unparsable e)

end Elementwise
