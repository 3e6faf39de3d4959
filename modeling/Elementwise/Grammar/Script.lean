import Elementwise.Grammar.Statement

/-!
# Scripts

Ties the recursion of the grammar: every construct that lies deeper is parsed with one unit less
to spend.  Between two constructs of which one contains the other a token is consumed, at the
latest in every second step, and no token consists of blanks alone.  So twice the number of
characters that are neither blanks nor line terminators is enough for any nesting.

* `parseScript` — the statements of a text, or the fault for which it is refused.
-/

set_option autoImplicit false
namespace Elementwise
namespace Parse

/-- Parses one of the recursive constructs, nested at most as deep as the first argument says. -/
def construct : Nat → Goal → Parse Node
  | 0, _ => refuseHere .unexpectedEnd
  | depth + 1, goal =>
    let d : Deeper := ⟨depth, construct depth⟩
    match goal with
    | .assignment => assignment d
    | .unary => unary d
    | .power => power d
    | .callee => callee d
    | .call => callOrMember d
    | .item => item d
    | .statement => statement d

/-- A depth that no nesting in a text exceeds. -/
def depthFor (t : Text) : Nat :=
  2 * t.countP (fun c => !c.isBlank && !c.isLineTerminator) + 8

/-- The state in which the parse of a text begins: it looks at the first token. -/
def State.ofText (t : Text) : Except ParseError State :=
  let place := Place.beginning t
  let s : State :=
    { reader := .ofText t
      token := ⟨.endOfText, ⟨0, 0⟩, place.line⟩
      tokenPlace := place
      tokenRest := t
      afterNewline := false
      last := place }
  match s.next with
  | .ok s => .ok { s with last := s.reader.place }
  | .error e => .error e

/-- The statements of a script. -/
def script (d : Deeper) : Parse (List Node) := do
  let front ← directives d
  let statements ← collect
    (do if ← isAtEnd then return none else return some (← d.parse .item))
    d.bound
  return front ++ statements

end Parse

/-- The statements of a text, or the reason why it does not parse. -/
def parseScript (t : Text) : Except ParseError (List Node) :=
  let depth := Parse.depthFor t
  match Parse.State.ofText t with
  | .ok s =>
    match (Parse.script ⟨depth, Parse.construct depth⟩).run s with
    | .ok (statements, _) => .ok statements
    | .error e => .error e
  | .error e => .error e

end Elementwise
