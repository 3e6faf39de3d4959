import Elementwise.Token.Name
import Elementwise.Token.Number
import Elementwise.Token.Regex
import Elementwise.Token.Separator
import Elementwise.Token.StringLiteral
import Elementwise.Token.Template

/-!
# Reading tokens

A `Reader` stands somewhere in a text and reads one token after another.  Besides its place it knows
which braces are open, because a closing brace ends a substitution in a template if the innermost
open one began it.
-/

set_option autoImplicit false
namespace Elementwise

/-- What an open brace began. -/
inductive Brace where
  | plain
  | substitution
deriving DecidableEq, Inhabited, Repr

/-- A reader of tokens: where it stands, what it has not read yet, and the open braces, the
innermost first. -/
structure Reader where
  place : Place
  rest : Text
  braces : List Brace
deriving Inhabited

namespace Reader

/-- A reader at the beginning of a text. -/
def ofText (t : Text) : Reader := ⟨.beginning t, t, []⟩

/-- Skips what separates tokens. -/
def skipSeparators (r : Reader) : Except ParseError Reader :=
  match r.place.skipSeparators r.rest with
  | .ok (p, t) => .ok { r with place := p, rest := t }
  | .error e => .error e

/-- The open braces behind a token. -/
def bracesAfter (braces : List Brace) : TokenKind → List Brace
  | .punctuator .leftBrace => .plain :: braces
  | .punctuator .rightBrace => braces.drop 1
  | .template _ _ true false => .substitution :: braces
  | .template _ _ false true => braces.drop 1
  | _ => braces

/-- Reads what kind of token comes next, and where it ends.  The reader stands at its start. -/
def kind (r : Reader) : Except ParseError (TokenKind × Place × Text) :=
  match r.rest with
  | [] => .ok (.endOfText, r.place, [])
  | c :: t =>
    if c.isNameStart then Name.token r.place (c :: t)
    else if c = '\x27' || c = '\x22' then StringLiteral.token c r.place t
    else if c.isDigit || (c = '.' && t.head?.any CodePoint.isDigit) then
      Number.token r.place (c :: t)
    else if c = Template.quote then Template.token true r.place t
    else if c = '}' && r.braces.head? = some .substitution then Template.token false r.place t
    else
      match Punctuator.longest? (c :: t) with
      | some p =>
        .ok (.punctuator p, r.place.step p.spelling.length, (c :: t).drop p.spelling.length)
      | none => .error (r.place.fault .illegal)

/-- Reads the token at which the reader stands. -/
def token (r : Reader) : Except ParseError (Token × Reader) :=
  match r.kind with
  | .ok (kind, p, t) =>
    .ok (⟨kind, ⟨r.place.index, p.index⟩, p.line⟩, ⟨p, t, bracesAfter r.braces kind⟩)
  | .error e => .error e

/-- The token behind the separators at which the reader stands, and the open braces behind it. -/
def peek (r : Reader) : Except ParseError (Token × List Brace) :=
  match r.skipSeparators with
  | .ok r =>
    match r.token with
    | .ok (t, r) => .ok (t, r.braces)
    | .error e => .error e
  | .error e => .error e

end Reader
end Elementwise
