import Elementwise.Token
import Elementwise.Token.Escape

/-!
# Template pieces

A template is read piece by piece: from a back quote, or from the brace that closes a substitution,
up to the next substitution or the closing back quote.
-/

set_option autoImplicit false
namespace Elementwise
namespace Template

/-- The quote that delimits templates. -/
def quote : CodePoint := .scalar '\x60'

/-- Reads an escape behind its backslash, given its first character.  A `u` without four digits
behind it stands for itself; octal notation is refused. -/
def escape (c : CodePoint) (p : Place) (t : Text) :
    Except ParseError (CodePoint × Place × Text) :=
  if c = 'u' then
    match t with
    | .scalar '{' :: t => Escape.braced (p.step 1) t
    | t =>
      match Escape.hexDigits 4 0 p t with
      | (some n, p', t') => .ok (.ofNat n, p', t')
      | (none, _, _) => .ok (c, p, t)
  else if c = 'x' then
    match Escape.hexDigits 2 0 p t with
    | (some n, p', t') => .ok (.ofNat n, p', t')
    | (none, p', _) => .error (p'.fault .hexEscape)
  else if c = '0' then
    if t.head?.any CodePoint.isDigit then .error (p.fault .octalInTemplate)
    else .ok ('\x00', p, t)
  else if c.isOctalDigit then .error (p.fault .octalInTemplate)
  else .ok ((Escape.control? c).getD c, p, t)

/-- Reads the rest of a piece; `done` holds the characters decoded so far, last one first.  Says
whether the piece is the last one of its template. -/
def body : Nat → Text → Place → Text → Except ParseError (Text × Bool × Place × Text)
  | fuel + 1, done, p, c :: t =>
    if c = quote then .ok (done.reverse, true, p.step 1, t)
    else if c = '$' && t.head? = some '{' then .ok (done.reverse, false, p.step 2, t.drop 1)
    else if c = '\\' then
      match t with
      | .scalar '\r' :: .scalar '\n' :: t => body fuel done (p.newLine 3) t
      | d :: t =>
        if d.isLineTerminator then body fuel done (p.newLine 2) t
        else
          match escape d (p.step 2) t with
          | .ok (e, p', t') => body fuel (e :: done) p' t'
          | .error e => .error e
      | [] => .error ((p.step 2).fault .illegal)
    else if c.isLineTerminator then
      if c = '\r' && t.head? = some '\n' then body fuel ('\n' :: done) (p.newLine 2) (t.drop 1)
      else body fuel ('\n' :: done) (p.newLine 1) t
    else body fuel (c :: done) (p.step 1) t
  | _, _, p, _ => .error (p.fault .illegal)

/-- Reads a piece whose opening delimiter stands at `p` as a token; `t` is what follows the
delimiter, and `head` says whether that is the opening back quote. -/
def token (head : Bool) (p : Place) (t : Text) : Except ParseError (TokenKind × Place × Text) :=
  match body (t.length + 1) [] (p.step 1) t with
  | .ok (cooked, tail, p', t') =>
    let raw := t.take (p'.index - p.index - (if tail then 2 else 3))
    .ok (.template raw cooked head tail, p', t')
  | .error e => .error e

end Template
end Elementwise
