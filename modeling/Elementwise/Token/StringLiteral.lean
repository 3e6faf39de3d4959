import Elementwise.Token
import Elementwise.Token.Escape

/-!
# String literals

Reads a quoted string and decodes it.  A literal that does not end on its line is a fault at the
place of its opening quote.
-/

set_option autoImplicit false
namespace Elementwise
namespace StringLiteral

/-- Reads an escape behind its backslash, given its first character.  Also says whether it is in
octal notation. -/
def escape (c : CodePoint) (p : Place) (t : Text) :
    Except ParseError (CodePoint × Bool × Place × Text) :=
  if c = 'u' then
    match t with
    | .scalar '{' :: t =>
      match Escape.braced (p.step 1) t with
      | .ok (d, p', t') => .ok (d, false, p', t')
      | .error e => .error e
    | t =>
      match Escape.hexDigits 4 0 p t with
      | (some n, p', t') => .ok (.ofNat n, false, p', t')
      | (none, p', _) => .error (p'.fault .illegal)
  else if c = 'x' then
    match Escape.hexDigits 2 0 p t with
    | (some n, p', t') => .ok (.ofNat n, false, p', t')
    | (none, p', _) => .error (p'.fault .hexEscape)
  else if c = '8' || c = '9' then .error (p.fault .illegal)
  else if c.isOctalDigit then .ok (Escape.octal c p t)
  else .ok ((Escape.control? c).getD c, false, p, t)

/-- Reads the rest of a literal whose opening quote stood at offset `start`; `done` holds the
characters decoded so far, last one first. -/
def body (quote : CodePoint) (start : Nat) :
    Nat → Text → Bool → Place → Text → Except ParseError (Text × Bool × Place × Text)
  | fuel + 1, done, octal, p, c :: t =>
    if c = quote then .ok (done.reverse, octal, p.step 1, t)
    else if c = '\\' then
      match t with
      | .scalar '\r' :: .scalar '\n' :: t => body quote start fuel done octal (p.newLine 3) t
      | d :: t =>
        if d.isLineTerminator then body quote start fuel done octal (p.newLine 2) t
        else
          match escape d (p.step 2) t with
          | .ok (e, isOctal, p', t') => body quote start fuel (e :: done) (octal || isOctal) p' t'
          | .error e => .error e
      | [] => .error ({ p with index := start }.fault .illegal)
    else if c.isLineTerminator then .error ({ p with index := start }.fault .illegal)
    else body quote start fuel (c :: done) octal (p.step 1) t
  | _, _, _, p, _ => .error ({ p with index := start }.fault .illegal)

/-- Reads a literal with the given quote, which stands at `p`, as a token; `t` is what follows the
quote. -/
def token (quote : CodePoint) (p : Place) (t : Text) :
    Except ParseError (TokenKind × Place × Text) :=
  match body quote p.index (t.length + 1) [] false (p.step 1) t with
  | .ok (value, octal, p', t') =>
    .ok (.string value (t.take (p'.index - p.index - 2)) octal, p', t')
  | .error e => .error e

end StringLiteral
end Elementwise
