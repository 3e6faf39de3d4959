import Elementwise.ParseError

/-!
# Escapes

The escapes of names, strings and templates.  A reader here starts behind the backslash, or behind
the letter that names the escape, and gives back the place and the text behind the escape.
-/

set_option autoImplicit false
namespace Elementwise
namespace Escape

/-- Reads exactly `n` hexadecimal digits as a number.  The place is the one behind the digits that
are there, also when they are too few. -/
def hexDigits : Nat → Nat → Place → Text → Option Nat × Place × Text
  | 0, value, p, t => (some value, p, t)
  | _ + 1, _, p, [] => (none, p, [])
  | n + 1, value, p, c :: t =>
    match c.hexValue? with
    | some d => hexDigits n (value * 16 + d) (p.step 1) t
    | none => (none, p, c :: t)

/-- Reads the digits of a braced escape and the brace that closes it. -/
def bracedDigits : Nat → Place → Text → Except ParseError (CodePoint × Place × Text)
  | _, p, [] => .error (p.fault .illegal)
  | value, p, c :: t =>
    match c.hexValue? with
    | some d => bracedDigits (value * 16 + d) (p.step 1) t
    | none =>
      if c = '}' && value ≤ 0x10FFFF then .ok (.ofNat value, p.step 1, t)
      else .error ((p.step 1).fault .illegal)

/-- Reads a braced escape behind its opening brace: at least one digit, then the closing brace. -/
def braced (p : Place) (t : Text) : Except ParseError (CodePoint × Place × Text) :=
  if t.head? = some '}' then .error (p.fault .illegal) else bracedDigits 0 p t

/-- The characters that single letters behind a backslash stand for. -/
def control? : CodePoint → Option CodePoint
  | .scalar 'n' => some '\n'
  | .scalar 'r' => some '\r'
  | .scalar 't' => some '\t'
  | .scalar 'b' => some '\x08'
  | .scalar 'f' => some '\x0c'
  | .scalar 'v' => some '\x0b'
  | _ => none

/-- Reads an octal escape whose first digit is `first`: up to three digits, and at most two if the
first is above three.  Also says whether it counts as octal notation: a lone zero does not. -/
def octal (first : CodePoint) (p : Place) : Text → CodePoint × Bool × Place × Text
  | d :: e :: t =>
    if d.isOctalDigit then
      if first.digitValue ≤ 3 && e.isOctalDigit then
        (.ofNat (first.digitValue * 64 + d.digitValue * 8 + e.digitValue), true, p.step 2, t)
      else (.ofNat (first.digitValue * 8 + d.digitValue), true, p.step 1, e :: t)
    else (.ofNat first.digitValue, first != '0', p, d :: e :: t)
  | [d] =>
    if d.isOctalDigit then (.ofNat (first.digitValue * 8 + d.digitValue), true, p.step 1, [])
    else (.ofNat first.digitValue, first != '0', p, [d])
  | [] => (.ofNat first.digitValue, first != '0', p, [])

end Escape
end Elementwise
