import Elementwise.ParseError
import Elementwise.Token
import Elementwise.Unicode.Identifier

/-!
# Numbers

Decimal, hexadecimal, binary and octal numerals.  A zero with further octal digits behind it is
octal notation of the old kind, unless one of the digits that follow is `8` or `9`.  No numeral may
run into a name, and no binary or octal numeral into a digit.
-/

set_option autoImplicit false
namespace Elementwise
namespace Number

/-- Whether a code point is a hexadecimal digit. -/
def isHexDigit (c : CodePoint) : Bool := c.hexValue?.isSome

/-- Whether a code point is a binary digit. -/
def isBinaryDigit (c : CodePoint) : Bool := c = '0' || c = '1'

/-- Whether the digits behind a leading zero and one octal digit make up old octal notation. -/
def isOldOctal : Text → Bool
  | [] => true
  | c :: t => if c = '8' || c = '9' then false else if c.isOctalDigit then isOldOctal t else true

/-- Reads the digits of a numeral in a base other than ten, `p` being the place of the first one.
At least one must be there, and `stops` must not hold of what follows. -/
def inBase (base : Nat) (isDigit stops : CodePoint → Bool) (octal : Bool) (p : Place) (t : Text) :
    Except ParseError (TokenKind × Place × Text) :=
  let digits := t.takeWhile isDigit
  let rest := t.dropWhile isDigit
  let p' := p.step digits.length
  if digits.isEmpty || rest.head?.any stops then .error (p'.fault .illegal)
  else .ok (.number ⟨Text.toNat base digits, 0⟩ octal, p', rest)

/-- Whether a name or a digit starts here. -/
def runsOn (c : CodePoint) : Bool := c.isNameStart || c.isDigit

/-- Reads the exponent of a decimal numeral, behind its letter. -/
def exponent (p : Place) (t : Text) : Except ParseError (Int × Place × Text) :=
  let (sign, p, t) : Int × Place × Text :=
    match t with
    | .scalar '+' :: t => (1, p.step 1, t)
    | .scalar '-' :: t => (-1, p.step 1, t)
    | t => (1, p, t)
  let digits := t.takeWhile CodePoint.isDigit
  if digits.isEmpty then .error (p.fault .illegal)
  else
    .ok (sign * (Text.toNat 10 digits : Nat), p.step digits.length, t.dropWhile CodePoint.isDigit)

/-- Reads a decimal numeral. -/
def decimal (p : Place) (t : Text) : Except ParseError (TokenKind × Place × Text) :=
  let whole := t.takeWhile CodePoint.isDigit
  let t := t.dropWhile CodePoint.isDigit
  let p := p.step whole.length
  let (fraction, p, t) : Text × Place × Text :=
    match t with
    | .scalar '.' :: t =>
      let digits := t.takeWhile CodePoint.isDigit
      (digits, p.step (1 + digits.length), t.dropWhile CodePoint.isDigit)
    | t => ([], p, t)
  let tail : Except ParseError (Int × Place × Text) :=
    match t with
    | .scalar 'e' :: t => exponent (p.step 1) t
    | .scalar 'E' :: t => exponent (p.step 1) t
    | t => .ok (0, p, t)
  match tail with
  | .error e => .error e
  | .ok (power, p, t) =>
    if t.head?.any CodePoint.isNameStart then .error (p.fault .illegal)
    else
      .ok (.number ⟨Text.toNat 10 (whole ++ fraction), power - fraction.length⟩ false, p, t)

/-- Reads a number as a token; the text starts with a digit, or with a point and a digit. -/
def token (p : Place) : Text → Except ParseError (TokenKind × Place × Text)
  | .scalar '0' :: .scalar 'x' :: t =>
    inBase 16 isHexDigit CodePoint.isNameStart false (p.step 2) t
  | .scalar '0' :: .scalar 'X' :: t =>
    inBase 16 isHexDigit CodePoint.isNameStart false (p.step 2) t
  | .scalar '0' :: .scalar 'b' :: t => inBase 2 isBinaryDigit runsOn false (p.step 2) t
  | .scalar '0' :: .scalar 'B' :: t => inBase 2 isBinaryDigit runsOn false (p.step 2) t
  | .scalar '0' :: .scalar 'o' :: t => inBase 8 CodePoint.isOctalDigit runsOn false (p.step 2) t
  | .scalar '0' :: .scalar 'O' :: t => inBase 8 CodePoint.isOctalDigit runsOn false (p.step 2) t
  | .scalar '0' :: c :: t =>
    if c.isOctalDigit && isOldOctal t then
      inBase 8 CodePoint.isOctalDigit runsOn true (p.step 1) (c :: t)
    else decimal p ('0' :: c :: t)
  | t => decimal p t

end Number
end Elementwise
