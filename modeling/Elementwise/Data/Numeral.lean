import Elementwise.Data.Conversion
import Elementwise.Unicode.Blank
import Elementwise.Unicode.Digit

/-!
# Reading numerals

A numeral may have a sign and blanks around it, and digits of any script count as those of ASCII.

* `Numeral.integer` — the integer that a text stands for in a base.
* `Numeral.float` — the double that a text stands for.
-/

set_option autoImplicit false
namespace Elementwise
namespace Numeral

/-- A text with digits and blanks of all scripts put into ASCII, up to the first other character
beyond ASCII, for which a question mark stands. -/
def toAscii : Text → Text
  | [] => []
  | c :: t =>
    if c.val < 0x7f then c :: toAscii t
    else if c.isSpace then .scalar ' ' :: toAscii t
    else
      match c.decimalValue? with
      | some d => Text.ofNat d ++ toAscii t
      | none => [.scalar '?']

/-- A text in ASCII. -/
def simplify (t : Text) : Text := if t.all fun c => c.val < 0x80 then t else toAscii t

/-- Whether a text is negative, and what follows its sign. -/
def sign : Text → Bool × Text
  | .scalar '-' :: t => (true, t)
  | .scalar '+' :: t => (false, t)
  | t => (false, t)

/-- A text without the blanks of ASCII at its beginning. -/
def trimStart (t : Text) : Text := t.dropWhile CodePoint.isAsciiSpace

/-- A text without the blanks of ASCII at both ends. -/
def trim (t : Text) : Text := (trimStart (trimStart t).reverse).reverse

/-- Whether a letter behind a zero announces digits in a base. -/
def isBaseMark (base : Nat) (c : CodePoint) : Bool :=
  (base = 2 && (c = 'b' || c = 'B')) || (base = 8 && (c = 'o' || c = 'O')) ||
    (base = 16 && (c = 'x' || c = 'X'))

/-- A text without the mark of a base at its beginning. -/
def dropMark (base : Nat) : Text → Text
  | c :: d :: t => if c = '0' && isBaseMark base d then t else c :: d :: t
  | t => t

/-- Whether a code point is a digit in a base. -/
def isDigitOf (base : Nat) (c : CodePoint) : Bool := c.hexValue?.any (· < base)

/-- The integer that a text stands for.  Only decimal numerals are limited in length. -/
def integer (base : Nat) (t : Text) : Except ConversionFault Int :=
  let (negative, body) := sign (trimStart (simplify t))
  let body := dropMark base body
  let digits := body.takeWhile (isDigitOf base)
  if base = 10 && digitLimit < digits.length then .error (.longNumeral digits.length)
  else if digits.isEmpty || !(trimStart (body.drop digits.length)).isEmpty then
    .error (.notInteger base t)
  else
    let n := Text.toNat base digits
    .ok (if negative then -n else n)

/-- The exponent at the beginning of a text, which must end there; no text is the exponent zero. -/
def exponent? : Text → Option Int
  | [] => some 0
  | e :: t =>
    let (negative, digits) := sign t
    if (e = 'e' || e = 'E') && !digits.isEmpty && digits.all CodePoint.isDigit then
      let n := Text.toNat 10 digits
      some (if negative then -n else n)
    else none

/-- The double that digits with or without a point and an exponent stand for. -/
def decimal? (negative : Bool) (t : Text) : Option Binary64 :=
  let whole := t.takeWhile CodePoint.isDigit
  let behind := t.drop whole.length
  let (part, behind) : Text × Text :=
    match behind with
    | .scalar '.' :: t =>
      let part := t.takeWhile CodePoint.isDigit
      (part, t.drop part.length)
    | _ => ([], behind)
  if whole.isEmpty && part.isEmpty then none
  else
    (exponent? behind).map fun power =>
      Binary64.ofDecimal negative (Text.toNat 10 (whole ++ part)) (power - part.length)

/-- A text in small letters, as far as these are of ASCII. -/
def lower (t : Text) : Text :=
  t.map fun
    | .scalar c => .scalar c.toLower
    | c => c

/-- The double that a text stands for; infinities and the value that is no number have names. -/
def float (t : Text) : Except ConversionFault Binary64 :=
  let (negative, body) := sign (trim (simplify t))
  let word := lower body
  if word = Text.ofChars ['i', 'n', 'f'] ||
      word = Text.ofChars ['i', 'n', 'f', 'i', 'n', 'i', 't', 'y'] then
    .ok (.infinite negative)
  else if word = Text.ofChars ['n', 'a', 'n'] then .ok .nan
  else
    match decimal? negative body with
    | some x => .ok x
    | none => .error (.notFloat t)

end Numeral
end Elementwise
