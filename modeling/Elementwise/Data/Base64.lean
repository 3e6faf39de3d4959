import Elementwise.CodePoint

/-!
# Bytes in base 64

Four characters of an alphabet of 64 stand for three bytes.  All other characters are overlooked,
but the sign that fills up the last four: where it completes them, the bytes end.
-/

set_option autoImplicit false
namespace Elementwise
namespace Base64

/-- The number of a character of the alphabet. -/
def value? : CodePoint → Option Nat
  | .scalar c =>
    if c.isUpper then some (c.toNat - 'A'.toNat)
    else if c.isLower then some (c.toNat - 'a'.toNat + 26)
    else if c.isDigit then some (c.toNat - '0'.toNat + 52)
    else if c = '+' then some 62
    else if c = '/' then some 63
    else none
  | .surrogate _ => none

/-- The bytes that a text stands for behind `place` characters of four, which leave bits of a byte,
and `fill` signs that fill up.  None if the last four characters are not complete. -/
def decodeFrom (place left fill : Nat) : Text → Option (List UInt8)
  | [] => if place = 0 then some [] else none
  | c :: t =>
    if c = '=' then
      if place < 2 then decodeFrom place left fill t
      else if 4 ≤ place + fill + 1 then some []
      else decodeFrom place left (fill + 1) t
    else
      match value? c with
      | none => decodeFrom place left fill t
      | some n =>
        match place with
        | 0 => decodeFrom 1 n 0 t
        | 1 => (decodeFrom 2 (n % 16) 0 t).map ((left * 4 + n / 16).toUInt8 :: ·)
        | 2 => (decodeFrom 3 (n % 4) 0 t).map ((left * 16 + n / 4).toUInt8 :: ·)
        | _ => (decodeFrom 0 0 0 t).map ((left * 64 + n).toUInt8 :: ·)

/-- The bytes that a text stands for. -/
def decode? (t : Text) : Option (List UInt8) := decodeFrom 0 0 0 t

end Base64
end Elementwise
