import Elementwise.CodePoint

/-!
# Blanks of all scripts

The characters that count as blank at the ends of a text: those with the directions `WS`, `B` or `S`
and those of the category `Zs`.
-/

set_option autoImplicit false
namespace Elementwise

/-- Whether a code point is blank space of any script. -/
def CodePoint.isSpace : CodePoint → Bool
  | .scalar c =>
    let n := c.toNat
    (0x09 ≤ n && n ≤ 0x0d) || (0x1c ≤ n && n ≤ 0x20) || n = 0x85 || n = 0xa0 || n = 0x1680 ||
      (0x2000 ≤ n && n ≤ 0x200a) || n = 0x2028 || n = 0x2029 || n = 0x202f || n = 0x205f ||
      n = 0x3000
  | .surrogate _ => false

/-- The characters of ASCII that may stand around a numeral. -/
def CodePoint.isAsciiSpace : CodePoint → Bool
  | .scalar c => c = ' ' || ('\t' ≤ c && c ≤ '\r')
  | .surrogate _ => false

end Elementwise
