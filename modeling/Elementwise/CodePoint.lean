/-!
# Code points and texts

Every text this library reads or writes is a list of code points, and every offset, length and
column counts code points.

## What is here

* `CodePoint` — a scalar value, which a `Char` holds, or a surrogate.  Source files hold scalar
  values only, but an escape in a string literal can denote a lone surrogate, so the value of a
  literal, and the text built from it, may hold one.
* `Text` — a list of code points, with the few constructors the other modules need
  (`Text.ofString`, `Text.ofChars`, `Text.ofNat`, `Text.ofInt`).
* the character classes of routine sources that need no table: line terminators, blanks, digits.

Words the reader of routine sources compares with are written as lists of characters, because
lists reduce in the kernel and string literals do so only slowly.
-/

set_option autoImplicit false
namespace Elementwise

/-- A Unicode code point. -/
inductive CodePoint where
  /-- A Unicode scalar value. -/
  | scalar (c : Char)
  /-- The surrogate `0xD800 + offset`, which no encoded text holds. -/
  | surrogate (offset : Fin 0x800)
deriving DecidableEq, Inhabited, Repr

/-- A text is a list of code points. -/
abbrev Text := List CodePoint

/-- Texts that are compared equal are equal. -/
instance Text.lawfulBEq : LawfulBEq Text := inferInstance

instance : Coe Char CodePoint := ⟨.scalar⟩

namespace CodePoint

/-- The number of a code point. -/
def val : CodePoint → Nat
  | scalar c => c.toNat
  | surrogate k => 0xD800 + k.val

/-- The code point with a given number; numbers beyond the last code point have none. -/
def ofNat? (n : Nat) : Option CodePoint :=
  if h : n.isValidChar then some (scalar (Char.ofNatAux n h))
  else if 0xD800 ≤ n then
    if h : n - 0xD800 < 0x800 then some (surrogate ⟨n - 0xD800, h⟩) else none
  else none

/-- The code point with a given number, for numbers known to be in range. -/
def ofNat (n : Nat) : CodePoint := (ofNat? n).getD (scalar '\uFFFD')

/-! ## Classes -/

/-- The characters that end a line: line feed, carriage return, U+2028 and U+2029. -/
def isLineTerminator : CodePoint → Bool
  | scalar c => c == '\n' || c == '\r' || c == '\u2028' || c == '\u2029'
  | surrogate _ => false

/-- The characters that separate tokens on a line. -/
def isBlank : CodePoint → Bool
  | scalar c =>
    c == ' ' || c == '\t' || c == '\x0b' || c == '\x0c' ||
    (0x80 ≤ c.toNat &&
      (c == '\u00a0' || c == '\u1680' || c == '\u180e' ||
        (0x2000 ≤ c.toNat && c.toNat ≤ 0x200a) ||
        c == '\u202f' || c == '\u205f' || c == '\u3000' || c == '\ufeff'))
  | surrogate _ => false

/-- The digits `0` to `9`. -/
def isDigit : CodePoint → Bool
  | scalar c => c.isDigit
  | surrogate _ => false

/-- The digits `0` to `7`. -/
def isOctalDigit : CodePoint → Bool
  | scalar c => '0' ≤ c && c ≤ '7'
  | surrogate _ => false

/-- The value of a hexadecimal digit, in either case. -/
def hexValue? : CodePoint → Option Nat
  | scalar c =>
    if c.isDigit then some (c.toNat - '0'.toNat)
    else if 'a' ≤ c && c ≤ 'f' then some (c.toNat - 'a'.toNat + 10)
    else if 'A' ≤ c && c ≤ 'F' then some (c.toNat - 'A'.toNat + 10)
    else none
  | surrogate _ => none

/-- The value of a digit `0` to `9`; other code points count as zero. -/
def digitValue : CodePoint → Nat
  | scalar c => if c.isDigit then c.toNat - '0'.toNat else 0
  | surrogate _ => 0

end CodePoint

namespace Text

/-- The text of a list of characters. -/
def ofChars (cs : List Char) : Text := cs.map .scalar

/-- The text of a string. -/
def ofString (s : String) : Text := ofChars s.toList

/-- A number in decimal notation. -/
def ofNat (n : Nat) : Text := ofChars (Nat.toDigits 10 n)

/-- An integer in decimal notation, a minus sign in front of a negative one. -/
def ofInt : Int → Text
  | .ofNat n => ofNat n
  | .negSucc n => .scalar '-' :: ofNat (n + 1)

/-- The order of texts: code point by code point, a proper beginning before what it begins. -/
def le : Text → Text → Bool
  | [], _ => true
  | _ :: _, [] => false
  | a :: s, b :: t => if a = b then le s t else a.val < b.val

/-- The texts of a list with a separator between neighbours. -/
def join (separator : Text) : List Text → Text
  | [] => []
  | [t] => t
  | t :: ts => t ++ separator ++ join separator ts

/-- Reads the digits of a numeral in the given base; the caller has checked that they are digits. -/
def toNat (base : Nat) (digits : Text) : Nat :=
  digits.foldl (fun n d => n * base + (d.hexValue?.getD 0)) 0

/-- Replaces every code point by a text. -/
def expand (f : CodePoint → Text) (t : Text) : Text := t.flatMap f

end Text
end Elementwise
