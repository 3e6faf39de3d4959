import Elementwise.CodePoint

/-!
# Floating point numbers and their shortest decimals

A finite double is `mantissa * 2 ^ exponent`.  Reading a decimal rounds to the nearest double, a tie
to the even mantissa; writing one takes the fewest digits that read back as the same double, and of
those the digits nearest to its value.  Both are exact computations on natural numbers.
-/

set_option autoImplicit false
namespace Elementwise

/-- A double. -/
inductive Binary64 where
  /-- `mantissa * 2 ^ exponent`, the mantissa below `2 ^ 53` and the exponent at least `-1074`. -/
  | finite (negative : Bool) (mantissa : Nat) (exponent : Int)
  | infinite (negative : Bool)
  | nan
deriving DecidableEq, Inhabited, Repr

namespace Binary64

/-- The quotient of two naturals rounded to the nearest natural, a tie to the even one. -/
def roundQuotient (num den : Nat) : Nat :=
  let q := num / den
  let r := num % den
  if 2 * r < den then q else if den < 2 * r then q + 1 else if q % 2 = 0 then q else q + 1

/-- `num / den * 2 ^ (-exponent)` as a quotient. -/
def scaled (num den : Nat) (exponent : Int) : Nat × Nat :=
  if exponent < 0 then (num * Nat.pow 2 exponent.natAbs, den)
  else (num, den * Nat.pow 2 exponent.natAbs)

/-- The double nearest to a positive quotient. -/
def ofQuotient (negative : Bool) (num den : Nat) : Binary64 :=
  let guess : Int := (num.log2 : Int) - (den.log2 : Int) - 52
  -- the guess is right or one too large
  let (n, d) := scaled num den guess
  let exponent := max (if n / d < Nat.pow 2 52 then guess - 1 else guess) (-1074)
  let (n, d) := scaled num den exponent
  let mantissa := roundQuotient n d
  let (mantissa, exponent) :=
    if mantissa = Nat.pow 2 53 then (Nat.pow 2 52, exponent + 1) else (mantissa, exponent)
  if 971 < exponent then .infinite negative else .finite negative mantissa exponent

/-- The double nearest to `digits * 10 ^ power`.  Powers far outside the range of doubles are not
computed. -/
def ofDecimal (negative : Bool) (digits : Nat) (power : Int) : Binary64 :=
  if digits = 0 then .finite negative 0 (-1074)
  else
    let size : Int := (Nat.toDigits 10 digits).length
    if size + power < -400 then .finite negative 0 (-1074)
    else if 400 < size + power then .infinite negative
    else if power < 0 then ofQuotient negative digits (Nat.pow 10 power.natAbs)
    else ofQuotient negative (digits * Nat.pow 10 power.natAbs) 1

/-- The double nearest to `size * 2 ^ exponent`. -/
def ofScaled (negative : Bool) (size : Nat) (exponent : Int) : Binary64 :=
  if size = 0 then .finite negative 0 (-1074)
  else if exponent < 0 then ofQuotient negative size (Nat.pow 2 exponent.natAbs)
  else ofQuotient negative (size * Nat.pow 2 exponent.natAbs) 1

/-- The double nearest to a natural number; none if that lies beyond all doubles. -/
def ofNat? (n : Nat) : Option Binary64 :=
  match ofScaled false n 0 with
  | .infinite _ => none
  | x => some x

/-- Whether a double has a minus sign. -/
def isNegative : Binary64 → Bool
  | .finite negative .. | .infinite negative => negative
  | .nan => false

/-- Whether a double is zero. -/
def isZero : Binary64 → Bool
  | .finite _ mantissa _ => mantissa = 0
  | _ => false

/-- The product of two doubles. -/
def times (x y : Binary64) : Binary64 :=
  let negative := x.isNegative != y.isNegative
  match x, y with
  | .nan, _ | _, .nan => .nan
  | .finite _ m e, .finite _ n f => ofScaled negative (m * n) (e + f)
  | _, _ => if x.isZero || y.isZero then .nan else .infinite negative

/-- The sum of two doubles.  A sum of opposites is positive. -/
def plus (x y : Binary64) : Binary64 :=
  match x, y with
  | .nan, _ | _, .nan => .nan
  | .infinite a, .infinite b => if a = b then .infinite a else .nan
  | .infinite a, _ | _, .infinite a => .infinite a
  | .finite a m e, .finite b n f =>
    let least := min e f
    let signed (negative : Bool) (size : Nat) : Int := if negative then -size else size
    let sum := signed a (m * Nat.pow 2 (e - least).natAbs) +
      signed b (n * Nat.pow 2 (f - least).natAbs)
    ofScaled (if sum = 0 then a && b else sum < 0) sum.natAbs least

/-- The opposite of a double. -/
def opposite : Binary64 → Binary64
  | .finite negative mantissa exponent => .finite (!negative) mantissa exponent
  | .infinite negative => .infinite !negative
  | .nan => .nan

/-- Whether a double equals an integer. -/
def isInteger (x : Binary64) (n : Int) : Bool :=
  match x with
  | .finite negative mantissa exponent =>
    let size : Bool :=
      if exponent < 0 then mantissa = n.natAbs * Nat.pow 2 exponent.natAbs
      else mantissa * Nat.pow 2 exponent.natAbs = n.natAbs
    size && (n = 0 || negative = decide (n < 0))
  | _ => false

/-- A positive decimal: `digits * 10 ^ power`. -/
structure Decimal where
  digits : Nat
  power : Int
deriving DecidableEq, Inhabited, Repr

/-- The decimals with the power `power` next to `num / den` that read back as `x`, nearest first. -/
def neighbours (x : Binary64) (num den : Nat) (power : Int) : List Decimal :=
  let (n, d) :=
    if power < 0 then (num * Nat.pow 10 power.natAbs, den) else (num, den * Nat.pow 10 power.natAbs)
  let low := n / d
  let near := roundQuotient n d
  let far := if near = low then low + 1 else low
  [near, far].filterMap fun digits =>
    if digits ≠ 0 ∧ ofDecimal false digits power = x then some ⟨digits, power⟩ else none

/-- The shortest decimal of a positive double: the first of the powers, from large to small, on
whose grid a neighbour of the value reads back. -/
def shortest (mantissa : Nat) (exponent : Int) : Decimal :=
  let x := Binary64.finite false mantissa exponent
  let (num, den) :=
    if exponent < 0 then (mantissa, Nat.pow 2 exponent.natAbs)
    else (mantissa * Nat.pow 2 exponent.natAbs, 1)
  let top : Int :=
    if den ≤ num then ((Nat.toDigits 10 (num / den)).length : Int)
    else 1 - ((Nat.toDigits 10 (den / num)).length : Int)
  let tries := (List.range 20).map fun (k : Nat) => top - (k : Int)
  ((tries.flatMap fun power => neighbours x num den power).head?).getD ⟨0, 0⟩

/-- A decimal without trailing zeros. -/
def Decimal.trim : Nat → Decimal → Decimal
  | fuel + 1, d =>
    if d.digits ≠ 0 ∧ d.digits % 10 = 0 then trim fuel ⟨d.digits / 10, d.power + 1⟩ else d
  | 0, d => d

/-- How a positive decimal is written: positionally from `0.0001` up to below `10 ^ 16`, always with
a point, and otherwise with an exponent of at least two digits and its sign. -/
def Decimal.text (d : Decimal) : Text :=
  let digits := Nat.toDigits 10 d.digits
  -- the power of ten of the first digit
  let lead : Int := d.power + digits.length - 1
  if -4 ≤ lead ∧ lead < 16 then
    if 0 ≤ d.power then
      .ofChars (digits ++ List.replicate d.power.natAbs '0' ++ ['.', '0'])
    else if 0 ≤ lead then
      let whole := lead.natAbs + 1
      .ofChars (digits.take whole ++ ['.'] ++ digits.drop whole)
    else .ofChars (['0', '.'] ++ List.replicate (lead.natAbs - 1) '0' ++ digits)
  else
    let front := digits.take 1 ++ (if digits.length = 1 then [] else '.' :: digits.drop 1)
    let power := Nat.toDigits 10 lead.natAbs
    let power := if power.length = 1 then '0' :: power else power
    .ofChars (front ++ ['e', if lead < 0 then '-' else '+'] ++ power)

/-- How a double is written. -/
def text : Binary64 → Text
  | nan => .ofChars ['n', 'a', 'n']
  | infinite negative => .ofChars (if negative then ['-', 'i', 'n', 'f'] else ['i', 'n', 'f'])
  | finite negative mantissa exponent =>
    let size : Text :=
      if mantissa = 0 then .ofChars ['0', '.', '0']
      else ((shortest mantissa exponent).trim 20).text
    if negative then .scalar '-' :: size else size

end Binary64
end Elementwise
