import Elementwise.Data.Quoted

/-!
# Conversions between values and texts

Not every text is that of a number, a date or a truth value, long decimal numerals are converted in
neither direction, and not every number is that of a character.

* `ConversionFault` — why a conversion is refused; `ConversionFault.message` words it.
* `Value.hasLongNumber` — whether a value holds a number that has no text.
-/

set_option autoImplicit false
namespace Elementwise

/-- The number of digits that a decimal numeral can have. -/
def digitLimit : Nat := 4300

/-- Why a conversion between a value and a text is refused. -/
inductive ConversionFault where
  /-- A text that is not an integer in the given base. -/
  | notInteger (base : Nat) (text : Text)
  /-- A text that is not a number. -/
  | notFloat (text : Text)
  /-- Nothing at all where a number is expected. -/
  | noNumeral
  /-- A decimal numeral with too many digits. -/
  | longNumeral (digits : Nat)
  /-- A number whose decimal numeral would have too many digits. -/
  | longNumber
  /-- An integer beyond all doubles. -/
  | wideInteger
  /-- The number of no character. -/
  | noCharacter
  /-- A number that does not fit into 31 bits where that of a character is expected. -/
  | wideNumber
  /-- A text that is not a truth value. -/
  | notBoolean (text : Text)
  /-- A text that is not a date. -/
  | notDate
  /-- A collection where a date is expected. -/
  | datelessCollection
  /-- A date or a time that does not exist. -/
  | calendar (cause : CalendarFault)
deriving DecidableEq, Inhabited, Repr

namespace ConversionFault

/-- The limit of digits, among the wordings. -/
def limit : Text :=
  .ofString "Exceeds the limit (" ++ .ofNat digitLimit ++
    .ofString " digits) for integer string conversion"

/-- The advice to lift the limit, among the wordings. -/
def advice : Text := .ofString "; use sys.set_int_max_str_digits() to increase the limit"

/-- The length to which a text is cut that is no integer. -/
def excerptSize : Nat := 200

/-- The wording of a refused conversion. -/
def message : ConversionFault → Text
  | notInteger base text =>
    .ofString "invalid literal for int() with base " ++ .ofNat base ++ .ofString ": " ++
      (Quoted.text text).take excerptSize
  | notFloat text => .ofString "could not convert string to float: " ++ Quoted.text text
  | noNumeral => .ofString "string index out of range"
  | longNumeral digits =>
    limit ++ .ofString ": value has " ++ .ofNat digits ++ .ofString " digits" ++ advice
  | longNumber => limit ++ advice
  | wideInteger => .ofString "int too large to convert to float"
  | noCharacter => .ofString "chr() arg not in range(0x110000)"
  | wideNumber => .ofString "Python int too large to convert to C int"
  | notBoolean text => Quoted.text text
  | notDate => .ofString "'NoneType' object has no attribute 'groupdict'"
  | datelessCollection => .ofString "expected string or bytes-like object, got 'list'"
  | calendar cause => cause.message

end ConversionFault

/-- The code point with a given number. -/
def CodePoint.convert (n : Nat) : Except ConversionFault CodePoint :=
  match CodePoint.ofNat? n with
  | some c => .ok c
  | none => .error (if n < Nat.pow 2 31 then .noCharacter else .wideNumber)

/-- Reads the digits of a decimal numeral. -/
def Text.decimal (digits : Text) : Except ConversionFault Nat :=
  if digits.length ≤ digitLimit then .ok (Text.toNat 10 digits)
  else .error (.longNumeral digits.length)

namespace Value

mutual

/-- Whether a value is or holds a number whose decimal numeral would have too many digits. -/
def hasLongNumber : Value → Bool
  | integer n => Nat.pow 10 digitLimit ≤ n.natAbs
  | list items => anyLongNumber items
  | map entries => anyLongEntry entries
  | set members => anyLongNumber members
  | pair v w => v.hasLongNumber || w.hasLongNumber
  | _ => false

/-- Whether one of some values holds such a number. -/
def anyLongNumber : List Value → Bool
  | [] => false
  | v :: vs => v.hasLongNumber || anyLongNumber vs

/-- Whether a key or a value of some entries holds such a number. -/
def anyLongEntry : List (Value × Value) → Bool
  | [] => false
  | (k, v) :: es => k.hasLongNumber || v.hasLongNumber || anyLongEntry es

end

end Value
end Elementwise
