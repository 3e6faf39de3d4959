import Elementwise.Data.Value
import Elementwise.Unicode.Printable

/-!
# Quoted texts and shown values

How messages show a text, in quotes with escapes, and a value.  A text stands in single quotes,
unless it holds a single quote and no double quote.
-/

set_option autoImplicit false
namespace Elementwise

/-- The hexadecimal digits of a number, filled up with zeros to a width. -/
def Text.ofHex (width n : Nat) : Text :=
  let digits := Nat.toDigits 16 n
  .ofChars (List.replicate (width - digits.length) '0' ++ digits)

namespace Quoted

/-- How a code point is shown between the given quotes. -/
def escape (quote : CodePoint) (c : CodePoint) : Text :=
  if c = quote || c = '\\' then ['\\', c]
  else if c = '\n' then ['\\', 'n']
  else if c = '\r' then ['\\', 'r']
  else if c = '\t' then ['\\', 't']
  else if c.isPrintable then [c]
  else if c.val < 0x100 then '\\' :: 'x' :: Text.ofHex 2 c.val
  else if c.val < 0x10000 then '\\' :: 'u' :: Text.ofHex 4 c.val
  else '\\' :: 'U' :: Text.ofHex 8 c.val

/-- The quote in which a text is shown. -/
def quoteFor (t : Text) : CodePoint :=
  if t.contains (.scalar '\x27') && !t.contains (.scalar '\x22') then '\x22' else '\x27'

/-- A text in quotes. -/
def text (t : Text) : Text :=
  let quote := quoteFor t
  quote :: t.flatMap (escape quote) ++ [quote]

/-- How a byte is shown between the given quotes. -/
def escapeByte (quote : CodePoint) (b : UInt8) : Text :=
  if b < 0x7f then escape quote (.ofNat b.toNat) else '\\' :: 'x' :: Text.ofHex 2 b.toNat

/-- Bytes in quotes behind a letter that tells them from a text. -/
def bytes (bs : List UInt8) : Text :=
  let quote := quoteFor (bs.map fun b => .ofNat b.toNat)
  .scalar 'b' :: quote :: bs.flatMap (escapeByte quote) ++ [quote]

end Quoted

namespace Value

/-- A comma and a blank. -/
def separator : Text := .ofChars [',', ' ']

mutual

/-- How messages show a value: texts in quotes. -/
def quoted : Value → Text
  | null => .ofString "None"
  | boolean true => .ofString "True"
  | boolean false => .ofString "False"
  | integer n => .ofInt n
  | float x => x.text
  | text t => Quoted.text t
  | bytes bs => Quoted.bytes bs
  | date d => d.quoted
  | moment m => m.quoted
  | list items => .scalar '[' :: Text.join separator (quotedAll items) ++ [.scalar ']']
  | map entries => .scalar '{' :: Text.join separator (quotedEntries entries) ++ [.scalar '}']
  | set [] => .ofString "set()"
  | set members => .scalar '{' :: Text.join separator (quotedAll members) ++ [.scalar '}']
  | pair v w => .scalar '(' :: v.quoted ++ separator ++ w.quoted ++ [.scalar ')']
  | around true => .ofChars ['{', '.', '.', '.', '}']
  | around false => .ofChars ['[', '.', '.', '.', ']']

/-- How the items of a list are shown. -/
def quotedAll : List Value → List Text
  | [] => []
  | v :: vs => v.quoted :: quotedAll vs

/-- How the entries of a map are shown. -/
def quotedEntries : List (Value × Value) → List Text
  | [] => []
  | (k, v) :: es => (k.quoted ++ .ofChars [':', ' '] ++ v.quoted) :: quotedEntries es

end

/-- How reports show a value: a text as it is, and a date or a time in figures. -/
def shown : Value → Text
  | text t => t
  | date d => d.text
  | moment m => m.text
  | v => v.quoted

end Value
end Elementwise
