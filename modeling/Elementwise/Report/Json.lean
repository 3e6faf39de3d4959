import Elementwise.Data.Quoted

/-!
# JSON texts

Values written as JSON in printable ASCII: every other character of a string is escaped, beyond the
basic plane as a pair of surrogates.  `Json.compact` writes a value on one line, `Json.indented`
with two blanks for every level.
-/

set_option autoImplicit false
namespace Elementwise
namespace Json

/-- The escape of a number below `0x10000`. -/
def unit (n : Nat) : Text := '\\' :: 'u' :: Text.ofHex 4 n

/-- How a code point of a string is written. -/
def escape (c : CodePoint) : Text :=
  if c = '\x22' then ['\\', '\x22']
  else if c = '\\' then ['\\', '\\']
  else if c = '\n' then ['\\', 'n']
  else if c = '\r' then ['\\', 'r']
  else if c = '\t' then ['\\', 't']
  else if c = '\x08' then ['\\', 'b']
  else if c = '\x0c' then ['\\', 'f']
  else if 0x20 ≤ c.val && c.val < 0x7f then [c]
  else if c.val < 0x10000 then unit c.val
  else
    let n := c.val - 0x10000
    unit (0xD800 + n / 0x400) ++ unit (0xDC00 + n % 0x400)

/-- A string. -/
def string (t : Text) : Text := .scalar '\x22' :: t.flatMap escape ++ [.scalar '\x22']

/-- A double; infinities and the value that is no number have names. -/
def float : Binary64 → Text
  | .nan => .ofString "NaN"
  | .infinite false => .ofString "Infinity"
  | .infinite true => .ofString "-Infinity"
  | x => x.text

/-- The text of a key. -/
def key : Value → Text
  | .text t => string t
  | .null => string (.ofString "null")
  | .boolean true => string (.ofString "true")
  | .boolean false => string (.ofString "false")
  | v => string v.shown

/-- A line break with the indentation of a level. -/
def newLine (level : Nat) : Text := .scalar '\n' :: List.replicate (2 * level) (.scalar ' ')

/-- Items between brackets, each on a line of its own. -/
def bracket (opening closing : CodePoint) (level : Nat) : List Text → Text
  | [] => [opening, closing]
  | items =>
    opening :: newLine (level + 1) ++ Text.join (.scalar ',' :: newLine (level + 1)) items ++
      newLine level ++ [closing]

mutual

/-- A value with its parts on lines of their own, from a level of indentation. -/
def indented (level : Nat) : Value → Text
  | .null => .ofString "null"
  | .boolean true => .ofString "true"
  | .boolean false => .ofString "false"
  | .integer n => .ofInt n
  | .float x => float x
  | .text t => string t
  | .list items => bracket '[' ']' level (indentedAll (level + 1) items)
  | .map entries => bracket '{' '}' level (indentedEntries (level + 1) entries)
  | .set members => bracket '[' ']' level (indentedAll (level + 1) members)
  | .pair v w => bracket '[' ']' level [indented (level + 1) v, indented (level + 1) w]
  | v => string v.shown

/-- The items of a list. -/
def indentedAll (level : Nat) : List Value → List Text
  | [] => []
  | v :: vs => indented level v :: indentedAll level vs

/-- The entries of a map. -/
def indentedEntries (level : Nat) : List (Value × Value) → List Text
  | [] => []
  | (k, v) :: es => (key k ++ .ofChars [':', ' '] ++ indented level v) :: indentedEntries level es

end

mutual

/-- A value on one line. -/
def compact : Value → Text
  | .null => .ofString "null"
  | .boolean true => .ofString "true"
  | .boolean false => .ofString "false"
  | .integer n => .ofInt n
  | .float x => float x
  | .text t => string t
  | .list items => .scalar '[' :: Text.join [.scalar ','] (compactAll items) ++ [.scalar ']']
  | .map entries => .scalar '{' :: Text.join [.scalar ','] (compactEntries entries) ++ [.scalar '}']
  | .set members => .scalar '[' :: Text.join [.scalar ','] (compactAll members) ++ [.scalar ']']
  | .pair v w => .scalar '[' :: compact v ++ .scalar ',' :: compact w ++ [.scalar ']']
  | v => string v.shown

/-- The items of a list. -/
def compactAll : List Value → List Text
  | [] => []
  | v :: vs => compact v :: compactAll vs

/-- The entries of a map. -/
def compactEntries : List (Value × Value) → List Text
  | [] => []
  | (k, v) :: es => (key k ++ .ofChars [':'] ++ compact v) :: compactEntries es

end

end Json
end Elementwise
