import Elementwise.CodePoint
import Elementwise.Unicode.Digit

/-!
# Generated names

Every compilation has a prefix of its own.  Parameters and local variables get names that begin with
it; a property of `this` gets a name that all compilations share.  Names and strings are escaped so
that no escaped text can be mistaken for a generated name: an underscore in a name is doubled, and
in a string it stands behind a backslash.
-/

set_option autoImplicit false
namespace Elementwise

/-- The underscore, which delimits the parts of generated names. -/
def underscore : CodePoint := .scalar '_'

/-- A name with every underscore doubled. -/
def escapeIdentifier (name : Text) : Text :=
  name.flatMap fun c => if c = underscore then [c, c] else [c]

/-- How one code point of a string is written between single quotes. -/
def escapeStringChar (c : CodePoint) : Text :=
  match c with
  | .scalar '\\' => ['\\', '\\']
  | .scalar '\x27' => ['\\', '\x27']
  | .scalar '\n' => ['\\', 'n']
  | .scalar '\r' => ['\\', 'r']
  | .scalar '\u2028' => ['\\', 'u', '2', '0', '2', '8']
  | .scalar '\u2029' => ['\\', 'u', '2', '0', '2', '9']
  | .scalar '_' => ['\\', '_']
  | c => [c]

/-- A string as a literal in single quotes. -/
def escapeString (value : Text) : Text :=
  .scalar '\x27' :: value.flatMap escapeStringChar ++ [.scalar '\x27']

/-- A list without the names that occurred before. -/
def uniqueNames (names : List Text) : List Text :=
  (names.foldl (fun seen name => if name ∈ seen then seen else name :: seen) []).reverse

/-- Generates the names of one compilation and remembers those of local variables and of properties,
in the order of their use. -/
structure Namer where
  /-- What the names of this compilation begin with. -/
  scope : Text
  /-- What the prefixes of all compilations begin with. -/
  stem : Text
  locals : List Text := []
  properties : List Text := []
deriving DecidableEq, Inhabited, Repr

namespace Namer

/-- What stands between a prefix and the number of a parameter. -/
def argumentWord : Text := .ofChars ['a', 'r', 'g']

/-- What the names of properties begin with. -/
def propertyWord : Text := .ofChars ['t', 'h', 'i', 's', '_']

/-- The name of a parameter, given how its position is written. -/
def argumentAt (n : Namer) (position : Text) : Text :=
  n.scope ++ argumentWord ++ position ++ [underscore]

/-- The name of the parameter at a position. -/
def argument (n : Namer) (index : Int) : Text := n.argumentAt (.ofInt index)

/-- The name of a local variable. -/
def localName (n : Namer) (name : Text) : Text := n.scope ++ escapeIdentifier name

/-- The name of a property of `this`. -/
def propertyName (name : Text) : Text := propertyWord ++ escapeIdentifier name

/-- The name of a local variable, which is remembered. -/
def useLocal (n : Namer) (name : Text) : Text × Namer :=
  let generated := n.localName name
  (generated, { n with locals := n.locals ++ [generated] })

/-- The name of a property of `this`, which is remembered. -/
def useProperty (n : Namer) (name : Text) : Text × Namer :=
  let generated := propertyName name
  (generated, { n with properties := n.properties ++ [generated] })

/-- Whether a name begins like a call's prefix: the stem, a number in digits of any script, and an
underscore. -/
def hasPrefixShape (stem name : Text) : Bool :=
  stem.isPrefixOf name &&
    (let rest := name.drop stem.length
     (rest.head?.any CodePoint.isDecimal) &&
       (rest.dropWhile CodePoint.isDecimal).head? = some underscore)

/-- Whether a name has the shape of a generated one, under any number. -/
def looksSynthetic (n : Namer) (name : Text) : Bool :=
  hasPrefixShape n.stem name || propertyWord.isPrefixOf name

/-- The names of local variables used so far. -/
def localNames (n : Namer) : List Text := uniqueNames n.locals

/-- The names of properties used so far. -/
def propertyNames (n : Namer) : List Text := uniqueNames n.properties

end Namer
end Elementwise
