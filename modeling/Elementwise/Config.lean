import Elementwise.Failure
import Elementwise.Token.Keyword

/-!
# Configuration

Which names are ambient globals, left as they are written, and what the prefixes of generated names
begin with.

* `Config.validate` — what is wrong with a configuration, as a list of messages; `Config.check`
  gives the list, unless a message cannot be put together.
* `Config.withGlobals` — a configuration with more globals.
-/

set_option autoImplicit false
namespace Elementwise

/-! ## Sets of names -/

namespace Names

/-- Puts a name into a list of names in increasing order, unless it is there. -/
def insert (name : Text) : List Text → List Text
  | [] => [name]
  | n :: ns =>
    if name = n then n :: ns else if Text.le name n then name :: n :: ns else n :: insert name ns

/-- The names of a list in increasing order, each once. -/
def sorted (names : List Text) : List Text := names.foldl (fun ns n => insert n ns) []

end Names

/-! ## Configurations -/

/-- A configuration.  The globals stand in increasing order, each once.  The stem is what a
configuration file or a caller gave, and a valid one is a text. -/
structure Config where
  globals : List Text
  stem : Value
deriving Inhabited, Repr

namespace Config

/-- The standard built-ins and the globals of hosts that routines use most. -/
def defaultGlobals : List Text :=
  ["Array", "ArrayBuffer", "BigInt", "BigInt64Array", "BigUint64Array", "Boolean", "DataView",
   "Date", "Error", "EvalError", "Float32Array", "Float64Array", "Function", "Infinity",
   "Int16Array", "Int32Array", "Int8Array", "Intl", "JSON", "Map", "Math", "NaN", "Number",
   "Object", "Promise", "Proxy", "RangeError", "ReferenceError", "Reflect", "RegExp", "Set",
   "String", "Symbol", "SyntaxError", "TypeError", "URIError", "Uint16Array", "Uint32Array",
   "Uint8Array", "Uint8ClampedArray", "WeakMap", "WeakSet", "console", "decodeURI",
   "decodeURIComponent", "encodeURI", "encodeURIComponent", "globalThis", "isFinite", "isNaN",
   "parseFloat", "parseInt", "undefined"].map Text.ofString

/-- The stem of prefixes if none is given. -/
def defaultStem : Text :=
  .ofChars ['_', 'i', 'n', 'l', 'i', 'n', 'e', '_']

/-- The configuration if none is given. -/
def default : Config := ⟨defaultGlobals, .text defaultStem⟩

/-- A configuration with the given globals, in any order. -/
def ofNames (globals : List Text) (stem : Value) : Config := ⟨Names.sorted globals, stem⟩

/-- A configuration with more globals. -/
def withGlobals (c : Config) (names : List Text) : Config :=
  { c with globals := names.foldl (fun ns n => Names.insert n ns) c.globals }

/-- Whether a configuration is the one used if none is given. -/
def isDefault (c : Config) : Bool :=
  c.globals = default.globals && c.stem.text? = some defaultStem

/-- Whether two valid configurations are equal. -/
def same (c d : Config) : Bool :=
  c.globals = d.globals && c.stem.text? = d.stem.text? && c.stem.text?.isSome

/-! ## Validation -/

/-- The characters with which a configured name may start. -/
def startsName : CodePoint → Bool
  | .scalar c => c.isAlpha || c = '_' || c = '$'
  | .surrogate _ => false

/-- The characters a configured name may hold. -/
def continuesName (c : CodePoint) : Bool := startsName c || c.isDigit

/-- Whether a text is a name made of ASCII letters, digits, underscores and dollars. -/
def isName : Text → Bool
  | [] => false
  | c :: t => startsName c && t.all continuesName

/-- Whether a text is taken for a name: a line feed at its end is overlooked. -/
def isAcceptedName (t : Text) : Bool :=
  isName t || (t.getLast? = some '\n' && isName t.dropLast)

/-- What is wrong with the stem. -/
def stemErrors (stem : Value) : List Text :=
  match stem.text?.filter isAcceptedName with
  | none => [.ofString "prefix_stem must be an identifier: " ++ stem.quoted]
  | some t =>
    if t.getLast? = some '_' then []
    else [.ofString "prefix_stem must end with '_': " ++ stem.quoted]

/-- What is wrong with a configuration, if its stem can be shown. -/
def validate (c : Config) : List Text :=
  stemErrors c.stem ++
    ((c.globals.filter fun name => !isAcceptedName name).map fun name =>
      .ofString "Global is not an identifier: " ++ Quoted.text name) ++
    (if Word.eval ∈ c.globals then [.ofString "'eval' can never be an ambient global"] else [])

/-- Looks for what is wrong with a configuration.  A stem that is no text has to be shown, which
fails if it holds a number that has no text. -/
def check (c : Config) : Except ConversionFault (List Text) :=
  if c.stem.hasLongNumber then .error .longNumber else .ok c.validate

end Config
end Elementwise
