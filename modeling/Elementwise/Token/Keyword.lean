import Elementwise.CodePoint

/-!
# Keywords

The words that are no identifiers.  Most are reserved everywhere; seven more are reserved in strict
code only (`Keyword.isStrictOnly`).
-/

set_option autoImplicit false
namespace Elementwise

/-- A reserved word. -/
inductive Keyword where
  | break_ | case_ | catch_ | class_ | const_ | continue_ | debugger | default_ | delete | do_
  | else_ | enum | export_ | extends_ | finally_ | for_ | function | if_ | import_ | in_
  | instanceof | let_ | new | return_ | super | switch | this | throw | try_ | typeof | var
  | void | while_ | with_ | yield
  | implements | interface | package | private_ | protected_ | public_ | static
deriving DecidableEq, Inhabited, Repr

namespace Keyword

/-- How a keyword is written. -/
def spelling : Keyword → List Char
  | break_ => ['b', 'r', 'e', 'a', 'k']
  | case_ => ['c', 'a', 's', 'e']
  | catch_ => ['c', 'a', 't', 'c', 'h']
  | class_ => ['c', 'l', 'a', 's', 's']
  | const_ => ['c', 'o', 'n', 's', 't']
  | continue_ => ['c', 'o', 'n', 't', 'i', 'n', 'u', 'e']
  | debugger => ['d', 'e', 'b', 'u', 'g', 'g', 'e', 'r']
  | default_ => ['d', 'e', 'f', 'a', 'u', 'l', 't']
  | delete => ['d', 'e', 'l', 'e', 't', 'e']
  | do_ => ['d', 'o']
  | else_ => ['e', 'l', 's', 'e']
  | enum => ['e', 'n', 'u', 'm']
  | export_ => ['e', 'x', 'p', 'o', 'r', 't']
  | extends_ => ['e', 'x', 't', 'e', 'n', 'd', 's']
  | finally_ => ['f', 'i', 'n', 'a', 'l', 'l', 'y']
  | for_ => ['f', 'o', 'r']
  | function => ['f', 'u', 'n', 'c', 't', 'i', 'o', 'n']
  | if_ => ['i', 'f']
  | import_ => ['i', 'm', 'p', 'o', 'r', 't']
  | in_ => ['i', 'n']
  | instanceof => ['i', 'n', 's', 't', 'a', 'n', 'c', 'e', 'o', 'f']
  | let_ => ['l', 'e', 't']
  | new => ['n', 'e', 'w']
  | return_ => ['r', 'e', 't', 'u', 'r', 'n']
  | super => ['s', 'u', 'p', 'e', 'r']
  | switch => ['s', 'w', 'i', 't', 'c', 'h']
  | this => ['t', 'h', 'i', 's']
  | throw => ['t', 'h', 'r', 'o', 'w']
  | try_ => ['t', 'r', 'y']
  | typeof => ['t', 'y', 'p', 'e', 'o', 'f']
  | var => ['v', 'a', 'r']
  | void => ['v', 'o', 'i', 'd']
  | while_ => ['w', 'h', 'i', 'l', 'e']
  | with_ => ['w', 'i', 't', 'h']
  | yield => ['y', 'i', 'e', 'l', 'd']
  | implements => ['i', 'm', 'p', 'l', 'e', 'm', 'e', 'n', 't', 's']
  | interface => ['i', 'n', 't', 'e', 'r', 'f', 'a', 'c', 'e']
  | package => ['p', 'a', 'c', 'k', 'a', 'g', 'e']
  | private_ => ['p', 'r', 'i', 'v', 'a', 't', 'e']
  | protected_ => ['p', 'r', 'o', 't', 'e', 'c', 't', 'e', 'd']
  | public_ => ['p', 'u', 'b', 'l', 'i', 'c']
  | static => ['s', 't', 'a', 't', 'i', 'c']

/-- The text of a keyword. -/
def text (k : Keyword) : Text := .ofChars k.spelling

/-- All keywords. -/
def all : List Keyword :=
  [break_, case_, catch_, class_, const_, continue_, debugger, default_, delete, do_, else_, enum,
   export_, extends_, finally_, for_, function, if_, import_, in_, instanceof, let_, new, return_,
   super, switch, this, throw, try_, typeof, var, void, while_, with_, yield, implements, interface,
   package, private_, protected_, public_, static]

/-- The keyword with a given text. -/
def ofText? (t : Text) : Option Keyword := all.find? fun k => k.text = t

/-- The words that are identifiers in sloppy code and keywords in strict code. -/
def isStrictOnly : Keyword → Bool
  | implements | interface | package | private_ | protected_ | public_ | static => true
  | _ => false

/-- The words that strict code does not allow as names: those above with `let` and `yield`. -/
def isStrictReserved (k : Keyword) : Bool := k.isStrictOnly || k = let_ || k = yield

/-- The words kept for later use. -/
def isFutureReserved (k : Keyword) : Bool := k = enum || k = export_ || k = import_ || k = super

/-- The list of keywords is complete. -/
theorem mem_all (k : Keyword) : k ∈ all := by cases k <;> decide

/-- No two keywords are written alike, so reading back a keyword's text gives that keyword. -/
theorem ofText?_text (k : Keyword) : ofText? k.text = some k := by cases k <;> decide +kernel

end Keyword

/-! ## Names with a rôle of their own -/

namespace Word

/-- The name that no routine may use. -/
def eval : Text := .ofChars ['e', 'v', 'a', 'l']

/-- With `eval`, a name that strict code cannot bind. -/
def arguments : Text := .ofChars ['a', 'r', 'g', 'u', 'm', 'e', 'n', 't', 's']

/-- In front of a function on the same line, marks it as asynchronous. -/
def async : Text := .ofChars ['a', 's', 'y', 'n', 'c']

/-- Waits, in an asynchronous function. -/
def await : Text := .ofChars ['a', 'w', 'a', 'i', 't']

/-- In front of a property key, makes a getter. -/
def get : Text := .ofChars ['g', 'e', 't']

/-- In front of a property key, makes a setter. -/
def set : Text := .ofChars ['s', 'e', 't']

/-- Separates target and values of an iterating loop. -/
def of : Text := .ofChars ['o', 'f']

/-- The property of `new` in `new.target`. -/
def target : Text := .ofChars ['t', 'a', 'r', 'g', 'e', 't']

/-- The key of a class constructor. -/
def constructor : Text :=
  .ofChars ['c', 'o', 'n', 's', 't', 'r', 'u', 'c', 't', 'o', 'r']

/-- A key no static class member may have. -/
def prototype : Text := .ofChars ['p', 'r', 'o', 't', 'o', 't', 'y', 'p', 'e']

/-- The key that an object literal may set only once. -/
def proto : Text := .ofChars ['_', '_', 'p', 'r', 'o', 't', 'o', '_', '_']

/-- The directive that makes code strict. -/
def useStrict : Text := .ofChars ['u', 's', 'e', ' ', 's', 't', 'r', 'i', 'c', 't']

/-- The literal without value. -/
def null : Text := .ofChars ['n', 'u', 'l', 'l']

/-- The literal of truth. -/
def true : Text := .ofChars ['t', 'r', 'u', 'e']

/-- The literal of falsehood. -/
def false : Text := .ofChars ['f', 'a', 'l', 's', 'e']

/-- Whether strict code refuses to bind a name. -/
def isRestricted (name : Text) : Bool := name = eval || name = arguments

/-- Whether strict code reserves a name. -/
def isStrictReserved (name : Text) : Bool :=
  (Keyword.ofText? name).any Keyword.isStrictReserved

end Word
end Elementwise
