import Elementwise.Yaml.Scalar

/-!
# How texts are written in configuration files

A text is written without quotes if that reads back as the same text, else in single quotes, and in
double quotes with escapes if it holds characters that single quotes cannot keep.
-/

set_option autoImplicit false
namespace Elementwise
namespace Yaml

/-- The ways to write a text. -/
inductive Style where
  | plain
  | single
  | double
deriving DecidableEq, Inhabited, Repr

namespace Style

/-- The characters that need no escape: printable ASCII and line feeds. -/
def isOrdinary (c : CodePoint) : Bool := c = '\n' || (0x20 ≤ c.val && c.val ≤ 0x7e)

/-- Whether a blank stands next to a line feed. -/
def hasBlankAtLineEnd : Text → Bool
  | c :: d :: t =>
    (c = ' ' && d = '\n') || (c = '\n' && d = ' ') || hasBlankAtLineEnd (d :: t)
  | _ => false

/-- Whether single quotes keep a text. -/
def fitsSingle (t : Text) : Bool := t.all isOrdinary && !hasBlankAtLineEnd t

/-- The characters that mean something else at the beginning of a scalar. -/
def marks : List Char :=
  ['#', ',', '[', ']', '\x7b', '\x7d', '&', '*', '!', '|', '>', '\x27', '\x22', '%', '@', '\x60']

/-- Whether a blank or nothing comes next. -/
def atBlank (t : Text) : Bool := t.head?.all fun c => c = .scalar ' '

/-- Whether a text starts like something else than a scalar. -/
def startsOtherwise : Text → Bool
  | [] => false
  | c :: t =>
    marks.any (fun m => c = .scalar m) ||
      ((c = '?' || c = ':' || c = '-') && atBlank t) ||
      (Text.ofChars ['-', '-', '-']).isPrefixOf (c :: t) ||
      (Text.ofChars ['.', '.', '.']).isPrefixOf (c :: t)

/-- Whether a scalar would end in the middle of a text: at a colon with a blank behind it, or at a
hash sign with a blank in front of it. -/
def endsEarly : Text → Bool
  | [] => false
  | c :: t =>
    (c = ':' && atBlank t) || (c = ' ' && t.head? = some (.scalar '#')) || endsEarly t

/-- Whether a blank stands at the end of a text. -/
def hasOuterBlank (t : Text) : Bool :=
  t.head? = some (.scalar ' ') || t.getLast? = some (.scalar ' ')

/-- Whether a text can be written without quotes. -/
def fitsPlain (t : Text) : Bool :=
  t.all isOrdinary && !t.contains (.scalar '\n') && !hasOuterBlank t && !startsOtherwise t &&
    !endsEarly (t.drop 1) && kindOf t = .text

/-- How a text is written. -/
def ofText (t : Text) : Style :=
  if fitsPlain t then .plain else if fitsSingle t then .single else .double

end Style
end Yaml
end Elementwise
