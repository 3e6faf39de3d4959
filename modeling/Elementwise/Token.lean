import Elementwise.Place
import Elementwise.Token.Keyword
import Elementwise.Token.Punctuator

/-!
# Tokens

A token is the smallest part of a routine's source that the grammar sees.  Reading one is the work
of `Elementwise.Token.Lexer`; the modules beside this one read the single kinds.
-/

set_option autoImplicit false
namespace Elementwise

/-- An exact decimal number: `digits * 10 ^ exponent`. -/
structure Numeral where
  digits : Nat
  exponent : Int
deriving DecidableEq, Inhabited, Repr

/-- What a token is, with the value it denotes. -/
inductive TokenKind where
  | endOfText
  | identifier (name : Text)
  | keyword (word : Keyword)
  | null
  | boolean (value : Bool)
  /-- `octal` marks a numeral in the old octal notation. -/
  | number (value : Numeral) (octal : Bool)
  /-- `raw` is the text between the quotes; `octal` marks an octal escape in it. -/
  | string (value raw : Text) (octal : Bool)
  /-- A piece of a template: the text between two of its delimiters.  `head` marks the first piece
  of a template and `tail` the last. -/
  | template (raw cooked : Text) (head tail : Bool)
  | punctuator (symbol : Punctuator)
deriving DecidableEq, Inhabited, Repr

/-- A token with the offsets it covers and the line on which it ends. -/
structure Token where
  kind : TokenKind
  span : Span
  line : Nat
deriving DecidableEq, Inhabited, Repr

namespace Token

/-- The text a token carries: the value of a string, and the spelling of a word or symbol.  A
number carries none. -/
def text (t : Token) : Text :=
  match t.kind with
  | .endOfText | .number .. => []
  | .identifier name => name
  | .keyword word => word.text
  | .null => Word.null
  | .boolean true => Word.true
  | .boolean false => Word.false
  | .string value _ _ => value
  | .template raw _ _ _ => raw
  | .punctuator symbol => symbol.text

/-- Whether a token is written as a name: an identifier or one of the words that look like one. -/
def isWord (t : Token) : Bool :=
  match t.kind with
  | .identifier _ | .keyword _ | .boolean _ | .null => true
  | _ => false

/-- Whether a property key can start with a token. -/
def startsKey (t : Token) : Bool :=
  match t.kind with
  | .string .. | .number .. => true
  | .punctuator .leftBracket => true
  | _ => t.isWord

/-- Whether a token was written in an octal notation that strict code refuses. -/
def isOctal (t : Token) : Bool :=
  match t.kind with
  | .number _ octal => octal
  | .string _ _ octal => octal
  | _ => false

/-- Whether a token is an identifier of a given name. -/
def isNamed (t : Token) (name : Text) : Bool :=
  match t.kind with
  | .identifier n => n = name
  | _ => false

end Token
end Elementwise
