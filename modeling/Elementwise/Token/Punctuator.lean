import Elementwise.CodePoint

/-!
# Operators and punctuators

Binary operators, and the punctuators that are read as single tokens.  Reading takes the longest
punctuator that begins a text: the table `Punctuator.all` lists longer spellings first.
-/

set_option autoImplicit false
namespace Elementwise

/-- A binary operator. -/
inductive BinaryOp where
  | or | and | bitOr | bitXor | bitAnd
  | equal | notEqual | same | notSame
  | less | greater | lessEqual | greaterEqual | instanceof | in_
  | shiftLeft | shiftRight | shiftRightUnsigned
  | plus | minus | times | divide | remainder | power
deriving DecidableEq, Inhabited, Repr

namespace BinaryOp

/-- How a binary operator is written. -/
def spelling : BinaryOp → List Char
  | or => ['|', '|']
  | and => ['&', '&']
  | bitOr => ['|']
  | bitXor => ['^']
  | bitAnd => ['&']
  | equal => ['=', '=']
  | notEqual => ['!', '=']
  | same => ['=', '=', '=']
  | notSame => ['!', '=', '=']
  | less => ['<']
  | greater => ['>']
  | lessEqual => ['<', '=']
  | greaterEqual => ['>', '=']
  | instanceof => ['i', 'n', 's', 't', 'a', 'n', 'c', 'e', 'o', 'f']
  | in_ => ['i', 'n']
  | shiftLeft => ['<', '<']
  | shiftRight => ['>', '>']
  | shiftRightUnsigned => ['>', '>', '>']
  | plus => ['+']
  | minus => ['-']
  | times => ['*']
  | divide => ['/']
  | remainder => ['%']
  | power => ['*', '*']

/-- How tightly an operator binds its operands.  The power operator is not among the operators that
are grouped by strength: it binds its right operand first. -/
def strength : BinaryOp → Nat
  | or => 1
  | and => 2
  | bitOr => 3
  | bitXor => 4
  | bitAnd => 5
  | equal | notEqual | same | notSame => 6
  | less | greater | lessEqual | greaterEqual | instanceof | in_ => 7
  | shiftLeft | shiftRight | shiftRightUnsigned => 8
  | plus | minus => 9
  | times | divide | remainder => 11
  | power => 0

/-- The operators that evaluate their right operand only if they need it. -/
def isLogical (op : BinaryOp) : Bool := op = or || op = and

end BinaryOp

/-- A punctuator. -/
inductive Punctuator where
  | leftParen | rightParen | leftBrace | rightBrace | leftBracket | rightBracket
  | dot | ellipsis | semicolon | comma | colon | question | tilde | bang | arrow
  | increment | decrement
  /-- A symbol between two operands; some of these symbols have further uses. -/
  | operator (op : BinaryOp)
  /-- `=`, or an operator with `=` behind it. -/
  | assign (op : Option BinaryOp)
deriving DecidableEq, Inhabited, Repr

namespace Punctuator

/-- How a punctuator is written. -/
def spelling : Punctuator → List Char
  | leftParen => ['(']
  | rightParen => [')']
  | leftBrace => ['{']
  | rightBrace => ['}']
  | leftBracket => ['[']
  | rightBracket => [']']
  | dot => ['.']
  | ellipsis => ['.', '.', '.']
  | semicolon => [';']
  | comma => [',']
  | colon => [':']
  | question => ['?']
  | tilde => ['~']
  | bang => ['!']
  | arrow => ['=', '>']
  | increment => ['+', '+']
  | decrement => ['-', '-']
  | operator op => op.spelling
  | assign none => ['=']
  | assign (some op) => op.spelling ++ ['=']

/-- The text of a punctuator. -/
def text (p : Punctuator) : Text := .ofChars p.spelling

/-- All punctuators, longer ones first. -/
def all : List Punctuator :=
  [leftParen, rightParen, semicolon, comma, leftBrace, rightBrace, leftBracket, rightBracket,
   colon, question, tilde,
   assign (some .shiftRightUnsigned),
   ellipsis, operator .same, operator .notSame, operator .shiftRightUnsigned,
   assign (some .shiftLeft), assign (some .shiftRight), assign (some .power),
   operator .and, operator .or, operator .equal, operator .notEqual, assign (some .plus),
   assign (some .minus), assign (some .times), assign (some .divide), increment, decrement,
   operator .shiftLeft, operator .shiftRight, assign (some .bitAnd), assign (some .bitOr),
   assign (some .bitXor), assign (some .remainder), operator .lessEqual, operator .greaterEqual,
   arrow, operator .power,
   dot, operator .less, operator .greater, assign none, bang, operator .plus, operator .minus,
   operator .times, operator .remainder, operator .bitAnd, operator .bitOr, operator .bitXor,
   operator .divide]

/-- The longest punctuator with which a text begins. -/
def longest? (t : Text) : Option Punctuator := all.find? fun p => p.text.isPrefixOf t

end Punctuator
end Elementwise
