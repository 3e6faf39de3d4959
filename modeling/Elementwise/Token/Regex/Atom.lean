import Elementwise.Token.Escape

/-!
# Parts of regular expressions

The smallest parts of the patterns of regular expressions: escapes and classes.  An escaped letter
must be one that means something, and a range in a class must not run backwards.

With the flag `u` the escapes of code points are resolved before the pattern is read, so a resolved
character counts as if it had been written itself.

* `Regex.resolve?` — a pattern with its escapes of code points resolved.
* `Regex.class?` — what follows a class.
-/

set_option autoImplicit false
namespace Elementwise
namespace Regex

/-! ## Escapes of code points -/

/-- What an escaped character beyond the basic plane counts as. -/
def astral : CodePoint := '\uffff'

/-- The digits of an escape of a code point behind its `u`: four of them, or any number in
braces. -/
def codePointDigits? : Text → Option (Nat × Text)
  | .scalar '{' :: t =>
    let digits := t.takeWhile fun c => c.hexValue?.isSome
    match t.drop digits.length with
    | .scalar '}' :: rest =>
      if digits.isEmpty then none else some (Text.toNat 16 digits, rest)
    | _ => none
  | t =>
    match Escape.hexDigits 4 0 default t with
    | (some n, _, rest) => some (n, rest)
    | (none, _, _) => none

/-- Resolves the escapes of code points one after another; none if one lies beyond the last code
point. -/
def resolveEscapes? : Nat → Text → Option Text
  | fuel + 1, .scalar '\\' :: .scalar 'u' :: t =>
    match codePointDigits? t with
    | some (n, rest) =>
      if n ≤ 0x10FFFF then
        (resolveEscapes? fuel rest).map fun t => (if n ≤ 0xFFFF then .ofNat n else astral) :: t
      else none
    | none => (resolveEscapes? fuel (.scalar 'u' :: t)).map (.scalar '\\' :: ·)
  | fuel + 1, c :: t => (resolveEscapes? fuel t).map (c :: ·)
  | _, [] => some []
  | 0, _ => none

/-- Puts one character for each pair of surrogates. -/
def joinPairs : Text → Text
  | .surrogate a :: .surrogate b :: t =>
    if a.val < 0x400 ∧ 0x400 ≤ b.val then astral :: joinPairs t
    else .surrogate a :: joinPairs (.surrogate b :: t)
  | c :: t => c :: joinPairs t
  | [] => []

/-- A pattern with its escapes of code points resolved; none if one lies beyond the last code
point. -/
def resolve? (pattern : Text) : Option Text :=
  (resolveEscapes? pattern.length pattern).map joinPairs

/-! ## Escapes -/

/-- The number of hexadecimal digits behind a letter that names an escape by number. -/
def escapeWidth? : CodePoint → Option Nat
  | .scalar 'x' => some 2
  | .scalar 'u' => some 4
  | .scalar 'U' => some 8
  | _ => none

/-- The characters in the names of characters. -/
def isNameLetter : CodePoint → Bool
  | .scalar c => c.isAlphanum || c = ' ' || c = '-'
  | .surrogate _ => false

/-- Passes the name of a character in braces. -/
def characterName? : Text → Option Text
  | .scalar '{' :: t =>
    let name := t.takeWhile isNameLetter
    match t.drop name.length with
    | .scalar '}' :: rest => if name.isEmpty then none else some rest
    | _ => none
  | _ => none

/-- Reads an escape by number behind its letter.  In front of a brace an escaped `u` is the letter
itself, unless the flag `u` is set. -/
def numbered? (isUnicode : Bool) (letter : CodePoint) (width : Nat) (t : Text) :
    Option (CodePoint × Text) :=
  match Escape.hexDigits width 0 default t with
  | (some n, _, rest) => (CodePoint.ofNat? n).map fun c => (c, rest)
  | (none, _, _) =>
    if letter = 'u' && t.head? = some '{' && !isUnicode then some (letter, t) else none

/-- Whether an escaped letter stands for a set of characters. -/
def namesSet (c : CodePoint) : Bool :=
  c = 'd' || c = 'D' || c = 's' || c = 'S' || c = 'w' || c = 'W'

/-- Whether an escaped letter stands for a place between characters. -/
def namesPlace (c : CodePoint) : Bool := c = 'b' || c = 'B' || c = 'A' || c = 'Z'

/-- The control character that an escaped letter stands for. -/
def control? : CodePoint → Option CodePoint
  | .scalar 'a' => some '\x07'
  | c => Escape.control? c

/-- Whether a code point is an ASCII letter. -/
def isLetter : CodePoint → Bool
  | .scalar c => c.isAlpha
  | .surrogate _ => false

/-- The character that three octal digits stand for; it lies below 256. -/
def octal? (c d e : CodePoint) : Option CodePoint :=
  let n := c.digitValue * 64 + d.digitValue * 8 + e.digitValue
  if n ≤ 0xFF then some (.ofNat n) else none

/-! ## Classes -/

/-- Reads an escape in a class behind its backslash: the code point it stands for, or none for a set
of characters. -/
def classEscape? (isUnicode : Bool) : Text → Option (Option CodePoint × Text)
  | [] => none
  | c :: t =>
    if namesSet c then some (none, t)
    else if c = 'N' then (characterName? t).map fun rest => (some c, rest)
    else if c.isOctalDigit then
      match t with
      | d :: e :: rest =>
        if d.isOctalDigit && e.isOctalDigit then (octal? c d e).map fun n => (some n, rest)
        else if d.isOctalDigit then some (octal? '0' c d, e :: rest)
        else some (octal? '0' '0' c, t)
      | [d] =>
        if d.isOctalDigit then some (octal? '0' c d, []) else some (octal? '0' '0' c, [d])
      | [] => some (octal? '0' '0' c, [])
    else
      match control? c, escapeWidth? c with
      | some d, _ => some (some d, t)
      | none, some width =>
        (numbered? isUnicode c width t).map fun (d, rest) => (some d, rest)
      | none, none => if isLetter c || c.isDigit then none else some (some c, t)

/-- Reads one member of a class: the code point it stands for, or none for a set of characters. -/
def classMember? (isUnicode : Bool) : Text → Option (Option CodePoint × Text)
  | .scalar '\\' :: t => classEscape? isUnicode t
  | c :: t => some (some c, t)
  | [] => none

/-- Reads the members of a class up to the bracket that closes it; none if a range of it runs
backwards or has a set of characters for an end. -/
def classRest? (isUnicode : Bool) : Nat → Text → Option Text
  | _, .scalar ']' :: t => some t
  | 0, _ => none
  | fuel + 1, t =>
    match classMember? isUnicode t with
    | none => none
    | some (low, rest) =>
      match rest with
      | .scalar '-' :: .scalar ']' :: rest => some rest
      | .scalar '-' :: rest =>
        match low, classMember? isUnicode rest with
        | some a, some (some b, rest) =>
          if a.val ≤ b.val then classRest? isUnicode fuel rest else none
        | _, _ => none
      | _ => classRest? isUnicode fuel rest

/-- Reads a class behind its opening bracket.  A bracket that closes it at once stands for
itself. -/
def class? (isUnicode : Bool) (t : Text) : Option Text :=
  let t := match t with
    | .scalar '^' :: t => t
    | t => t
  match t with
  | .scalar ']' :: _ => classRest? isUnicode t.length (.scalar '\\' :: t)
  | t => classRest? isUnicode t.length t

end Regex
end Elementwise
