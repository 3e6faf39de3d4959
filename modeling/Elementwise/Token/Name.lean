import Elementwise.Token
import Elementwise.Token.Escape
import Elementwise.Unicode.Identifier

/-!
# Names

Identifiers and the words that look like them.  A name may hold Unicode escapes, and its value is
the text with the escapes decoded; a reserved word must be written without escapes.
-/

set_option autoImplicit false
namespace Elementwise
namespace Name

/-- Reads a Unicode escape in a name, behind the backslash.  An escape of four digits must denote a
character that `allowed` admits; a braced one may denote any. -/
def escape (allowed : CodePoint → Bool) (p : Place) :
    Text → Except ParseError (CodePoint × Place × Text)
  | .scalar 'u' :: .scalar '{' :: t => Escape.braced (p.step 2) t
  | .scalar 'u' :: t =>
    match Escape.hexDigits 4 0 (p.step 1) t with
    | (some n, p', t') =>
      let c := CodePoint.ofNat n
      if c != '\\' && allowed c then .ok (c, p', t') else .error (p'.fault .illegal)
    | (none, p', _) => .error (p'.fault .illegal)
  | _ => .error (p.fault .illegal)

/-- Reads the rest of a name behind the characters `done`, last one first. -/
def rest : Nat → Text → Place → Text → Except ParseError (Text × Place × Text)
  | fuel + 1, done, p, c :: t =>
    if c = '\\' then
      match escape CodePoint.isNamePart (p.step 1) t with
      | .ok (d, p', t') => rest fuel (d :: done) p' t'
      | .error e => .error e
    else if c.isNamePart then rest fuel (c :: done) (p.step 1) t
    else .ok (done.reverse, p, c :: t)
  | _, done, p, t => .ok (done.reverse, p, t)

/-- Reads a name; the text starts with a character that may start one. -/
def read (p : Place) : Text → Except ParseError (Text × Place × Text)
  | [] => .ok ([], p, [])
  | c :: t =>
    if c = '\\' then
      match escape CodePoint.isNameStart (p.step 1) t with
      | .ok (d, p', t') => rest t.length [d] p' t'
      | .error e => .error e
    else rest t.length [c] (p.step 1) t

/-- What a name is: a reserved word, one of the literals written as words, or an identifier.  Words
reserved in strict code only are identifiers here. -/
def classify (name : Text) : TokenKind :=
  if name = Word.null then .null
  else if name = Word.true then .boolean true
  else if name = Word.false then .boolean false
  else
    match Keyword.ofText? name with
    | some k => if k.isStrictOnly then .identifier name else .keyword k
    | none => .identifier name

/-- Reads a name as a token. -/
def token (p : Place) (t : Text) : Except ParseError (TokenKind × Place × Text) :=
  match read p t with
  | .error e => .error e
  | .ok (name, p', t') =>
    match classify name with
    | .identifier _ => .ok (.identifier name, p', t')
    | kind =>
      if p.index + name.length = p'.index then .ok (kind, p', t')
      else .error (p.fault .escapedKeyword)

end Name
end Elementwise
