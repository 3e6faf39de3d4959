import Elementwise.Token.Name
import Elementwise.Token.Regex.Pattern

/-!
# Regular expressions

A regular expression is read where an expression may start with a slash: a pattern, up to the slash
that ends it, and flags.  `Regex.isPattern` checks the pattern.
-/

set_option autoImplicit false
namespace Elementwise
namespace Regex

/-! ## The literal -/

/-- Reads a pattern up to the slash that ends it; `done` holds what was read, last character first,
and `inClass` says whether a bracket is open, inside which a slash does not end the pattern. -/
def pattern : Bool → Text → Place → Text → Except ParseError (Text × Place × Text)
  | _, _, p, [] => .error (p.fault .missingSlash)
  | inClass, done, p, .scalar '\\' :: c :: t =>
    if c.isLineTerminator then .error ((p.step 2).fault .missingSlash)
    else pattern inClass (c :: .scalar '\\' :: done) (p.step 2) t
  | inClass, done, p, c :: t =>
    if c.isLineTerminator then .error ((p.step 1).fault .missingSlash)
    else if inClass then pattern (c != ']') (c :: done) (p.step 1) t
    else if c = '/' then .ok (done.reverse, p.step 1, t)
    else pattern (c = '[') (c :: done) (p.step 1) t

/-- Reads the flags behind a pattern.  They hold no escapes. -/
def flags : Text → Place → Text → Except ParseError (Text × Place × Text)
  | done, p, c :: t =>
    if c = '\\' then
      match t with
      | .scalar 'u' :: t =>
        match Escape.hexDigits 4 0 (p.step 2) t with
        | (some _, p', _) => .error (p'.fault .illegal)
        | (none, _, _) => .error ((p.step 2).fault .illegal)
      | _ => .error ((p.step 1).fault .illegal)
    else if c.isNamePart then flags (c :: done) (p.step 1) t
    else .ok (done.reverse, p, c :: t)
  | done, p, [] => .ok (done.reverse, p, [])

/-- Reads a regular expression behind its opening slash, which stands at `p`: its pattern and its
flags. -/
def read (p : Place) (t : Text) : Except ParseError (Text × Text × Place × Text) :=
  match pattern false [] (p.step 1) t with
  | .error e => .error e
  | .ok (body, p', t') =>
    match flags [] p' t' with
    | .error e => .error e
    | .ok (marks, p'', t'') =>
      if isPattern (marks.contains (.scalar 'u')) body then .ok (body, marks, p'', t'')
      else .error (p''.fault .invalidRegex)

end Regex
end Elementwise
