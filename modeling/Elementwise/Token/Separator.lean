import Elementwise.ParseError

/-!
# What separates tokens

Blanks, line terminators and comments.  Besides `//` and `/* */`, the markers `<!--` and `-->` open
a comment up to the end of the line, the second only where nothing but separators stands before it
on its line.
-/

set_option autoImplicit false
namespace Elementwise
namespace Separator

/-- What a reader of separators is inside of. -/
inductive Mode where
  | between
  | lineComment
  | blockComment
deriving DecidableEq, Inhabited, Repr

/-- Skips separators.  `fresh` says whether `-->` opens a comment here: at the start of the text and
once a line terminator or a `//` comment has been passed.  A block comment that does not end is a
fault at the end of the text. -/
def skip : Mode → Bool → Place → Text → Except ParseError (Place × Text)
  | .between, _, p, .scalar '/' :: .scalar '/' :: t => skip .lineComment true (p.step 2) t
  | .between, fresh, p, .scalar '/' :: .scalar '*' :: t => skip .blockComment fresh (p.step 2) t
  | .between, fresh, p, .scalar '<' :: .scalar '!' :: .scalar '-' :: .scalar '-' :: t =>
    skip .lineComment fresh (p.step 4) t
  | .between, true, p, .scalar '-' :: .scalar '-' :: .scalar '>' :: t =>
    skip .lineComment true (p.step 3) t
  | .blockComment, fresh, p, .scalar '*' :: .scalar '/' :: t => skip .between fresh (p.step 2) t
  | .between, _, p, [] => .ok (p, [])
  | .lineComment, _, p, [] => .ok (p, [])
  | .blockComment, _, p, [] => .error (p.fault .illegal)
  | .between, fresh, p, c :: t =>
    if c.isBlank then skip .between fresh (p.step 1) t
    else if c.isLineTerminator then
      if c = '\r' && t.head? = some '\n' then skip .between true (p.step 1) t
      else skip .between true (p.newLine 1) t
    else .ok (p, c :: t)
  | .lineComment, fresh, p, c :: t =>
    if c.isLineTerminator then
      if c = '\r' && t.head? = some '\n' then skip .lineComment fresh (p.step 1) t
      else skip .between fresh (p.newLine 1) t
    else skip .lineComment fresh (p.step 1) t
  | .blockComment, fresh, p, c :: t =>
    if c.isLineTerminator then
      if c = '\r' && t.head? = some '\n' then skip .blockComment fresh (p.step 1) t
      else skip .blockComment fresh (p.newLine 1) t
    else skip .blockComment fresh (p.step 1) t

end Separator

/-- The place and the text behind the separators at `p`. -/
def Place.skipSeparators (p : Place) (t : Text) : Except ParseError (Place × Text) :=
  Separator.skip .between (p.index = 0) p t

end Elementwise
