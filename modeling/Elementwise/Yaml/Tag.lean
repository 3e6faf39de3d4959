import Elementwise.Data.Utf8
import Elementwise.Yaml.Scan

/-!
# Tags and directives of configuration files

A tag is written out between angles, or begins with the short name of a beginning.  A directive is a
line in front of a document: it tells the version of the format, or gives such a short name.
-/

set_option autoImplicit false
namespace Elementwise
namespace Yaml
namespace Scan

/-! ## Tags -/

/-- The characters of names: letters and digits of ASCII, hyphens and underscores. -/
def isNamePart : CodePoint → Bool
  | .scalar c => c.isAlphanum || c = '-' || c = '_'
  | .surrogate _ => false

/-- The characters of tags. -/
def isTagPart (c : CodePoint) : Bool :=
  isNamePart c ||
    [';', '/', '?', ':', '@', '&', '=', '+', '$', ',', '.', '!', '~', '*', '\x27', '(', ')', '[',
      ']'].any fun d => c = .scalar d

/-- Reads bytes that are written as percent signs with two hexadecimal digits each. -/
def escapedBytes : Nat → List UInt8 → Scan → Option (List UInt8 × Scan)
  | fuel + 1, done, s =>
    match s.rest with
    | .scalar '%' :: c :: d :: _ => do
      let high ← c.hexValue?
      let low ← d.hexValue?
      escapedBytes fuel ((high * 16 + low).toUInt8 :: done) (s.skip 3)
    | .scalar '%' :: _ => none
    | _ => some (done.reverse, s)
  | 0, _, _ => none

/-- Reads the characters of a tag, some of which may be escaped; there must be at least one. -/
def tagText : Nat → Text → Scan → Option (Text × Scan)
  | fuel + 1, done, s =>
    match s.rest with
    | .scalar '%' :: _ => do
      let (bytes, s) ← escapedBytes (s.rest.length + 1) [] s
      match Utf8.decode bytes with
      | .ok t => again fuel (done ++ t) s
      | .error _ => none
    | c :: _ =>
      if isTagPart c then
        let t := s.rest.takeWhile isTagPart
        again fuel (done ++ t) (s.skip t.length)
      else none
    | [] => none
  | 0, _, _ => none
where
  /-- Reads on unless the tag ends here. -/
  again (fuel : Nat) (done : Text) (s : Scan) : Option (Text × Scan) :=
    if s.rest.head?.any fun c => isTagPart c || c = '%' then tagText fuel done s
    else some (done, s)

/-- Reads the characters of a tag. -/
def tagRest (s : Scan) : Option (Text × Scan) := tagText (s.rest.length + 1) [] s

/-- Reads a short name: an exclamation mark, alone or with a name and another one behind it. -/
def handle (s : Scan) : Option (Text × Scan) :=
  match s.rest with
  | .scalar '!' :: t =>
    if t.head? = some (.scalar ' ') then some ([.scalar '!'], s.step)
    else
      let name := t.takeWhile isNamePart
      if (t.drop name.length).head? = some (.scalar '!') then
        some (s.rest.take (name.length + 2), s.skip (name.length + 2))
      else none
  | _ => none

/-- Reads a tag. -/
def tag (s : Scan) : Option (Token × Scan) := do
  let behind := s.rest.drop 1
  if behind.head? = some (.scalar '<') then
    let (t, s) ← (s.skip 2).tagRest
    if s.rest.head? ≠ some (.scalar '>') then failure
    return (.tag none t, s.step)
  else if atGap behind then return (.tag none [.scalar '!'], s.step)
  else
    let word := behind.takeWhile fun c => !(isBreak c || isSpace c)
    let (name, s) ←
      if word.contains (.scalar '!') then s.handle else some ([.scalar '!'], s.step)
    let (t, s) ← s.tagRest
    return (.tag (some name) t, s)

/-- Reads a tag, which a blank or a line end must follow. -/
def tagMark (s : Scan) : Option Scan := do
  let (t, s) ← (← s.saveKey).tag
  if !atBreakOrSpace s.rest then failure
  return { s with allowKey := false }.emit t

/-! ## Directives -/

/-- Passes a number of at least one digit. -/
def number (s : Scan) : Except Fault (Nat × Scan) :=
  let digits := s.rest.takeWhile CodePoint.isDigit
  if digits.isEmpty then .error .malformed
  else
    match Text.decimal digits with
    | .ok n => .ok (n, s.skip digits.length)
    | .error e => .error (.conversion e)

/-- Reads the version of the format: two numbers with a point between them. -/
def version (s : Scan) : Except Fault (Directive × Scan) := do
  let (major, s) ← s.number
  if s.rest.head? ≠ some (.scalar '.') then throw .malformed
  let (_, s) ← s.step.number
  if !atBreakOrSpace s.rest then throw .malformed
  return (.version major, s)

/-- Reads a short name and the beginning of tags that it stands for. -/
def handleLine (s : Scan) : Option (Directive × Scan) := do
  let (name, s) ← s.handle
  if s.rest.head? ≠ some (.scalar ' ') then failure
  let (beginning, s) ← (s.skipWhile isSpace).tagRest
  if !atBreakOrSpace s.rest then failure
  return (.handle name beginning, s)

/-- Reads what a directive with a given name says. -/
def directiveValue (name : Text) (s : Scan) : Except Fault (Directive × Scan) :=
  if name = Text.ofChars ['Y', 'A', 'M', 'L'] then (s.skipWhile isSpace).version
  else if name = Text.ofChars ['T', 'A', 'G'] then expect (s.skipWhile isSpace).handleLine
  else .ok (.other, s.skipWhile fun c => !isBreak c)

/-- A line with a directive. -/
def directive (s : Scan) : Except Fault Scan := do
  let s ← expect (s.unwindTo (-1)).dropKey
  let s := { s with allowKey := false }.step
  let name := s.rest.takeWhile isNamePart
  let s := s.skip name.length
  if name.isEmpty || !atBreakOrSpace s.rest then throw .malformed
  let (d, s) ← s.directiveValue name
  let s := s.skipWhile isSpace
  let s := if s.rest.head? = some '#' then s.skipWhile fun c => !isBreak c else s
  if !atLineEnd s.rest then throw .malformed
  return s.lineBreak.2.emit (.directive d)

end Scan
end Yaml
end Elementwise
