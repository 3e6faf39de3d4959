import Elementwise.Yaml.Fault

/-!
# Reading configuration files

Configuration files are written in YAML.  A file is read into tokens: directives, marks for the
beginnings and ends of blocks, which indentation decides, the punctuation of flow collections, and
scalars.

A scalar becomes the key of a block mapping when a colon follows it on its line, so the place among
the tokens where a key may have started is remembered until then (`PossibleKey`).

* `Token` — the tokens.
* `Scan` — how far a file has been read, and the moves in it that all tokens share.
-/

set_option autoImplicit false
namespace Elementwise
namespace Yaml

/-- What a line in front of a document says. -/
inductive Directive where
  /-- The version of the format. -/
  | version (major : Nat)
  /-- A short name for the beginning of tags. -/
  | handle (name beginning : Text)
  | other
deriving DecidableEq, Inhabited, Repr

/-- A token of a configuration file. -/
inductive Token where
  | directive (value : Directive)
  | documentStart
  | documentEnd
  | blockSequence
  | blockMapping
  | blockEnd
  | flowSequence
  | flowSequenceEnd
  | flowMapping
  | flowMappingEnd
  | blockEntry
  | flowEntry
  | key
  | value
  | alias (name : Text)
  | anchor (name : Text)
  /-- A tag: the short name of its beginning, if it has one, and what follows that. -/
  | tag (handle : Option Text) (rest : Text)
  /-- A scalar; a plain one is written without quotes. -/
  | scalar (text : Text) (isPlain : Bool)
deriving DecidableEq, Inhabited, Repr

/-- Where a key may have started: the number of tokens in front of it and its place.  A key that is
required must turn out to be one. -/
structure PossibleKey where
  position : Nat
  required : Bool
  index : Nat
  line : Nat
  column : Nat
deriving DecidableEq, Inhabited, Repr

/-- The state of reading tokens. -/
structure Scan where
  rest : Text
  index : Nat := 0
  line : Nat := 0
  column : Nat := 0
  tokens : List Token := []
  /-- The number of flow collections around this place. -/
  flow : Nat := 0
  indent : Int := -1
  indents : List Int := []
  /-- Whether a key may start here. -/
  allowKey : Bool := true
  /-- The possible key of each level of flow collections that has one. -/
  keys : List (Nat × PossibleKey) := []
deriving DecidableEq, Inhabited, Repr

/-! ## Characters -/

/-- Whether a code point may occur in a configuration file. -/
def isAllowed (c : CodePoint) : Bool :=
  let n := c.val
  n = 0x09 || n = 0x0A || n = 0x0D || (0x20 ≤ n && n ≤ 0x7E) || n = 0x85 ||
    (0xA0 ≤ n && n ≤ 0xD7FF) || (0xE000 ≤ n && n ≤ 0xFFFD) || 0x10000 ≤ n

/-- The characters that end a line. -/
def isBreak (c : CodePoint) : Bool := c.isLineTerminator || c = '\u0085'

/-- The line feed, which stands for most line ends. -/
def lineFeed : CodePoint := '\n'

/-- The blank that indents lines. -/
def isSpace (c : CodePoint) : Bool := c = ' '

/-- The characters that separate tokens on a line. -/
def isBlank (c : CodePoint) : Bool := c = ' ' || c = '\t'

/-- Whether a line ends here, or the text. -/
def atLineEnd (t : Text) : Bool := t.head?.all isBreak

/-- Whether nothing, a blank or a line end comes next. -/
def atGap (t : Text) : Bool := t.head?.all fun c => isBreak c || isBlank c

/-- Whether the mark of a document stands here: three equal characters and a gap. -/
def atMark (c : CodePoint) (t : Text) : Bool := [c, c, c].isPrefixOf t && atGap (t.drop 3)

/-- Whether a document starts or ends here. -/
def atSeparator (t : Text) : Bool := atMark '-' t || atMark '.' t

namespace Scan

/-- Passes one character. -/
def step (s : Scan) : Scan :=
  match s.rest with
  | [] => s
  | c :: t =>
    if isBreak c && !(c = '\r' && t.head? = some '\n') then
      { s with rest := t, index := s.index + 1, line := s.line + 1, column := 0 }
    else
      let column := if c = '\ufeff' then s.column else s.column + 1
      { s with rest := t, index := s.index + 1, column }

/-- Passes `n` characters. -/
def skip : Nat → Scan → Scan
  | 0, s => s
  | n + 1, s => skip n s.step

/-- Passes the characters that have a property. -/
def skipWhile (p : CodePoint → Bool) (s : Scan) : Scan := s.skip (s.rest.takeWhile p).length

/-- Passes the end of a line, if there is one, and gives what it stands for. -/
def lineBreak (s : Scan) : Text × Scan :=
  match s.rest with
  | .scalar '\r' :: .scalar '\n' :: _ => ([lineFeed], s.skip 2)
  | c :: _ =>
    if c = '\u2028' || c = '\u2029' then ([c], s.skip 1)
    else if isBreak c then ([lineFeed], s.skip 1)
    else ([], s)
  | [] => ([], s)

/-- Adds a token. -/
def emit (t : Token) (s : Scan) : Scan := { s with tokens := s.tokens ++ [t] }

/-! ## Keys and indentation -/

/-- Forgets the possible key of this level, which must not be required. -/
def dropKey (s : Scan) : Option Scan :=
  match s.keys.lookup s.flow with
  | none => some s
  | some k =>
    if k.required then none
    else some { s with keys := s.keys.filter fun e => e.1 != s.flow }

/-- Whether a possible key lies on another line than this place, or too far back. -/
def isStale (s : Scan) (k : PossibleKey) : Bool := k.line != s.line || k.index + 1024 < s.index

/-- Forgets stale possible keys. -/
def dropStaleKeys (s : Scan) : Option Scan :=
  if s.keys.any fun e => s.isStale e.2 && e.2.required then none
  else some { s with keys := s.keys.filter fun e => !s.isStale e.2 }

/-- Remembers that a key may start here. -/
def saveKey (s : Scan) : Option Scan :=
  if s.allowKey then do
    let required := s.flow = 0 && s.indent = s.column
    let s ← s.dropKey
    let k : PossibleKey := ⟨s.tokens.length, required, s.index, s.line, s.column⟩
    return { s with keys := (s.flow, k) :: s.keys }
  else some s

/-- Ends the blocks that are indented deeper than a column. -/
def unwind (column : Int) : Nat → Scan → Scan
  | fuel + 1, s =>
    if s.flow = 0 && column < s.indent then
      unwind column fuel
        { s.emit .blockEnd with indent := s.indents.head?.getD (-1), indents := s.indents.drop 1 }
    else s
  | 0, s => s

/-- Ends the blocks that are indented deeper than a column. -/
def unwindTo (column : Int) (s : Scan) : Scan := s.unwind column (s.indents.length + 1)

/-- Begins a block at a column, with a token at a position, unless a block began there already. -/
def indentAt (column position : Nat) (t : Token) (s : Scan) : Scan :=
  if s.indent < column then
    { s with
      indents := s.indent :: s.indents
      indent := column
      tokens := s.tokens.take position ++ t :: s.tokens.drop position }
  else s

/-- Whether a blank or a line end comes next, or the end of the text. -/
def atBreakOrSpace (t : Text) : Bool := t.head?.all fun c => isBreak c || isSpace c

end Scan
end Yaml
end Elementwise
