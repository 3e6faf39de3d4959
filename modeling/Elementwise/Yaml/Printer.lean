import Elementwise.Data.Quoted
import Elementwise.Yaml.Style

/-!
# Writing configuration files

Values are written with one item or entry a line.  Lines longer than 80 characters are broken at
blanks where that is possible.  The pen knows the column, whether a blank stands in front of it, and
whether nothing but indentation does.
-/

set_option autoImplicit false
namespace Elementwise
namespace Yaml

/-- What is written so far, and where the pen stands. -/
structure Pen where
  written : Text := []
  column : Nat := 0
  /-- Whether a blank or a line feed was written last. -/
  afterBlank : Bool := true
  /-- Whether only blanks and marks of items stand on this line. -/
  inIndentation : Bool := true
deriving DecidableEq, Inhabited, Repr

namespace Pen

/-- The column behind which lines are broken. -/
def width : Nat := 80

/-- Writes a text without line feeds. -/
def write (t : Text) (p : Pen) : Pen :=
  { p with written := p.written ++ t, column := p.column + t.length }

/-- Ends the line. -/
def lineFeed (p : Pen) : Pen := ⟨p.written ++ [.scalar '\n'], 0, true, true⟩

/-- Moves to a column of a line of its own. -/
def indentTo (column : Nat) (p : Pen) : Pen :=
  let p :=
    if !p.inIndentation || column < p.column || (p.column = column && !p.afterBlank) then
      p.lineFeed
    else p
  if p.column < column then
    { p.write (List.replicate (column - p.column) (.scalar ' ')) with afterBlank := true }
  else p

/-- The pen behind something that is not indentation. -/
def inLine (p : Pen) : Pen := { p with afterBlank := false, inIndentation := false }

/-- Writes a blank unless there is one. -/
def blank (p : Pen) : Pen := if p.afterBlank then p else p.write [.scalar ' ']

/-- Writes the mark of an item or of a key. -/
def mark (c : CodePoint) (p : Pen) : Pen := { p.blank.write [c] with afterBlank := false }

/-! ## Scalars -/

/-- Splits a text into runs: blanks, line feeds, and what stands between. -/
def runs : Text → List Text
  | [] => []
  | c :: t =>
    match runs t with
    | (d :: run) :: more =>
      let isAlike : Bool :=
        (c = ' ' && d = ' ') || (c = '\n' && d = '\n') ||
          (c != ' ' && c != '\n' && d != ' ' && d != '\n')
      if isAlike then (c :: d :: run) :: more else [c] :: (d :: run) :: more
    | more => [c] :: more

/-- Writes the runs of a scalar without quotes. -/
def plainRuns (isKey : Bool) (indent : Nat) (rs : List Text) (p : Pen) : Pen :=
  rs.foldl (fun p run =>
    if run = [.scalar ' '] && width < p.column && !isKey then (p.indentTo indent).inLine
    else p.write run) p

/-- Writes a scalar without quotes. -/
def plain (isKey : Bool) (indent : Nat) (t : Text) (p : Pen) : Pen :=
  if t.isEmpty then p else plainRuns isKey indent (runs t) p.blank.inLine

/-- Writes the runs of a scalar in single quotes: a quote twice, and one line feed more than there
are. -/
def singleRuns (isKey : Bool) (indent : Nat) : Bool → List Text → Pen → Pen
  | _, [], p => p
  | isFirst, run :: more, p =>
    let p :=
      if run.head? = some (.scalar '\n') then
        ((run.foldl (fun p _ => p.lineFeed) p.lineFeed).indentTo indent)
      else if run = [.scalar ' '] && width < p.column && !isKey && !isFirst && !more.isEmpty then
        p.indentTo indent
      else p.write (run.expand fun c => if c = '\x27' then [c, c] else [c])
    singleRuns isKey indent false more p

/-- Writes a scalar in single quotes. -/
def single (isKey : Bool) (indent : Nat) (t : Text) (p : Pen) : Pen :=
  (singleRuns isKey indent true (runs t) (p.mark '\x27').inLine).write [.scalar '\x27'] |>.inLine

/-- The escapes that have a letter. -/
def letter? : CodePoint → Option CodePoint
  | .scalar '\x00' => some '0'
  | .scalar '\x07' => some 'a'
  | .scalar '\x08' => some 'b'
  | .scalar '\t' => some 't'
  | .scalar '\n' => some 'n'
  | .scalar '\x0b' => some 'v'
  | .scalar '\x0c' => some 'f'
  | .scalar '\r' => some 'r'
  | .scalar '\x1b' => some 'e'
  | .scalar '\x22' => some '\x22'
  | .scalar '\\' => some '\\'
  | .scalar '\u0085' => some 'N'
  | .scalar '\u00a0' => some '_'
  | .scalar '\u2028' => some 'L'
  | .scalar '\u2029' => some 'P'
  | _ => none

/-- A number in capital hexadecimal digits. -/
def capitalHex (width n : Nat) : Text :=
  (Text.ofHex width n).map fun
    | .scalar c => .scalar c.toUpper
    | c => c

/-- The escape of a character in double quotes; none if it needs no escape. -/
def escape? (c : CodePoint) : Option Text :=
  match letter? c with
  | some d => some ['\\', d]
  | none =>
    if 0x20 ≤ c.val && c.val ≤ 0x7e then none
    else if c.val ≤ 0xff then some ('\\' :: 'x' :: capitalHex 2 c.val)
    else if c.val ≤ 0xffff then some ('\\' :: 'u' :: capitalHex 4 c.val)
    else some ('\\' :: 'U' :: capitalHex 8 c.val)

/-- Breaks the line inside of double quotes; a blank that comes next needs a backslash. -/
def breakDouble (indent : Nat) (next : Option CodePoint) (p : Pen) : Pen :=
  let p := ((p.write [.scalar '\\']).indentTo indent).inLine
  if next = some (.scalar ' ') then p.write [.scalar '\\'] else p

/-- Writes the inside of double quotes.  The characters in `held` are written when the next escape
or line break comes. -/
def doubleInside (isKey : Bool) (indent : Nat) : Bool → Text → Text → Pen → Pen
  | _, held, [], p => p.write held
  | isFirst, held, c :: t, p =>
    let mayBreak : Bool := !isKey && !isFirst && !t.isEmpty
    match escape? c with
    | some e =>
      let p := (p.write held).write e
      let p := if mayBreak && width + 1 < p.column then p.breakDouble indent t.head? else p
      doubleInside isKey indent false [] t p
    | none =>
      if mayBreak && (c = ' ' || held.isEmpty) && width < p.column + held.length then
        doubleInside isKey indent false [c] t ((p.write held).breakDouble indent (some c))
      else doubleInside isKey indent false (held ++ [c]) t p

/-- Writes a scalar in double quotes. -/
def double (isKey : Bool) (indent : Nat) (t : Text) (p : Pen) : Pen :=
  (doubleInside isKey indent true [] t (p.mark '\x22').inLine).write [.scalar '\x22'] |>.inLine

/-- Writes a text. -/
def text (isKey : Bool) (indent : Nat) (t : Text) (p : Pen) : Pen :=
  match Style.ofText t with
  | .plain => p.plain isKey indent t
  | .single => p.single isKey indent t
  | .double => p.double isKey indent t

/-! ## Values -/

/-- How a double is written: always with a point. -/
def float (x : Binary64) : Text :=
  match x with
  | .nan => .ofChars ['.', 'n', 'a', 'n']
  | .infinite false => .ofChars ['.', 'i', 'n', 'f']
  | .infinite true => .ofChars ['-', '.', 'i', 'n', 'f']
  | x =>
    let t := x.text
    if t.contains (.scalar '.') then t
    else t.expand fun c => if c = 'e' then Text.ofChars ['.', '0', 'e'] else [c]

/-- How null, a truth value, a number or a date is written. -/
def word? : Value → Option Text
  | .null => some (.ofChars ['n', 'u', 'l', 'l'])
  | .boolean true => some (.ofChars ['t', 'r', 'u', 'e'])
  | .boolean false => some (.ofChars ['f', 'a', 'l', 's', 'e'])
  | .integer n => some (.ofInt n)
  | .float x => some (float x)
  | .date d => some d.text
  | .moment m => some m.text
  | _ => none

/-- Writes two marks that hold nothing. -/
def emptyPair (opening closing : CodePoint) (p : Pen) : Pen :=
  (p.blank.write [opening, closing]).inLine

/-- Whether a key can stand on one line with its value. -/
def isSimpleKey (t : Text) : Bool :=
  !t.isEmpty && t.length + 5 < 128 &&
    t.all fun c => !(c.isLineTerminator && c != '\r') && c != '\u0085'

/-- Writes a key and the colon behind it. -/
def key (indent : Nat) (t : Text) (p : Pen) : Pen :=
  if isSimpleKey t then ((p.text true (indent + 2) t).write [.scalar ':']).inLine
  else (((p.mark '?').text false (indent + 2) t).indentTo indent).mark ':'

mutual

/-- Writes a value behind what stands on its line.  `indent` is the column of what holds it, and
`inMapping` says whether that is a mapping. -/
def value (indent : Nat) (inMapping : Bool) : Value → Pen → Pen
  | .text t, p => p.text false (indent + 2) t
  | .list [], p => p.emptyPair '[' ']'
  | .list vs, p =>
    items (if inMapping && !p.inIndentation then indent else indent + 2) vs p
  | .map [], p => p.emptyPair '\x7b' '\x7d'
  | .map es, p => entries (indent + 2) es p
  | v, p => p.plain false (indent + 2) ((word? v).getD v.shown)

/-- Writes the items of a sequence. -/
def items (indent : Nat) : List Value → Pen → Pen
  | [], p => p
  | v :: vs, p => items indent vs (value indent false v ((p.indentTo indent).mark '-'))

/-- Writes the entries of a mapping. -/
def entries (indent : Nat) : List (Value × Value) → Pen → Pen
  | [], p => p
  | (k, v) :: es, p =>
    let p := key indent ((k.text?.orElse fun _ => word? k).getD k.quoted) (p.indentTo indent)
    entries indent es (value indent true v p)

end

end Pen

/-! ## Documents -/

/-- Puts an entry in front of the first one with a greater key. -/
def insertEntry (e : Text × Value) : List (Text × Value) → List (Text × Value)
  | [] => [e]
  | f :: es => if Text.le e.1 f.1 then e :: f :: es else f :: insertEntry e es

/-- Entries in the order of their keys, if these are texts. -/
def sortEntries (es : List (Value × Value)) : List (Value × Value) :=
  match es.mapM fun e => e.1.text?.map fun k => (k, e.2) with
  | some es => (es.foldr insertEntry []).map fun e => (.text e.1, e.2)
  | none => es

mutual

/-- A value with the entries of all its mappings in order. -/
def ordered : Value → Value
  | .list vs => .list (orderedAll vs)
  | .map es => .map (sortEntries (orderedEntries es))
  | v => v

/-- The ordered items of a list. -/
def orderedAll : List Value → List Value
  | [] => []
  | v :: vs => ordered v :: orderedAll vs

/-- Entries with ordered values. -/
def orderedEntries : List (Value × Value) → List (Value × Value)
  | [] => []
  | (k, v) :: es => (k, ordered v) :: orderedEntries es

end

/-- The text of a file whose entries are written in the given order. -/
def document (es : List (Text × Value)) : Text :=
  ((Pen.entries 0 (es.map fun e => (.text e.1, ordered e.2)) {}).indentTo 0).written

end Yaml
end Elementwise
