import Elementwise.Yaml.Tag

/-!
# Tokens of configuration files

The tokens of a file.  They are read ahead of what is made of them only as far as that takes.  So
what is made of the tokens in front of a fault may be wrong in a way of its own, and then that
counts.

* `Yaml.tokens` — the tokens of a text up to the first fault.
-/

set_option autoImplicit false
namespace Elementwise
namespace Yaml
namespace Scan

/-! ## Scalars -/

/-- What the break of a line inside a scalar stands for, given the breaks of the empty lines behind
it: one blank if there are none. -/
def folded (first : Text) (more : Text) : Text :=
  if first != [lineFeed] then first ++ more else if more.isEmpty then [.scalar ' '] else more

/-- Passes blanks and empty lines in a plain scalar.  None at the mark of a document. -/
def plainBreaks : Nat → Text → Scan → Option (Text × Scan)
  | fuel + 1, done, s =>
    match s.rest with
    | .scalar ' ' :: _ => plainBreaks fuel done s.step
    | c :: _ =>
      if isBreak c then
        let (b, s) := s.lineBreak
        if atSeparator s.rest then none else plainBreaks fuel (done ++ b) s
      else some (done, s)
    | [] => some (done, s)
  | 0, _, _ => none

/-- What separates two parts of a plain scalar, and the state behind it. -/
def plainSpaces (s : Scan) : Text × Scan :=
  let blanks := s.rest.takeWhile isSpace
  let s := s.skip blanks.length
  if s.rest.head?.any isBreak then
    let (b, s) := s.lineBreak
    let s := { s with allowKey := true }
    if atSeparator s.rest then ([], s)
    else
      match plainBreaks (s.rest.length + 1) [] s with
      | some (more, s) => (folded b more, s)
      | none => ([], s)
  else (blanks, s)

/-- The length of the part of a plain scalar that starts here. -/
def plainLength (inFlow : Bool) : Text → Nat
  | [] => 0
  | c :: t =>
    let ends :=
      isBreak c || c = ' ' || c = '\t' ||
      (c = ':' && (atGap t || (inFlow && t.head?.any fun d => isFlowMark d))) ||
      (inFlow && (c = ',' || c = '?' || c = '[' || c = ']' || c = '{' || c = '}'))
    if ends then 0 else plainLength inFlow t + 1
where
  /-- The punctuation of flow collections. -/
  isFlowMark (d : CodePoint) : Bool := d = ',' || d = '[' || d = ']' || d = '{' || d = '}'

/-- Reads a plain scalar; `spaces` separates what was read from what comes. -/
def plain (indent : Int) : Nat → Text → Text → Scan → Text × Scan
  | fuel + 1, done, spaces, s =>
    if s.rest.head? = some '#' then (done, s)
    else
      let n := plainLength (s.flow != 0) s.rest
      if n = 0 then (done, s)
      else
        let done := done ++ spaces ++ s.rest.take n
        let s := { s.skip n with allowKey := false }
        let (spaces, s) := s.plainSpaces
        if spaces.isEmpty || s.rest.head? = some '#' || (s.flow = 0 && (s.column : Int) < indent)
        then (done, s)
        else plain indent fuel done spaces s
  | 0, done, _, s => (done, s)

/-- The characters that letters behind a backslash stand for. -/
def escape? : CodePoint → Option CodePoint
  | .scalar '0' => some '\x00'
  | .scalar 'a' => some '\x07'
  | .scalar 'b' => some '\x08'
  | .scalar 't' => some '\t'
  | .scalar '\t' => some '\t'
  | .scalar 'n' => some '\n'
  | .scalar 'v' => some '\x0b'
  | .scalar 'f' => some '\x0c'
  | .scalar 'r' => some '\r'
  | .scalar 'e' => some '\x1b'
  | .scalar ' ' => some ' '
  | .scalar '\x22' => some '\x22'
  | .scalar '\\' => some '\\'
  | .scalar '/' => some '/'
  | .scalar 'N' => some '\u0085'
  | .scalar '_' => some '\u00a0'
  | .scalar 'L' => some '\u2028'
  | .scalar 'P' => some '\u2029'
  | _ => none

/-- The number of hexadecimal digits behind a letter that names an escape of this kind. -/
def escapeWidth? : CodePoint → Option Nat
  | .scalar 'x' => some 2
  | .scalar 'u' => some 4
  | .scalar 'U' => some 8
  | _ => none

/-- Passes the empty lines behind a line of a quoted scalar. -/
def quotedBreaks : Nat → Text → Scan → Option (Text × Scan)
  | fuel + 1, done, s =>
    if atSeparator s.rest then none
    else
      let s := s.skipWhile isBlank
      if s.rest.head?.any isBreak then
        let (b, s) := s.lineBreak
        quotedBreaks fuel (done ++ b) s
      else some (done, s)
  | 0, _, _ => none

/-- Reads a quoted scalar behind its opening quote. -/
def quoted (quote : CodePoint) : Nat → Text → Scan → Except Fault (Text × Scan)
  | fuel + 1, done, s =>
    let isDouble : Bool := quote = '\x22'
    match s.rest with
    | [] => .error .malformed
    | c :: t =>
      if c = quote then
        if !isDouble && t.head? = some quote then quoted quote fuel (done ++ [quote]) (s.skip 2)
        else .ok (done, s.step)
      else if c = '\\' && isDouble then
        match t with
        | [] => .error .malformed
        | e :: t' =>
          match escape? e, escapeWidth? e with
          | some d, _ => quoted quote fuel (done ++ [d]) (s.skip 2)
          | none, some width =>
            let digits := t'.take width
            if digits.length = width && digits.all fun d => d.hexValue?.isSome then
              match CodePoint.convert (Text.toNat 16 digits) with
              | .ok d => quoted quote fuel (done ++ [d]) (s.skip (2 + width))
              | .error e => .error (.conversion e)
            else .error .malformed
          | none, none =>
            if isBreak e then
              let (_, s) := s.step.lineBreak
              match quotedBreaks (s.rest.length + 1) [] s with
              | some (more, s) => quoted quote fuel (done ++ more) s
              | none => .error .malformed
            else .error .malformed
      else if c = ' ' || c = '\t' || isBreak c then
        let blanks := s.rest.takeWhile isBlank
        let s := s.skip blanks.length
        if s.rest.head?.any isBreak then
          let (b, s) := s.lineBreak
          match quotedBreaks (s.rest.length + 1) [] s with
          | some (more, s) => quoted quote fuel (done ++ folded b more) s
          | none => .error .malformed
        else quoted quote fuel (done ++ blanks) s
      else quoted quote fuel (done ++ [c]) s.step
  | 0, _, _ => .error .malformed

/-! ## Block scalars -/

/-- The header of a block scalar: what happens to the line breaks at its end (`+` keeps them, `-`
drops them), and how much deeper it is indented than what is around. -/
def blockHeader (s : Scan) : Option (Option CodePoint × Option Nat × Scan) := do
  let isChomp (c : CodePoint) : Bool := c = '+' || c = '-'
  let chomp (s : Scan) : Option CodePoint × Scan :=
    if s.rest.head?.any isChomp then (s.rest.head?, s.step) else (none, s)
  let width (s : Scan) : Option Nat × Scan :=
    if s.rest.head?.any CodePoint.isDigit then (s.rest.head?.map CodePoint.digitValue, s.step)
    else (none, s)
  let (mark, more, s) : Option CodePoint × Option Nat × Scan :=
    match chomp s with
    | (some c, s) => (some c, width s)
    | (none, s) =>
      let (more, s) := width s
      let (mark, s) := chomp s
      (mark, more, s)
  if more = some 0 || !atBreakOrSpace s.rest then failure
  let s := s.skipWhile isSpace
  let s := if s.rest.head? = some '#' then s.skipWhile fun c => !isBreak c else s
  if atLineEnd s.rest then return (mark, more, s.lineBreak.2) else failure

/-- Passes the empty lines of a block scalar, up to a column. -/
def blockBreaks (indent : Nat) : Nat → Text → Scan → Text × Scan
  | fuel + 1, done, s =>
    let s := s.skip (min (indent - s.column) (s.rest.takeWhile isSpace).length)
    if s.rest.head?.any isBreak then
      let (b, s) := s.lineBreak
      blockBreaks indent fuel (done ++ b) s
    else (done, s)
  | 0, done, s => (done, s)

/-- Passes the empty lines in front of a block scalar and finds how deep it is indented. -/
def blockIndent : Nat → Text → Nat → Scan → Text × Nat × Scan
  | fuel + 1, done, widest, s =>
    if s.rest.head?.any fun c => isSpace c || isBreak c then
      if s.rest.head? = some ' ' then
        let s := s.step
        blockIndent fuel done (max widest s.column) s
      else
        let (b, s) := s.lineBreak
        blockIndent fuel (done ++ b) widest s
    else (done, widest, s)
  | 0, done, widest, s => (done, widest, s)

/-- Reads the lines of a block scalar.  `pending` is the break of the line before, and `breaks` are
those of empty lines behind it. -/
def blockLines (isFolded : Bool) (indent : Nat) :
    Nat → Text → Text → Text → Scan → Text × Text × Text × Scan
  | fuel + 1, done, pending, breaks, s =>
    if s.column = indent && !s.rest.isEmpty then
      let done := done ++ breaks
      let leading := s.rest.head?.any isBlank
      let line := s.rest.takeWhile fun c => !isBreak c
      let s := s.skip line.length
      let (b, s) := s.lineBreak
      let (more, s) := blockBreaks indent (s.rest.length + 1) [] s
      let done := done ++ line
      if s.column = indent && !s.rest.isEmpty then
        let nextLeads := s.rest.head?.any isBlank
        let joined : Text :=
          if isFolded && b = [lineFeed] && !leading && !nextLeads then
            if more.isEmpty then [.scalar ' '] else []
          else b
        blockLines isFolded indent fuel (done ++ joined) [] more s
      else (done, b, more, s)
    else (done, pending, breaks, s)
  | 0, done, pending, breaks, s => (done, pending, breaks, s)

/-- Reads a block scalar behind its mark. -/
def blockScalar (isFolded : Bool) (s : Scan) : Option (Text × Scan) := do
  let (mark, more, s) ← s.blockHeader
  let least : Nat := (max (s.indent + 1) 1).toNat
  let (breaks, indent, s) : Text × Nat × Scan :=
    match more with
    | some n =>
      let indent := least + n - 1
      let (breaks, s) := blockBreaks indent (s.rest.length + 1) [] s
      (breaks, indent, s)
    | none =>
      let (breaks, widest, s) := blockIndent (s.rest.length + 1) [] 0 s
      (breaks, max least widest, s)
  let (text, last, breaks, s) := blockLines isFolded indent (s.rest.length + 1) [] [] breaks s
  let text := if mark = some '-' then text else text ++ last
  let text := if mark = some '+' then text ++ breaks else text
  return (text, s)

/-! ## Tokens -/

/-- Passes blanks, comments and line ends. -/
def toNextToken : Nat → Scan → Scan
  | fuel + 1, s =>
    let s := s.skipWhile isSpace
    let s := if s.rest.head? = some '#' then s.skipWhile fun c => !isBreak c else s
    if s.rest.head?.any isBreak then
      let s := s.lineBreak.2
      toNextToken fuel (if s.flow = 0 then { s with allowKey := true } else s)
    else s
  | 0, s => s

/-- The mark at the start or the end of a document. -/
def documentMark (t : Token) (s : Scan) : Option Scan := do
  let s ← (s.unwindTo (-1)).dropKey
  return ({ s with allowKey := false }.skip 3).emit t

/-- An opening bracket of a flow collection. -/
def openFlow (t : Token) (s : Scan) : Option Scan := do
  let s ← s.saveKey
  return { s with flow := s.flow + 1, allowKey := true }.step.emit t

/-- A closing bracket of a flow collection. -/
def closeFlow (t : Token) (s : Scan) : Option Scan := do
  let s ← s.dropKey
  if s.flow = 0 then failure
  return { s with flow := s.flow - 1, allowKey := false }.step.emit t

/-- A comma between the items of a flow collection. -/
def flowEntry (s : Scan) : Option Scan := do
  let s ← { s with allowKey := true }.dropKey
  return s.step.emit .flowEntry

/-- The hyphen in front of an item of a block sequence. -/
def blockEntry (s : Scan) : Option Scan := do
  if s.flow = 0 && !s.allowKey then failure
  let s := if s.flow = 0 then s.indentAt s.column s.tokens.length .blockSequence else s
  let s ← { s with allowKey := true }.dropKey
  return s.step.emit .blockEntry

/-- The question mark in front of a key. -/
def explicitKey (s : Scan) : Option Scan := do
  if s.flow = 0 && !s.allowKey then failure
  let s := if s.flow = 0 then s.indentAt s.column s.tokens.length .blockMapping else s
  let s ← { s with allowKey := s.flow = 0 }.dropKey
  return s.step.emit .key

/-- The colon in front of a value.  It makes the possible key of this level a key. -/
def valueMark (s : Scan) : Option Scan := do
  match s.keys.lookup s.flow with
  | some k =>
    let s := { s with
      keys := s.keys.filter fun e => e.1 != s.flow
      tokens := s.tokens.take k.position ++ Token.key :: s.tokens.drop k.position }
    let s := if s.flow = 0 then s.indentAt k.column k.position .blockMapping else s
    return { s with allowKey := false }.step.emit .value
  | none =>
    if s.flow = 0 && !s.allowKey then failure
    let s := if s.flow = 0 then s.indentAt s.column s.tokens.length .blockMapping else s
    let s ← { s with allowKey := s.flow = 0 }.dropKey
    return s.step.emit .value

/-- The name of an anchor or of an alias behind its mark. -/
def nameMark (make : Text → Token) (s : Scan) : Option Scan := do
  let s ← s.saveKey
  let s := { s with allowKey := false }.step
  let name := s.rest.takeWhile isNamePart
  let s := s.skip name.length
  let ends := atGap s.rest || s.rest.head?.any fun (c : CodePoint) =>
    c = '?' || c = ':' || c = ',' || c = ']' || c = '}' || c = '%' || c = '@' || c = '\x60'
  if name.isEmpty || !ends then failure
  return s.emit (make name)

/-- A scalar in quotes. -/
def quotedScalar (quote : CodePoint) (s : Scan) : Except Fault Scan := do
  let s ← expect s.saveKey
  let s := { s with allowKey := false }.step
  let (text, s) ← quoted quote (s.rest.length + 1) [] s
  return s.emit (.scalar text false)

/-- A plain scalar. -/
def plainScalar (s : Scan) : Option Scan := do
  let s ← s.saveKey
  let (text, s) := plain (s.indent + 1) (s.rest.length + 1) [] [] { s with allowKey := false }
  return s.emit (.scalar text true)

/-- A literal or folded scalar. -/
def blockScalarToken (isFolded : Bool) (s : Scan) : Option Scan := do
  let s ← { s with allowKey := true }.dropKey
  let (text, s) ← s.step.blockScalar isFolded
  return s.emit (.scalar text false)

/-- Whether a plain scalar can start with a character, given what follows it. -/
def startsPlain (inFlow : Bool) (c : CodePoint) (t : Text) : Bool :=
  let isMark : Bool := List.contains
    (Text.ofChars ['-', '?', ':', ',', '[', ']', '{', '}', '#', '&', '*', '!', '|', '>', '\x27',
      '\x22', '%', '@', '\x60']) c
  (!isMark && !isBreak c && c != ' ' && c != '\t') ||
    (!atGap t && (c = '-' || (!inFlow && (c = '?' || c = ':'))))

/-- Reads the token at this place. -/
def token (s : Scan) (c : CodePoint) (t : Text) : Except Fault Scan :=
  let atStart : Bool := s.column = 0
  let inFlow := s.flow != 0
  if c = '\x27' || c = '\x22' then s.quotedScalar c
  else if c = '%' && atStart then s.directive
  else
    expect
      (if atStart && atMark '-' s.rest then s.documentMark .documentStart
      else if atStart && atMark '.' s.rest then s.documentMark .documentEnd
      else if c = '[' then s.openFlow .flowSequence
      else if c = '{' then s.openFlow .flowMapping
      else if c = ']' then s.closeFlow .flowSequenceEnd
      else if c = '}' then s.closeFlow .flowMappingEnd
      else if c = ',' then s.flowEntry
      else if c = '-' && atGap t then s.blockEntry
      else if c = '?' && (inFlow || atGap t) then s.explicitKey
      else if c = ':' && (inFlow || atGap t) then s.valueMark
      else if c = '*' then s.nameMark .alias
      else if c = '&' then s.nameMark .anchor
      else if c = '!' then s.tagMark
      else if c = '|' && !inFlow then s.blockScalarToken false
      else if c = '>' && !inFlow then s.blockScalarToken true
      else if startsPlain inFlow c t then s.plainScalar
      else none)

/-- Reads what separates tokens and the token behind it; says whether there was one. -/
def next (s : Scan) : Except Fault (Scan × Bool) := do
  let s := s.toNextToken (s.rest.length + 1)
  let s ← expect s.dropStaleKeys
  let s := s.unwindTo s.column
  match s.rest with
  | [] => return (← expect (s.unwindTo (-1)).dropKey, false)
  | c :: t => return (← s.token c t, true)

/-- The tokens that are known for sure: those in front of the first place where a key may have
started. -/
def settled (s : Scan) : List Token :=
  s.tokens.take ((s.keys.filter fun e => !s.isStale e.2).foldl
    (fun n e => min n e.2.position) s.tokens.length)

/-- Reads all tokens, or those that are known for sure where a fault is met. -/
def all : Nat → Scan → List Token × Option Fault
  | fuel + 1, s =>
    match s.next with
    | .ok (s, true) => all fuel s
    | .ok (s, false) => (s.tokens, none)
    | .error e => (s.settled, some e)
  | 0, s => (s.settled, some .malformed)

end Scan

/-- The tokens of a text, up to a fault. -/
def tokens (t : Text) : List Token × Option Fault :=
  if t.all isAllowed then
    let s : Scan := { rest := t }
    let s := if t.head? = some '\ufeff' then s.step else s
    s.all (t.length + 2)
  else ([], some .malformed)

end Yaml
end Elementwise
