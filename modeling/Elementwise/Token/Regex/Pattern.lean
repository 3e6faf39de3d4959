import Elementwise.Token.Regex.Atom
import Elementwise.Unicode.Identifier

/-!
# Patterns of regular expressions

Which texts are patterns of regular expressions.  Parentheses pair up, every quantifier has
something to repeat and its bounds are in order, a reference names a group that is complete, and
what is looked for behind a place has a fixed width.

Groups may have names, change flags, be atomic, look around or depend on another group.

* `Regex.isPattern` — whether a text is a pattern.
-/

set_option autoImplicit false
namespace Elementwise
namespace Regex

/-! ## Widths -/

/-- How many characters a part of a pattern matches, at least and at most. -/
structure Width where
  least : Nat
  most : Nat
deriving DecidableEq, Inhabited, Repr

/-- The bound of repetitions, which stands for no bound at all. -/
def unbounded : Nat := 4294967295

namespace Width

/-- The width of nothing. -/
def none : Width := ⟨0, 0⟩

/-- The width of a character. -/
def one : Width := ⟨1, 1⟩

/-- The width of two parts that follow one another. -/
def append (v w : Width) : Width := ⟨v.least + w.least, v.most + w.most⟩

/-- The width of two parts one of which matches. -/
def either (v w : Width) : Width := ⟨min v.least w.least, max v.most w.most⟩

/-- The width of a part that is repeated. -/
def times (w : Width) (low high : Nat) : Width := ⟨w.least * low, w.most * high⟩

/-- A width within the bound of repetitions. -/
def bounded (w : Width) : Width := ⟨min w.least (unbounded - 1), min w.most unbounded⟩

end Width

/-! ## Alternatives -/

/-- What came last in an alternative, as far as a quantifier behind it is concerned. -/
inductive Last where
  | nothing
  /-- A place between characters. -/
  | place
  | item
  | repeated
deriving DecidableEq, Inhabited, Repr

/-- An alternative up to some place: the width of what stands in front of its last part, the last
part and its width. -/
structure Alternative where
  front : Width := .none
  last : Last := .nothing
  width : Width := .none
deriving DecidableEq, Inhabited, Repr

namespace Alternative

/-- Adds a part. -/
def push (a : Alternative) (last : Last) (w : Width) : Alternative :=
  ⟨a.front.append a.width, last, w⟩

/-- Adds a part that can be repeated. -/
def item (a : Alternative) (w : Width) : Alternative := a.push .item w

/-- The width of an alternative. -/
def total (a : Alternative) : Width := (a.front.append a.width).bounded

/-- Repeats the last part, if that is possible. -/
def repeat? (a : Alternative) (low : Nat) (high : Option Nat) : Option Alternative :=
  if a.last = .item && low < unbounded && high.all (fun h => low ≤ h && h < unbounded) then
    some ⟨a.front, .repeated, a.width.times low (high.getD unbounded)⟩
  else .none

end Alternative

/-! ## Flags -/

/-- The flags that a group may set or clear. -/
inductive Flag where
  | ignoreCase | multiLine | dotAll | verbose
  /-- Classes are those of ASCII, or those of all scripts. -/
  | ascii | unicode
  /-- A flag that only a whole pattern can have. -/
  | template
deriving DecidableEq, Inhabited, Repr

namespace Flag

/-- The flag with a letter. -/
def ofLetter? : CodePoint → Option Flag
  | .scalar 'i' => some ignoreCase
  | .scalar 'm' => some multiLine
  | .scalar 's' => some dotAll
  | .scalar 'x' => some verbose
  | .scalar 'a' => some ascii
  | .scalar 'u' => some unicode
  | .scalar 't' => some template
  | _ => none

/-- Whether a flag tells of what the classes are. -/
def isType (f : Flag) : Bool := f = ascii || f = unicode

/-- Whether flags contradict one another. -/
def clash (fs : List Flag) : Bool := fs.contains ascii && fs.contains unicode

/-- The flags at the beginning of a text, and what follows them. -/
def readAll : Text → List Flag × Text
  | [] => ([], [])
  | c :: t =>
    match ofLetter? c with
    | some f =>
      let (fs, rest) := readAll t
      (f :: fs, rest)
    | none => ([], c :: t)

/-- Reads the flags that a group sets and clears, up to its colon. -/
def change? (set : List Flag) : Text → Option (List Flag × List Flag × Text)
  | .scalar ':' :: t => if set.contains template then none else some (set, [], t)
  | .scalar '-' :: t =>
    let (cleared, rest) := readAll t
    let isPossible : Bool :=
      !cleared.isEmpty && !cleared.any isType && !(set ++ cleared).contains template &&
        !set.any cleared.contains
    match rest with
    | .scalar ':' :: rest => if isPossible then some (set, cleared, rest) else none
    | _ => none
  | _ => none

end Flag

/-! ## Reading -/

/-- A pattern from some place on, and what is known from in front of it. -/
structure Reader where
  rest : Text
  /-- The groups that were opened, and the widths of those that are complete. -/
  groups : Array (Option Width) := #[]
  /-- The groups that have names. -/
  names : List (Text × Nat) := []
  /-- Inside of what is looked for behind a place, the number of groups in front of it. -/
  behind : Option Nat := none
  /-- The last group on which another one depends. -/
  needed : Nat := 0
  /-- The flags of the whole pattern. -/
  flags : List Flag := []
deriving Inhabited, Repr

/-- Reading a part of a pattern. -/
abbrev Reading := StateT Reader Option

/-- The text from this place on. -/
def rest : Reading Text := return (← get).rest

/-- Goes on at another place. -/
def goTo (t : Text) : Reading Unit := modify fun r => { r with rest := t }

/-- Goes on behind what has been read in some way. -/
def behind {α : Type} (read : Text → Option (α × Text)) : Reading α := do
  match read (← rest) with
  | some (a, t) =>
    goTo t
    return a
  | none => failure

/-- Passes a character, if it comes next; says whether it did. -/
def take (c : CodePoint) : Reading Bool := do
  match ← rest with
  | d :: t =>
    if d = c then
      goTo t
      return true
    else return false
  | [] => return false

/-- Passes a character that must come next. -/
def require (c : CodePoint) : Reading Unit := do
  if !(← take c) then failure

/-- Passes the closing parenthesis of a group. -/
def close : Reading Unit := require ')'

/-! ## Groups -/

/-- Opens a group that can be referred to, with or without a name. -/
def openGroup (name : Option Text) : Reading Nat := do
  let n := (← get).groups.size + 1
  modify fun r => { r with groups := r.groups.push none }
  match name with
  | none => return n
  | some name =>
    if ((← get).names.lookup name).isSome then failure
    modify fun r => { r with names := (name, n) :: r.names }
    return n

/-- Completes a group. -/
def closeGroup (n : Nat) (w : Width) : Reading Unit := do
  close
  modify fun r => { r with groups := r.groups.setIfInBounds (n - 1) (some w) }

/-- The width of a group that is referred to.  It must be complete, and be in front of what is
looked for behind a place if the reference is inside of that. -/
def groupWidth (n : Nat) : Reading Width := do
  let r ← get
  match if n = 0 then none else r.groups[n - 1]? with
  | some (some w) => if r.behind.any (· < n) then failure else return w
  | _ => failure

/-- Whether a text is a name for a group. -/
def isGroupName (t : Text) : Bool :=
  let isLetter (c : CodePoint) : Bool := c != '$' && c != '\\' && c.val != 0x200C && c.val != 0x200D
  t.all isLetter && t.head?.any CodePoint.isNameStart && t.all CodePoint.isNamePart

/-- Reads up to a character, and passes that; there must be something in front of it. -/
def upTo (c : CodePoint) : Reading Text := behind fun t =>
  let front := t.takeWhile (· != c)
  match t.drop front.length with
  | [] => none
  | _ :: rest => if front.isEmpty then none else some (front, rest)

/-- Reads the name of a group up to a character. -/
def groupName (c : CodePoint) : Reading Text := do
  let name ← upTo c
  if isGroupName name then return name else failure

/-- The group with a name. -/
def namedGroup (name : Text) : Reading Nat := do
  match (← get).names.lookup name with
  | some n => return n
  | none => failure

/-- Reads the group on which another one depends: its name or its number. -/
def condition : Reading Unit := do
  let t ← upTo ')'
  let n ←
    if isGroupName t then namedGroup t
    else if t.all CodePoint.isDigit then pure (Text.toNat 10 t)
    else failure
  if n = 0 then failure
  if (← get).behind.isSome then
    let _ ← groupWidth n
  modify fun r => { r with needed := max r.needed n }

/-- Passes a comment behind its mark.  An escaped parenthesis does not end it. -/
def comment? : Text → Option (Unit × Text)
  | .scalar '\\' :: _ :: t => comment? t
  | .scalar ')' :: t => some ((), t)
  | _ :: t => comment? t
  | [] => none

/-! ## Quantifiers and references -/

/-- The decimal digits at the start of a text, and what follows them. -/
def digits (t : Text) : Text × Text :=
  (t.takeWhile CodePoint.isDigit, t.dropWhile CodePoint.isDigit)

/-- Reads a counted quantifier behind its opening brace: its bounds, an absent lower one being zero
and an absent upper one unlimited.  A brace that opens none stands for itself. -/
def bounds? (t : Text) : Option (Nat × Option Nat × Text) :=
  let (low, rest) := digits t
  match rest with
  | .scalar '}' :: rest =>
    if low.isEmpty then none else some (Text.toNat 10 low, some (Text.toNat 10 low), rest)
  | .scalar ',' :: rest =>
    let (high, rest) := digits rest
    match rest with
    | .scalar '}' :: rest =>
      some (Text.toNat 10 low, if high.isEmpty then none else some (Text.toNat 10 high), rest)
    | _ => none
  | _ => none

/-- Repeats the last part of an alternative.  Behind a quantifier a mark may make it lazy or
possessive. -/
def repeated (a : Alternative) (low : Nat) (high : Option Nat) : Reading Alternative := do
  if !(← take '?') then
    let _ ← take '+'
  match a.repeat? low high with
  | some a => return a
  | none => failure

/-- Reads a quantifier behind its first character; a brace that opens no quantifier stands for
itself. -/
def quantifier (a : Alternative) (c : CodePoint) : Reading Alternative := do
  if c = '*' then repeated a 0 none
  else if c = '+' then repeated a 1 none
  else if c = '?' then repeated a 0 (some 1)
  else
    match bounds? (← rest) with
    | some (low, high, t) =>
      goTo t
      repeated a low high
    | none => return a.item .one

/-- Reads the number of a group behind its first digit, or an octal escape, which has three
digits. -/
def reference (c : CodePoint) : Reading Width := do
  match ← rest with
  | d :: t =>
    if d.isDigit then
      goTo t
      match t with
      | e :: rest =>
        if c.isOctalDigit && d.isOctalDigit && e.isOctalDigit then
          if (octal? c d e).isNone then failure
          goTo rest
          return .one
        else groupWidth (c.digitValue * 10 + d.digitValue)
      | [] => groupWidth (c.digitValue * 10 + d.digitValue)
    else groupWidth c.digitValue
  | [] => groupWidth c.digitValue

/-- Reads an escape outside of a class behind its backslash. -/
def escape (isUnicode : Bool) (a : Alternative) : Reading Alternative := do
  match ← rest with
  | [] => failure
  | c :: t =>
    goTo t
    if namesPlace c then return a.push .place .none
    else if namesSet c then return a.item .one
    else if c = '0' then
      goTo (t.drop (min 2 (t.takeWhile CodePoint.isOctalDigit).length))
      return a.item .one
    else if c.isDigit then return a.item (← reference c)
    else if c = 'N' then
      behind fun t => (characterName? t).map fun rest => ((), rest)
      return a.item .one
    else
      match control? c, escapeWidth? c with
      | some _, _ => return a.item .one
      | none, some width =>
        let _ ← behind (numbered? isUnicode c width)
        return a.item .one
      | none, none => if isLetter c then failure else return a.item .one

/-! ## Patterns -/

/-- The blanks that a verbose pattern overlooks. -/
def isOverlooked : CodePoint → Bool
  | .scalar c => c = ' ' || ('\t' ≤ c && c ≤ '\r')
  | .surrogate _ => false

mutual

/-- Reads alternatives up to the end of the pattern or of the group around them. -/
def alternatives (isUnicode isVerbose isOuter isFirst : Bool) : Nat → Reading Width
  | 0 => failure
  | fuel + 1 => do
    let w ← alternative isUnicode isVerbose (isOuter && isFirst) {} fuel
    if ← take '|' then
      let r ← get
      let isVerbose := if isOuter then r.flags.contains .verbose else isVerbose
      return (w.either (← alternatives isUnicode isVerbose isOuter false fuel)).bounded
    else return w

/-- Reads the rest of an alternative.  Only at its beginning can the first one of a pattern set
flags for all of it. -/
def alternative (isUnicode isVerbose isFirst : Bool) (a : Alternative) : Nat → Reading Width
  | 0 => failure
  | fuel + 1 => do
    let goOn (a : Alternative) : Reading Width := alternative isUnicode isVerbose isFirst a fuel
    match ← rest with
    | [] => return a.total
    | c :: t =>
      if c = '|' || c = ')' then return a.total
      goTo t
      if isVerbose && isOverlooked c then goOn a
      else if isVerbose && c = '#' then
        goTo ((t.dropWhile fun d => d != CodePoint.scalar '\n').drop 1)
        goOn a
      else if c = '\\' then goOn (← escape isUnicode a)
      else if c = '(' then
        if ← take '?' then extension isUnicode isVerbose isFirst a fuel
        else goOn (a.item (← capture isUnicode isVerbose none fuel))
      else if c = '[' then
        behind fun t => (class? isUnicode t).map fun rest => ((), rest)
        goOn (a.item .one)
      else if c = '^' || c = '$' then goOn (a.push .place .none)
      else if c = '*' || c = '+' || c = '?' || c = '{' then goOn (← quantifier a c)
      else goOn (a.item .one)

/-- Reads a group that can be referred to behind its opening mark. -/
def capture (isUnicode isVerbose : Bool) (name : Option Text) : Nat → Reading Width
  | 0 => failure
  | fuel + 1 => do
    let n ← openGroup name
    let w ← alternatives isUnicode isVerbose false false fuel
    closeGroup n w
    return w

/-- Reads a group that cannot be referred to behind its opening mark. -/
def group (isUnicode isVerbose : Bool) : Nat → Reading Width
  | 0 => failure
  | fuel + 1 => do
    let w ← alternatives isUnicode isVerbose false false fuel
    close
    return w

/-- Reads what is looked for behind a place; its width must be fixed. -/
def lookBehind (isUnicode isVerbose : Bool) : Nat → Reading Unit
  | 0 => failure
  | fuel + 1 => do
    let outer := (← get).behind
    modify fun r => { r with behind := some (outer.getD r.groups.size) }
    let w ← group isUnicode isVerbose fuel
    modify fun r => { r with behind := outer }
    if w.least ≠ w.most then failure

/-- Reads the rest of an alternative from a group on that has a question mark behind its
parenthesis. -/
def extension (isUnicode isVerbose isFirst : Bool) (a : Alternative) : Nat → Reading Width
  | 0 => failure
  | fuel + 1 => do
    let goOn (a : Alternative) : Reading Width := alternative isUnicode isVerbose isFirst a fuel
    match ← rest with
    | [] => failure
    | c :: t =>
      goTo t
      if c = ':' || c = '>' then goOn (a.item (← group isUnicode isVerbose fuel))
      else if c = '=' || c = '!' then
        let _ ← group isUnicode isVerbose fuel
        goOn (a.item .none)
      else if c = '<' then
        if !((← take '=') || (← take '!')) then failure
        lookBehind isUnicode isVerbose fuel
        goOn (a.item .none)
      else if c = '#' then
        behind comment?
        goOn a
      else if c = 'P' then
        if ← take '<' then
          let name ← groupName '>'
          goOn (a.item (← capture isUnicode isVerbose (some name) fuel))
        else if ← take '=' then
          let n ← namedGroup (← groupName ')')
          goOn (a.item (← groupWidth n))
        else failure
      else if c = '(' then
        condition
        let yes ← alternative isUnicode isVerbose false {} fuel
        let no ← if ← take '|' then alternative isUnicode isVerbose false {} fuel else pure .none
        close
        goOn (a.item (yes.either no))
      else
        let (set, rest) := Flag.readAll (c :: t)
        if Flag.clash set || (set.isEmpty && c != '-') then failure
        match rest with
        | .scalar ')' :: rest =>
          if !isFirst || a.last != .nothing then failure
          goTo rest
          modify fun r => { r with flags := r.flags ++ set }
          alternative isUnicode (isVerbose || set.contains .verbose) isFirst a fuel
        | _ =>
          let (set, cleared) ← behind fun _ =>
            (Flag.change? set rest).map fun (set, cleared, rest) => ((set, cleared), rest)
          let isVerbose' := (isVerbose || set.contains .verbose) && !cleared.contains .verbose
          goOn (a.item (← group isUnicode isVerbose' fuel))

end

/-- Reads a whole pattern. -/
def whole (isUnicode : Bool) : Reading Unit := do
  let _ ← alternatives isUnicode false true true (4 * (← rest).length + 4)
  let r ← get
  if !r.rest.isEmpty || r.groups.size < r.needed || Flag.clash r.flags then failure

/-- Whether a text is the pattern of a regular expression, with or without the flag `u`. -/
def isPattern (isUnicode : Bool) (t : Text) : Bool :=
  match if isUnicode then resolve? t else some t with
  | some t => ((whole isUnicode).run { rest := t }).isSome
  | none => false

end Regex
end Elementwise
