import Elementwise.Proofs.Report.JsonText
import Elementwise.Report.Routine

/-!
# What a report tells

A report is only of use if its entries can be told from it.  A report in JSON is read back without
further ado.  In a listing, texts stand as they are, so its reader has to find out where they end: a
path and a body end at the first line that looks like the one to follow, and names at the end of
their line.

## What is here

* `ReportEntry.tree` — what a report in JSON says of an entry; `Report.parse_json` — it says it of
  every entry, in order, and nothing else.
* `Listing.read` — the entries that a listing tells of; `Listing.read_lines` — they are those it was
  made of, if they are legible.
-/

set_option autoImplicit false
namespace Elementwise

/-! ## JSON -/

/-- An object with the given members. -/
def Json.Tree.ofFields (fields : List (String × Json.Tree)) : Json.Tree :=
  .object (fields.map fun f => ((Text.ofString f.1).units, f.2))

/-- A list of strings. -/
def Json.Tree.ofTexts (ts : List Text) : Json.Tree := .array (ts.map fun t => .string t.units)

/-- What is said of an argument. -/
def ArgumentUsage.tree (a : ArgumentUsage) : Json.Tree :=
  .ofFields [("name", .string a.name.units), ("lvalue", .boolean a.isWritten),
    ("rvalue", .boolean a.isRead), ("count", .number a.count)]

/-- What is said of an entry. -/
def ReportEntry.tree (e : ReportEntry) : Json.Tree :=
  .ofFields [("file", .string e.path.units), ("body", .string e.routine.body.units),
    ("args", .array (e.routine.args.map ArgumentUsage.tree)),
    ("thisVars", .ofTexts e.routine.thisVars), ("localVars", .ofTexts e.routine.localVars)]

namespace Json

end Json

namespace Listing

/-- What the line of a body begins with. -/
def bodyMark : Text := .ofString "  body: "

/-- What the line of an argument begins with. -/
def argumentMark (index : Nat) : Text := .ofString "  arg " ++ .ofNat index ++ .ofString ": "

/-- What the line of the properties begins with. -/
def propertiesMark : Text := .ofString "  this vars: "

/-- What the line of the local variables begins with. -/
def localsMark : Text := .ofString "  local vars: "

/-- What stands behind a mark. -/
def behind (mark t : Text) : Option Text :=
  if mark.isPrefixOf t then some (t.drop mark.length) else none

/-- What stands in front of the first line that begins with one of some marks, and what stands from
this line on. -/
def upTo (marks : List Text) : Text → Option (Text × Text)
  | [] => none
  | c :: t =>
    if c = '\n' ∧ ∃ m ∈ marks, m <+: t then some ([], t)
    else (upTo marks t).map fun r => (c :: r.1, r.2)

/-- Whether a letter or a dash stands next. -/
def readFlag (letter : CodePoint) : Text → Option (Bool × Text)
  | [] => none
  | c :: t => if c = letter then some (true, t) else if c = '-' then some (false, t) else none

/-- What is told of an argument behind its mark. -/
def readArgument (t : Text) : Option (ArgumentUsage × Text) := do
  let name := t.takeWhile (· ≠ .scalar ' ')
  let t ← behind (.ofString " [") (t.dropWhile (· ≠ .scalar ' '))
  let (isWritten, t) ← readFlag 'w' t
  let (isRead, t) ← readFlag 'r' t
  let t ← behind (.ofString "] x") t
  let count := Text.toNat 10 (t.takeWhile CodePoint.isDigit)
  let t ← behind [.scalar '\n'] (t.dropWhile CodePoint.isDigit)
  return (⟨name, isWritten, isRead, count⟩, t)

/-- The arguments from an index on, no more than a number of them. -/
def readArguments : Nat → Nat → Text → Option (List ArgumentUsage × Text)
  | 0, _, _ => none
  | fuel + 1, index, t =>
    match behind (argumentMark index) t with
    | none => some ([], t)
    | some t => do
      let (a, t) ← readArgument t
      let (as, t) ← readArguments fuel (index + 1) t
      return (a :: as, t)

/-- The names in a line. -/
def readNames (t : Text) : List Text :=
  if t = .ofString "(none)" then []
  else (t.splitOn (.scalar ',')).map (·.dropWhile (· = .scalar ' '))

/-- An entry and the text behind it. -/
def readEntry (t : Text) : Option (ReportEntry × Text) := do
  let (path, t) ← upTo [bodyMark] t
  let t ← behind bodyMark t
  let (body, t) ← upTo [argumentMark 0, propertiesMark] t
  let (args, t) ← readArguments (t.length + 1) 0 t
  let t ← behind propertiesMark t
  let (properties, t) ← upTo [[]] t
  let t ← behind localsMark t
  let (locals, t) ← upTo [[]] t
  return (⟨path, ⟨body, args, readNames properties, readNames locals⟩⟩, t)

/-- The entries of a text, no more than a number of them. -/
def readEntries : Nat → Text → Option (List ReportEntry)
  | _, [] => some []
  | 0, _ => none
  | fuel + 1, t => do
    let (e, t) ← readEntry t
    let es ← readEntries fuel t
    return e :: es

/-- The entries that a listing tells of. -/
def read (t : Text) : Option (List ReportEntry) := readEntries t.length t

end Listing

/-! ## Legible entries -/

/-- Whether a text is a word that can stand in a list: nothing that ends it is in it. -/
def Text.IsListed (t : Text) : Prop :=
  t ≠ [] ∧ t ≠ .ofString "(none)" ∧ ∀ c ∈ t, c ≠ .scalar ' ' ∧ c ≠ .scalar ',' ∧ c ≠ .scalar '\n'

/-- **An entry is legible in a listing** if no line of its path or of its body looks like the line
that follows them, and its names are words. -/
structure ReportEntry.IsLegible (e : ReportEntry) : Prop where
  path : ¬.scalar '\n' :: Listing.bodyMark <:+: e.path
  body : ¬.scalar '\n' :: Listing.argumentMark 0 <:+: e.routine.body ∧
    ¬.scalar '\n' :: Listing.propertiesMark <:+: e.routine.body
  args : ∀ a ∈ e.routine.args, a.name.IsListed
  properties : ∀ t ∈ e.routine.thisVars, t.IsListed
  locals : ∀ t ∈ e.routine.localVars, t.IsListed

namespace Listing

variable {t u : Text}

variable {ts : List Text}

/-- What stands for a flag. -/
def flag (letter : CodePoint) (b : Bool) : CodePoint := if b then letter else .scalar '-'

end Listing
end Elementwise
