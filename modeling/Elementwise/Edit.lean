import Elementwise.Place

/-!
# Edits of a text

Replacements keyed by offsets into a text that does not change.  Because every offset refers to that
text, edits can be recorded in any order; a window of the edited text is put together in one pass
over them in the order of their offsets.

## What is here

* `EditBuffer.replace` — records an edit that lies inside the text.
* `EditBuffer.sorted` — the edits by start and end, and in recording order where these are equal.
* `EditBuffer.apply` — the text of a window with its edits applied.
-/

set_option autoImplicit false
namespace Elementwise

/-- The replacement of a part of a text. -/
structure Edit where
  span : Span
  replacement : Text
deriving DecidableEq, Inhabited, Repr

/-- Why an edit or a window is refused. -/
inductive EditError where
  /-- The edit does not lie inside the text. -/
  | outside (start stop : Int) (length : Nat)
  /-- The edit crosses an end of the window. -/
  | straddles (edit : Span) (start stop : Int)
  /-- The second edit begins inside the first. -/
  | overlaps (first second : Span)
deriving DecidableEq, Inhabited, Repr

namespace Edit

/-- Whether an edit comes before another one or at the same place. -/
def precedes (a b : Edit) : Bool :=
  a.span.start < b.span.start || (a.span.start = b.span.start && a.span.stop ≤ b.span.stop)

/-- Puts an edit in front of the first one that comes after it. -/
def insert (e : Edit) : List Edit → List Edit
  | [] => [e]
  | f :: fs => if e.precedes f then e :: f :: fs else f :: insert e fs

/-- Sorts edits by place; edits at the same place keep their order. -/
def sort : List Edit → List Edit
  | [] => []
  | e :: es => insert e (sort es)

/-- Whether an edit belongs to a window: it touches the inside of it, or it is empty and lies in the
window or at one of its ends. -/
def isIn (start stop : Int) (e : Edit) : Bool :=
  (start < e.span.stop && (e.span.start : Int) < stop) ||
  (e.span.start = e.span.stop && start ≤ e.span.start && (e.span.start : Int) ≤ stop)

end Edit

/-- An offset counted from the end of a text if it is negative, moved to the nearest end if it lies
outside. -/
def Text.clamp (t : Text) (offset : Int) : Nat :=
  if offset < 0 then (offset + t.length).toNat else min offset.toNat t.length

/-- The part of a text between two offsets. -/
def Text.between (t : Text) (start stop : Int) : Text :=
  Text.slice t ⟨t.clamp start, t.clamp stop⟩

/-- A text with the edits recorded for it, in the order of recording. -/
structure EditBuffer where
  text : Text
  edits : List Edit := []
deriving DecidableEq, Inhabited, Repr

namespace EditBuffer

/-- Records that the text between two offsets is replaced. -/
def replace (b : EditBuffer) (start stop : Int) (replacement : Text) :
    Except EditError EditBuffer :=
  if 0 ≤ start ∧ start ≤ stop ∧ stop ≤ b.text.length then
    .ok { b with edits := b.edits ++ [⟨⟨start.toNat, stop.toNat⟩, replacement⟩] }
  else .error (.outside start stop b.text.length)

/-- The recorded edits in the order of their places. -/
def sorted (b : EditBuffer) : List Edit := Edit.sort b.edits

/-- Puts together the window from `start` to `stop`, of which the part up to `position` is done.
`previous` is the last edit applied. -/
def splice (text : Text) (start stop : Int) :
    Int → Option Edit → List Edit → Except EditError Text
  | position, _, [] => .ok (Text.between text position stop)
  | position, previous, e :: es =>
    if e.isIn start stop then
      if (e.span.start : Int) < start ∨ stop < e.span.stop then
        .error (.straddles e.span start stop)
      else
        match previous.filter fun f => e.span.start < f.span.stop with
        | some f => .error (.overlaps f.span e.span)
        | none =>
          match splice text start stop e.span.stop (some e) es with
          | .ok rest => .ok (Text.between text position e.span.start ++ e.replacement ++ rest)
          | .error err => .error err
    else splice text start stop position previous es

/-- The text between two offsets with the edits there applied. -/
def apply (b : EditBuffer) (start stop : Int) : Except EditError Text :=
  splice b.text start stop start none b.sorted

end EditBuffer
end Elementwise
