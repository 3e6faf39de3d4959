import Elementwise.Data.Quoted

/-!
# Texts in bytes

Files hold texts as UTF-8.  Bytes are read one after another, and a character of several bytes is
pending until its last byte has come; so a file can also be read in pieces.

* `Utf8.decode` — the text of bytes.
* `Utf8.decodePieces` — the text of bytes that are read in pieces.
* `Utf8.unencodable?` — the surrogates that keep a text from being written.
-/

set_option autoImplicit false
namespace Elementwise
namespace Utf8

/-- What is wrong with bytes. -/
inductive Reason where
  | start
  | continuation
  | ended
deriving DecidableEq, Inhabited, Repr

/-- Why bytes are no text: those from `start` up to `stop`, the first of which is `first`. -/
structure Fault where
  first : UInt8
  start : Nat
  stop : Nat
  reason : Reason
deriving DecidableEq, Inhabited, Repr

/-- The wording of a reason. -/
def Reason.message : Reason → Text
  | start => .ofString "invalid start byte"
  | continuation => .ofString "invalid continuation byte"
  | ended => .ofString "unexpected end of data"

/-- The wording of a fault. -/
def Fault.message (e : Fault) : Text :=
  .ofString "'utf-8' codec can't decode " ++
    (if e.stop = e.start + 1 then
      .ofString "byte 0x" ++ Text.ofHex 2 e.first.toNat ++ .ofString " in position " ++
        .ofNat e.start
    else
      .ofString "bytes in position " ++ .ofNat e.start ++ .ofString "-" ++ .ofNat (e.stop - 1)) ++
    .ofString ": " ++ e.reason.message

/-- A character whose last bytes are still missing. -/
structure Pending where
  /-- Its bytes so far, the last one first. -/
  bytes : List UInt8
  start : Nat
  value : Nat
  /-- The number of missing bytes. -/
  missing : Nat
  /-- The least and the greatest byte that can come next. -/
  low : Nat
  high : Nat
deriving DecidableEq, Inhabited, Repr

/-- The character that begins with a byte at a place; none if no character does. -/
def Pending.ofLead? (b : UInt8) (start : Nat) : Option Pending :=
  let n := b.toNat
  if 0xC2 ≤ n && n ≤ 0xDF then some ⟨[b], start, n - 0xC0, 1, 0x80, 0xBF⟩
  else if 0xE0 ≤ n && n ≤ 0xEF then
    some ⟨[b], start, n - 0xE0, 2, if n = 0xE0 then 0xA0 else 0x80,
      if n = 0xED then 0x9F else 0xBF⟩
  else if 0xF0 ≤ n && n ≤ 0xF4 then
    some ⟨[b], start, n - 0xF0, 3, if n = 0xF0 then 0x90 else 0x80,
      if n = 0xF4 then 0x8F else 0xBF⟩
  else none

/-- The fault of a character that another byte, or nothing, follows too early. -/
def Pending.fault (p : Pending) (stop : Nat) (reason : Reason) : Fault :=
  ⟨p.bytes.getLast?.getD 0, p.start, stop, reason⟩

/-- The text of bytes from a position on, and the bytes of a character that is not complete.  If the
bytes are the last ones, there must be none. -/
def decodeFrom (isLast : Bool) :
    Nat → Option Pending → List UInt8 → Except Fault (Text × List UInt8)
  | _, none, [] => .ok ([], [])
  | position, some p, [] =>
    if isLast then .error (p.fault position .ended) else .ok ([], p.bytes.reverse)
  | position, none, b :: bs =>
    if b < 0x80 then do
      let (t, left) ← decodeFrom isLast (position + 1) none bs
      return (.ofNat b.toNat :: t, left)
    else
      match Pending.ofLead? b position with
      | some p => decodeFrom isLast (position + 1) (some p) bs
      | none => .error ⟨b, position, position + 1, .start⟩
  | position, some p, b :: bs =>
    if p.low ≤ b.toNat && b.toNat ≤ p.high then
      let value := p.value * 0x40 + (b.toNat - 0x80)
      if p.missing = 1 then do
        let (t, left) ← decodeFrom isLast (position + 1) none bs
        return (.ofNat value :: t, left)
      else
        decodeFrom isLast (position + 1)
          (some ⟨b :: p.bytes, p.start, value, p.missing - 1, 0x80, 0xBF⟩) bs
    else .error (p.fault position .continuation)

/-- The text of bytes. -/
def decode (bytes : List UInt8) : Except Fault Text :=
  (decodeFrom true 0 none bytes).map (·.1)

/-- The text of bytes that are read in pieces of a size, behind the bytes left of the piece before.
Faults count the bytes from the beginning of these. -/
def decodePieces (size : Nat) : Nat → List UInt8 → List UInt8 → Except Fault Text
  | fuel + 1, left, bytes =>
    if bytes.isEmpty then decode left
    else do
      let (t, left) ← decodeFrom false 0 none (left ++ bytes.take size)
      return t ++ (← decodePieces size fuel left (bytes.drop size))
  | 0, left, bytes => decode (left ++ bytes)

/-- Surrogates in a text that is to be written: the first one, its place and their number. -/
structure Unencodable where
  first : CodePoint
  start : Nat
  count : Nat
deriving DecidableEq, Inhabited, Repr

/-- The wording of surrogates that cannot be written. -/
def Unencodable.message (e : Unencodable) : Text :=
  .ofString "'utf-8' codec can't encode " ++
    (if e.count = 1 then
      .ofString "character '" ++ Quoted.escape '\x27' e.first ++ .ofString "' in position " ++
        .ofNat e.start
    else
      .ofString "characters in position " ++ .ofNat e.start ++ .ofString "-" ++
        .ofNat (e.start + e.count - 1)) ++
    .ofString ": surrogates not allowed"

/-- Whether a code point is a surrogate. -/
def isSurrogate : CodePoint → Bool
  | .scalar _ => false
  | .surrogate _ => true

/-- The first surrogates of a text. -/
def unencodable? (t : Text) : Option Unencodable :=
  let start := (t.takeWhile fun c => !isSurrogate c).length
  let run := (t.drop start).takeWhile isSurrogate
  run.head?.map fun c => ⟨c, start, run.length⟩

end Utf8
end Elementwise
