import Elementwise.CodePoint

/-!
# Dates and times of day

Dates of the Gregorian calendar, extended to all years from 1 to 9999, and times of day with or
without an offset from universal time.

## What is here

* `Date`, `Moment` — a date, and a time of a date.
* `Date.check`, `Moment.check` — whether there is such a date or time; `CalendarFault` says what is
  wrong with one.
* `Moment.instant` — the time that passed since the first date, by which moments are compared.
-/

set_option autoImplicit false
namespace Elementwise

/-- A date. -/
structure Date where
  year : Nat
  month : Nat
  day : Nat
deriving DecidableEq, Inhabited, Repr

/-- A time of a date.  The offset tells by how many minutes it is ahead of universal time. -/
structure Moment where
  date : Date
  hour : Nat
  minute : Nat
  second : Nat
  microsecond : Nat := 0
  offset : Option Int := none
deriving DecidableEq, Inhabited, Repr

/-- Why there is no such date or time. -/
inductive CalendarFault where
  | year (value : Nat)
  | month
  | day
  | hour
  | minute
  | second
  /-- The offset is that of a day or more. -/
  | offset (minutes : Int)
deriving DecidableEq, Inhabited, Repr

/-- A number in decimal notation, filled up with zeros to a width. -/
def Text.padded (width n : Nat) : Text :=
  let digits := Nat.toDigits 10 n
  .ofChars (List.replicate (width - digits.length) '0' ++ digits)

/-! ## Spans of time -/

/-- The number of minutes of a day. -/
def minutesOfDay : Nat := 1440

/-- How messages show a span of some minutes: whole days, of which a negative span takes one more,
and the seconds that are left. -/
def quotedSpan (minutes : Int) : Text :=
  let days := minutes.fdiv minutesOfDay
  let seconds := minutes.fmod minutesOfDay * 60
  let parts : List Text :=
    (if days = 0 then [] else [.ofString "days=" ++ .ofInt days]) ++
      (if seconds = 0 then [] else [.ofString "seconds=" ++ .ofInt seconds])
  let inside := if parts.isEmpty then .ofString "0" else Text.join (.ofString ", ") parts
  .ofString "datetime.timedelta(" ++ inside ++ .ofString ")"

/-- The wording of a fault. -/
def CalendarFault.message : CalendarFault → Text
  | year value => .ofString "year " ++ .ofNat value ++ .ofString " is out of range"
  | month => .ofString "month must be in 1..12"
  | day => .ofString "day is out of range for month"
  | hour => .ofString "hour must be in 0..23"
  | minute => .ofString "minute must be in 0..59"
  | second => .ofString "second must be in 0..59"
  | offset minutes =>
    .ofString "offset must be a timedelta strictly between -timedelta(hours=24) and " ++
      .ofString "timedelta(hours=24), not " ++ quotedSpan minutes ++ .ofString "."

/-! ## Dates -/

namespace Date

/-- Whether a year has a leap day. -/
def isLeap (year : Nat) : Bool := year % 4 = 0 && (year % 100 != 0 || year % 400 = 0)

/-- The number of days of a month. -/
def daysOfMonth (year month : Nat) : Nat :=
  if month = 2 then (if isLeap year then 29 else 28)
  else if month = 4 || month = 6 || month = 9 || month = 11 then 30
  else 31

/-- What is wrong with a date: its year, else its month, else its day. -/
def fault? (d : Date) : Option CalendarFault :=
  if d.year = 0 || 9999 < d.year then some (.year d.year)
  else if d.month = 0 || 12 < d.month then some .month
  else if d.day = 0 || daysOfMonth d.year d.month < d.day then some .day
  else none

/-- A date, if there is such a one. -/
def check (d : Date) : Except CalendarFault Date :=
  match d.fault? with
  | some e => .error e
  | none => .ok d

/-- The number of days from the first of January of the year 1 up to a date. -/
def ordinal (d : Date) : Nat :=
  let before := d.year - 1
  let months := (List.range (d.month - 1)).foldl (fun n k => n + daysOfMonth d.year (k + 1)) 0
  before * 365 + before / 4 - before / 100 + before / 400 + months + (d.day - 1)

/-- A date in figures: year, month and day. -/
def text (d : Date) : Text :=
  Text.padded 4 d.year ++ .scalar '-' :: Text.padded 2 d.month ++
    .scalar '-' :: Text.padded 2 d.day

/-- The parts of a date, as messages show them. -/
def quotedParts (d : Date) : List Text := [.ofNat d.year, .ofNat d.month, .ofNat d.day]

/-- How messages show a date. -/
def quoted (d : Date) : Text :=
  .ofString "datetime.date(" ++ Text.join (.ofString ", ") d.quotedParts ++ .ofString ")"

end Date

/-! ## Moments -/

namespace Moment

/-- What is wrong with a moment: its offset, else its date, else its time of day. -/
def fault? (m : Moment) : Option CalendarFault :=
  match m.offset.filter fun minutes => minutesOfDay ≤ minutes.natAbs with
  | some minutes => some (.offset minutes)
  | none =>
    match m.date.fault? with
    | some e => some e
    | none =>
      if 23 < m.hour then some .hour
      else if 59 < m.minute then some .minute
      else if 59 < m.second then some .second
      else none

/-- A moment, if there is such a one. -/
def check (m : Moment) : Except CalendarFault Moment :=
  match m.fault? with
  | some e => .error e
  | none => .ok m

/-- The number of microseconds from the first of January of the year 1 up to a moment, in universal
time if its offset is known. -/
def instant (m : Moment) : Int :=
  let minutes : Int := ((m.date.ordinal * 24 + m.hour) * 60 + m.minute : Nat)
  ((minutes - m.offset.getD 0) * 60 + m.second) * 1000000 + m.microsecond

/-- Whether two moments are the same point in time.  A moment with an offset and one without have
nothing in common. -/
def same (m n : Moment) : Bool :=
  m.offset.isSome = n.offset.isSome && m.instant = n.instant

/-- An offset in figures: a sign, hours and minutes. -/
def offsetText (minutes : Int) : Text :=
  let size := minutes.natAbs
  .scalar (if minutes < 0 then '-' else '+') :: Text.padded 2 (size / 60) ++
    .scalar ':' :: Text.padded 2 (size % 60)

/-- A moment in figures; microseconds are left out if there are none. -/
def text (m : Moment) : Text :=
  m.date.text ++ .scalar ' ' :: Text.padded 2 m.hour ++ .scalar ':' :: Text.padded 2 m.minute ++
    .scalar ':' :: Text.padded 2 m.second ++
    (if m.microsecond = 0 then [] else .scalar '.' :: Text.padded 6 m.microsecond) ++
    ((m.offset.map offsetText).getD [])

/-- How messages show an offset. -/
def quotedOffset (minutes : Int) : Text :=
  if minutes = 0 then .ofString "datetime.timezone.utc"
  else .ofString "datetime.timezone(" ++ quotedSpan minutes ++ .ofString ")"

/-- How messages show a moment.  Microseconds are left out if there are none, and then the seconds
too if there are none. -/
def quoted (m : Moment) : Text :=
  let parts : List Text :=
    m.date.quotedParts ++ [.ofNat m.hour, .ofNat m.minute] ++
      (if m.second = 0 && m.microsecond = 0 then [] else [.ofNat m.second]) ++
      (if m.microsecond = 0 then [] else [.ofNat m.microsecond]) ++
      ((m.offset.map fun minutes => [.ofString "tzinfo=" ++ quotedOffset minutes]).getD [])
  .ofString "datetime.datetime(" ++ Text.join (.ofString ", ") parts ++ .ofString ")"

end Moment
end Elementwise
