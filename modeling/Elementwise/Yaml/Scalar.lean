import Elementwise.Data.Base64
import Elementwise.Data.Numeral
import Elementwise.Yaml.Fault

/-!
# What scalars stand for

A node of a configuration file is of a kind, which a tag gives or, for a scalar without quotes, its
spelling: null, a truth value, a number, a date, or else a text.

## What is here

* `Kind` — the kinds of nodes; `Kind.ofTag` is the kind that a tag gives.
* `Yaml.kindOf` — the kind that a spelling gives.  A printer puts a text in quotes if without them
  it would stand for anything but a text.
* `Yaml.scalarValue` — the value of a scalar of a kind.
-/

set_option autoImplicit false
namespace Elementwise
namespace Yaml

/-- The kinds of nodes. -/
inductive Kind where
  | text
  | null
  | boolean
  | integer
  | float
  | binary
  | timestamp
  /-- `<<`, which merges mappings. -/
  | merge
  /-- `=`, the default entry of a mapping. -/
  | default
  | sequence
  | mapping
  | set
  /-- Entries that keep their order. -/
  | orderedMapping
  /-- Entries whose keys may be repeated. -/
  | pairs
  | unknown
deriving DecidableEq, Inhabited, Repr

/-! ## Tags -/

namespace Kind

/-- The beginning of all tags that are known. -/
def tagStem : Text := .ofString "tag:yaml.org,2002:"

/-- The ends of the tags that are known, and the kinds they give. -/
def tagEnds : List (List Char × Kind) :=
  [(['s', 't', 'r'], text), (['n', 'u', 'l', 'l'], null), (['b', 'o', 'o', 'l'], boolean),
   (['i', 'n', 't'], integer), (['f', 'l', 'o', 'a', 't'], float),
   (['b', 'i', 'n', 'a', 'r', 'y'], binary),
   (['t', 'i', 'm', 'e', 's', 't', 'a', 'm', 'p'], timestamp),
   (['m', 'e', 'r', 'g', 'e'], merge), (['v', 'a', 'l', 'u', 'e'], default),
   (['s', 'e', 'q'], sequence), (['m', 'a', 'p'], mapping), (['s', 'e', 't'], set),
   (['o', 'm', 'a', 'p'], orderedMapping), (['p', 'a', 'i', 'r', 's'], pairs)]

/-- The kind that a tag gives. -/
def ofTag (tag : Text) : Kind :=
  if tagStem.isPrefixOf tag then
    ((tagEnds.find? fun e => tag.drop tagStem.length = Text.ofChars e.1).map (·.2)).getD unknown
  else unknown

/-- Whether nodes of a kind hold others. -/
def isCollection : Kind → Bool
  | sequence | mapping | set | orderedMapping | pairs => true
  | _ => false

end Kind

/-! ## Spellings -/

/-- The spellings of null. -/
def nullWords : List (List Char) :=
  [[], ['~'], ['n', 'u', 'l', 'l'], ['N', 'u', 'l', 'l'], ['N', 'U', 'L', 'L']]

/-- The spellings of true. -/
def trueWords : List (List Char) :=
  [['y', 'e', 's'], ['Y', 'e', 's'], ['Y', 'E', 'S'],
   ['t', 'r', 'u', 'e'], ['T', 'r', 'u', 'e'], ['T', 'R', 'U', 'E'],
   ['o', 'n'], ['O', 'n'], ['O', 'N']]

/-- The spellings of false. -/
def falseWords : List (List Char) :=
  [['n', 'o'], ['N', 'o'], ['N', 'O'],
   ['f', 'a', 'l', 's', 'e'], ['F', 'a', 'l', 's', 'e'], ['F', 'A', 'L', 'S', 'E'],
   ['o', 'f', 'f'], ['O', 'f', 'f'], ['O', 'F', 'F']]

/-- The spellings of infinity, behind a sign or none. -/
def infinityWords : List (List Char) :=
  [['.', 'i', 'n', 'f'], ['.', 'I', 'n', 'f'], ['.', 'I', 'N', 'F']]

/-- The spellings of the value that is no number. -/
def nanWords : List (List Char) :=
  [['.', 'n', 'a', 'n'], ['.', 'N', 'a', 'N'], ['.', 'N', 'A', 'N']]

/-- Whether a text is one of some words. -/
def isOneOf (words : List (List Char)) (t : Text) : Bool := words.any fun w => t = Text.ofChars w

/-- The underscore, which may stand between the digits of numbers. -/
def isUnderscore (c : CodePoint) : Bool := c = '_'

/-- Digits and underscores. -/
def isDigitOr (c : CodePoint) : Bool := c.isDigit || isUnderscore c

/-- Whether a text has the shape of digits: a digit, then digits and underscores. -/
def isDigits : Text → Bool
  | [] => false
  | c :: t => c.isDigit && t.all isDigitOr

/-- A text without the sign in front of it. -/
def unsigned (t : Text) : Text := (Numeral.sign t).2

/-- The parts of a text between separators. -/
def splitOn (separator : CodePoint) : Text → List Text
  | [] => [[]]
  | c :: t =>
    if c = separator then [] :: splitOn separator t
    else
      match splitOn separator t with
      | part :: parts => (c :: part) :: parts
      | [] => [[c]]

/-- Whether a text is a digit of a sexagesimal numeral: a number below sixty. -/
def isSixtieth : Text → Bool
  | [d] => d.isDigit
  | [c, d] => c.isDigit && c.digitValue < 6 && d.isDigit
  | _ => false

/-- Whether a text consists of the parts of a sexagesimal numeral with at least one colon. -/
def isSexagesimal (isFirst : Text → Bool) (t : Text) : Bool :=
  match splitOn ':' t with
  | first :: second :: more => isFirst first && (second :: more).all isSixtieth
  | _ => false

/-- Whether a text is an exponent or nothing. -/
def isExponent : Text → Bool
  | [] => true
  | e :: sign :: digits =>
    (e = 'e' || e = 'E') && (sign = '+' || sign = '-') && !digits.isEmpty &&
      digits.all CodePoint.isDigit
  | _ => false

/-- Whether a text goes on like a fraction behind its point. -/
def isFraction (t : Text) : Bool := isExponent (t.dropWhile isDigitOr)

/-- The part of a text in front of its first point, and the part behind it. -/
def atPoint : Text → Option (Text × Text)
  | [] => none
  | c :: t =>
    if c = '.' then some ([], t) else (atPoint t).map fun (whole, part) => (c :: whole, part)

/-- Whether a text is a numeral with a point. -/
def isFloat (t : Text) : Bool :=
  isOneOf infinityWords (unsigned t) || isOneOf nanWords t ||
    (match atPoint (unsigned t) with
      | some (whole, part) =>
        (isDigits whole && isFraction part) ||
          (isSexagesimal isDigits whole && part.all isDigitOr)
      | none => false) ||
    (match t with
      | c :: d :: part => c = '.' && d.isDigit && isFraction part
      | _ => false)

/-- Whether all of a text that is not empty has a property or is an underscore. -/
def isNumeral (isDigit : CodePoint → Bool) (t : Text) : Bool :=
  !t.isEmpty && t.all fun c => isDigit c || isUnderscore c

/-- Whether a text is a decimal numeral that does not begin with a zero. -/
def isDecimal (t : Text) : Bool := isDigits t && t.head? != some (.scalar '0')

/-- Whether a text is a numeral without a point: binary, octal, decimal, hexadecimal or
sexagesimal. -/
def isInteger (t : Text) : Bool :=
  match unsigned t with
  | [] => false
  | [c] => c.isDigit
  | c :: d :: digits =>
    (c = '0' && d = 'b' && isNumeral (fun c => c = '0' || c = '1') digits) ||
      (c = '0' && isNumeral CodePoint.isOctalDigit (d :: digits)) ||
      isDecimal (c :: d :: digits) ||
      (c = '0' && d = 'x' && isNumeral (fun c => c.hexValue?.isSome) digits) ||
      isSexagesimal isDecimal (c :: d :: digits)

/-- Whether a text consists of at least `least` and at most `most` digits. -/
def isCount (least most : Nat) (t : Text) : Bool :=
  least ≤ t.length && t.length ≤ most && t.all CodePoint.isDigit

/-- The blanks around the parts of a date. -/
def isGap (c : CodePoint) : Bool := c = ' ' || c = '\t'

/-- Whether a text is a zone: a `Z`, or a sign and hours with or without minutes. -/
def isZone (t : Text) : Bool :=
  match t.dropWhile isGap with
  | [] => t.isEmpty
  | c :: t =>
    (c = 'Z' && t.isEmpty) ||
      ((c = '+' || c = '-') &&
        (match splitOn ':' t with
          | [hour] => isCount 1 2 hour
          | [hour, minute] => isCount 1 2 hour && isCount 2 2 minute
          | _ => false))

/-- Whether a text is a time of day, with or without a fraction and a zone. -/
def isTime (t : Text) : Bool :=
  let hour := t.takeWhile CodePoint.isDigit
  let more := t.drop hour.length
  let behind := more.drop 6
  isCount 1 2 hour && more.head? = some (.scalar ':') && isCount 2 2 ((more.drop 1).take 2) &&
    (more.drop 3).head? = some (.scalar ':') && isCount 2 2 ((more.drop 4).take 2) &&
    (match behind with
      | .scalar '.' :: digits => isZone (digits.dropWhile CodePoint.isDigit)
      | _ => isZone behind)

/-- The date at the beginning of a text and the time of day behind it, if any; months and days of
one digit are possible too. -/
def splitDate (t : Text) : Option (Date × Text) :=
  let year := t.takeWhile CodePoint.isDigit
  let behind := t.drop year.length
  let month := (behind.drop 1).takeWhile CodePoint.isDigit
  let behind' := behind.drop (1 + month.length)
  let day := (behind'.drop 1).takeWhile CodePoint.isDigit
  let rest := behind'.drop (1 + day.length)
  let time :=
    match rest with
    | .scalar 'T' :: time => time
    | .scalar 't' :: time => time
    | _ => rest.dropWhile isGap
  if isCount 4 4 year && isCount 1 2 month && isCount 1 2 day &&
      behind.head? = some (.scalar '-') && behind'.head? = some (.scalar '-') &&
      (rest.isEmpty || (time.length < rest.length && isTime time)) then
    some (⟨Text.toNat 10 year, Text.toNat 10 month, Text.toNat 10 day⟩, time)
  else none

/-- Whether a text is a date, with or without a time.  Without one its month and its day must have
two digits. -/
def isTimestamp (t : Text) : Bool :=
  match splitDate t with
  | some (_, time) => !time.isEmpty || t.length = 10
  | none => false

/-- The characters that begin other things than scalars. -/
def isMark (t : Text) : Bool := isOneOf [['!'], ['&'], ['*']] t

/-- A text without the line feed at its end, if there is more than that. -/
def dropLineFeed (t : Text) : Text :=
  if 1 < t.length && t.getLast? = some (.scalar '\n') then t.dropLast else t

/-- The kind that the spelling of a scalar gives. -/
def kindOf (t : Text) : Kind :=
  let t := dropLineFeed t
  if isOneOf trueWords t || isOneOf falseWords t then .boolean
  else if isFloat t then .float
  else if isInteger t then .integer
  else if isOneOf [['<', '<']] t then .merge
  else if isOneOf nullWords t then .null
  else if isTimestamp t then .timestamp
  else if isOneOf [['=']] t then .default
  else if isMark t then .unknown
  else .text

/-! ## Numbers -/

/-- A numeral without its underscores. -/
def withoutUnderscores (t : Text) : Text := t.filter fun c => !isUnderscore c

/-- The integer that parts with the weights of sixty stand for, behind the value of the parts in
front. -/
def sexagesimal : Int → List Text → Except ConversionFault Int
  | n, [] => .ok n
  | n, part :: parts =>
    match Numeral.integer 10 part with
    | .ok digit => sexagesimal (n * 60 + digit) parts
    | .error e => .error e

/-- The value of an integer without a sign and underscores. -/
def naturalValue (t : Text) : Except ConversionFault Int :=
  match t with
  | [] => .error .noNumeral
  | .scalar '0' :: .scalar 'b' :: digits => Numeral.integer 2 digits
  | .scalar '0' :: .scalar 'x' :: digits => Numeral.integer 16 digits
  | .scalar '0' :: _ => Numeral.integer 8 t
  | _ => sexagesimal 0 (splitOn ':' t)

/-- The value of an integer. -/
def integerValue (t : Text) : Except ConversionFault Int :=
  match withoutUnderscores t with
  | [] => .error .noNumeral
  | c :: digits =>
    (naturalValue (unsigned (c :: digits))).map fun n => if c = '-' then -n else n

/-- The sum of doubles, each of which weighs sixty times as much as the one before it. -/
def weightedSum : Binary64 → Nat → List Binary64 → Except ConversionFault Binary64
  | sum, _, [] => .ok sum
  | sum, weight, x :: xs =>
    match Binary64.ofNat? weight with
    | some w => weightedSum (sum.plus (x.times w)) (weight * 60) xs
    | none => .error .wideInteger

/-- The value of a numeral with a point, without a sign and underscores. -/
def positiveValue (t : Text) : Except ConversionFault Binary64 :=
  if isOneOf [['.', 'i', 'n', 'f']] t then .ok (.infinite false)
  else if isOneOf [['.', 'n', 'a', 'n']] t then .ok .nan
  else
    match splitOn ':' t with
    | first :: second :: more =>
      match (first :: second :: more).mapM Numeral.float with
      | .ok parts => weightedSum (.finite false 0 (-1074)) 1 parts.reverse
      | .error e => .error e
    | _ => Numeral.float t

/-- The value of a numeral with a point. -/
def floatValue (t : Text) : Except ConversionFault Binary64 :=
  match Numeral.lower (withoutUnderscores t) with
  | [] => .error .noNumeral
  | c :: digits =>
    (positiveValue (unsigned (c :: digits))).map fun x => if c = '-' then x.opposite else x

/-! ## Truth values and dates -/

/-- The truth value of a word, in letters of any size. -/
def booleanValue (t : Text) : Except ConversionFault Bool :=
  let word := Numeral.lower t
  if isOneOf trueWords word then .ok true
  else if isOneOf falseWords word then .ok false
  else .error (.notBoolean word)

/-- The microseconds that the digits of a fraction of a second stand for; those behind the sixth are
left out. -/
def microseconds (digits : Text) : Nat :=
  Text.toNat 10 (digits.take 6) * Nat.pow 10 (6 - digits.length)

/-- The minutes that a zone is ahead of universal time.  None where no zone stands. -/
def zoneOffset (t : Text) : Option Int :=
  match t.dropWhile isGap with
  | [] => none
  | c :: digits =>
    if c = 'Z' then some 0
    else
      let minutes : Int :=
        match splitOn ':' digits with
        | [hour, minute] => Text.toNat 10 hour * 60 + Text.toNat 10 minute
        | _ => Text.toNat 10 digits * 60
      some (if c = '-' then -minutes else minutes)

/-- The time of a date that the spelling of a time of day gives. -/
def timeOf (date : Date) (t : Text) : Moment :=
  let hour := t.takeWhile CodePoint.isDigit
  let behind := t.drop (hour.length + 6)
  let (digits, zone) : Text × Text :=
    match behind with
    | .scalar '.' :: t => (t.takeWhile CodePoint.isDigit, t.dropWhile CodePoint.isDigit)
    | _ => ([], behind)
  { date
    hour := Text.toNat 10 hour
    minute := Text.toNat 10 ((t.drop (hour.length + 1)).take 2)
    second := Text.toNat 10 ((t.drop (hour.length + 4)).take 2)
    microsecond := microseconds digits
    offset := zoneOffset zone }

/-- The date or the time that a spelling gives. -/
def dateValue (t : Text) : Except ConversionFault Value :=
  let t := dropLineFeed t
  match splitDate t with
  | none => .error .notDate
  | some (date, time) =>
    let value : Except CalendarFault Value :=
      if time.isEmpty then date.check.map .date else (timeOf date time).check.map .moment
    value.mapError .calendar

/-! ## Values -/

/-- The value of a scalar of a kind. -/
def scalarValue (kind : Kind) (t : Text) : Except Fault Value :=
  match kind with
  | .text => .ok (.text t)
  | .null => .ok .null
  | .boolean => ((booleanValue t).map .boolean).mapError .conversion
  | .integer => ((integerValue t).map .integer).mapError .conversion
  | .float => ((floatValue t).map .float).mapError .conversion
  | .timestamp => (dateValue t).mapError .conversion
  | .binary =>
    if t.all fun c => c.val < 0x80 then (expect (Base64.decode? t)).map .bytes
    else .error .malformed
  | _ => .error .malformed

end Yaml
end Elementwise
