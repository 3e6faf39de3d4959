import Elementwise.Data.Binary64
import Elementwise.Data.Calendar

/-!
# Values

Plain data as it comes from configuration files and goes into reports.
-/

set_option autoImplicit false
namespace Elementwise

/-- A value of plain data.  The entries of a map and the members of a set keep their order. -/
inductive Value where
  | null
  | boolean (value : Bool)
  | integer (value : Int)
  | float (value : Binary64)
  | text (value : Text)
  | bytes (value : List UInt8)
  | date (value : Date)
  | moment (value : Moment)
  | list (items : List Value)
  | map (entries : List (Value × Value))
  | set (members : List Value)
  | pair (first second : Value)
  /-- The list or map around this place, of which it is a part itself. -/
  | around (isMap : Bool)
deriving Inhabited, Repr

namespace Value

/-- The text of a string. -/
def ofString (s : String) : Value := .text (.ofString s)

/-- A natural number. -/
def ofNat (n : Nat) : Value := .integer (Int.ofNat n)

/-- Two offsets. -/
def ofOffsets (start stop : Nat) : Value := .list [.ofNat start, .ofNat stop]

/-- The text of a value that is one. -/
def text? : Value → Option Text
  | text t => some t
  | _ => none

/-- The texts of a list that holds nothing else. -/
def texts? : Value → Option (List Text)
  | list items => items.mapM text?
  | _ => none

/-- Whether a value counts as true: everything but null, false, zero and what is empty. -/
def isTrue : Value → Bool
  | null => false
  | boolean b => b
  | integer n => n != 0
  | float (.finite _ mantissa _) => mantissa != 0
  | float _ => true
  | text t => !t.isEmpty
  | bytes bs => !bs.isEmpty
  | list items => !items.isEmpty
  | map entries => !entries.isEmpty
  | set members => !members.isEmpty
  | date _ | moment _ | pair .. | around _ => true

/-- The name by which messages call the type of a value. -/
def typeName : Value → String
  | null => "NoneType"
  | boolean _ => "bool"
  | integer _ => "int"
  | float _ => "float"
  | text _ => "str"
  | bytes _ => "bytes"
  | date _ => "date"
  | moment _ => "datetime"
  | list _ | around false => "list"
  | map _ | around true => "dict"
  | set _ => "set"
  | pair .. => "tuple"

end Value
end Elementwise
