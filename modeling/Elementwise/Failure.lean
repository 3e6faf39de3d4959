import Elementwise.Data.Conversion
import Elementwise.Data.Quoted
import Elementwise.Edit
import Elementwise.ParseError

/-!
# Failures

Everything for which the compilation of a routine or the reading of a configuration can fail.  A
`Failure` names the cause; `Failure.message` words it, `Failure.details` gives the facts that go
with it, and `Failure.kind` sorts failures for callers that treat some kinds alike.
-/

set_option autoImplicit false
namespace Elementwise

/-- What a routine may not contain, because it cannot be flattened. -/
inductive Construct where
  | eval
  | withObject
  | bareThis
  | computedThis
  /-- A global whose name has the shape of a generated one. -/
  | syntheticName (name : Text)
deriving DecidableEq, Inhabited, Repr

/-- Why a value that is said to be a range has no two ends. -/
inductive RangeFault where
  /-- It has no items at all. -/
  | notIndexed (typeName : String)
  /-- It has too few of them. -/
  | short (isText : Bool)
  /-- Its items are entries with keys of their own. -/
  | unordered
deriving DecidableEq, Inhabited, Repr

/-- Why something failed. -/
inductive Failure where
  -- finding the function
  | noSource (typeName : String)
  | unparsable (error : ParseError)
  | statementCount (count : Nat)
  | notCall (typeName : String)
  | notFunction (typeName : String)
  | suspendable (isAsync : Bool) (span : Span)
  | parameterForm (typeName : String) (span : Span)
  | noRange (typeName : Option Value)
  | rangeFault (cause : RangeFault)
  -- rewriting it
  | rejected (construct : Construct) (span : Span)
  | edit (error : EditError)
  -- configuration
  | invalidConfiguration (errors : List Text)
  | fileMissing (path : Text)
  | fileMalformed (path : Text)
  | fileNotMapping (path : Text)
  | fileNotTexts (key : Text) (value : Value)
  | fileInvalid (path : Text) (errors : List Text)
  | conversion (cause : ConversionFault)
  -- numbering
  | negativeStart (start : Int)
deriving Inhabited, Repr

/-- The kinds of failures. -/
inductive FailureKind where
  | type | parsing | unsupported | range | edit | configuration | missingFile | number | overflow
  | position | key | attribute | internal
deriving DecidableEq, Inhabited, Repr

namespace Construct

/-- The name of a construct in details. -/
def label : Construct → String
  | eval => "eval"
  | withObject => "with"
  | bareThis => "bare-this"
  | computedThis => "computed-this"
  | syntheticName _ => "synthetic-name"

/-- Why a construct is rejected. -/
def message : Construct → Text
  | eval => .ofString "eval() is not allowed"
  | withObject => .ofString "with() statements are not allowed"
  | bareThis => .ofString "this may only be used as this.<property>"
  | computedThis => .ofString "Computed access to this is not allowed"
  | syntheticName name =>
    .ofString "Global " ++ name ++ .ofString " collides with the generated naming scheme"

end Construct

namespace EditError

/-- The wording of a refused edit. -/
def message : EditError → Text
  | outside start stop _ =>
    .ofString "Edit range [" ++ .ofInt start ++ .ofString ", " ++ .ofInt stop ++
      .ofString ") lies outside the source text"
  | straddles .. => .ofString "Edit straddles the reconstruction window"
  | overlaps .. => .ofString "Overlapping edits detected"

/-- The facts that go with a refused edit. -/
def details : EditError → List (String × Value)
  | outside start stop length =>
    [("range", .list [.integer start, .integer stop]), ("text_length", .ofNat length)]
  | straddles edit start stop =>
    [("edit_range", .ofOffsets edit.start edit.stop),
     ("window", .list [.integer start, .integer stop])]
  | overlaps first second =>
    [("edit1_range", .ofOffsets first.start first.stop),
     ("edit2_range", .ofOffsets second.start second.stop)]

end EditError

/-- The wording of a range without two ends. -/
def RangeFault.message : RangeFault → Text
  | notIndexed typeName =>
    .scalar '\x27' :: Text.ofString typeName ++ Text.ofString "' object is not subscriptable"
  | short isText =>
    Text.ofString (if isText then "string" else "list") ++ .ofString " index out of range"
  -- the key that was looked for
  | unordered => .ofNat 0

namespace ParseError

/-- The reason for a fault with its line in front. -/
def reason : ParseError → Text
  | fault _ line _ cause =>
    .ofString "Line " ++ .ofNat line ++ .ofString ": " ++ cause.message
  | templateContinuation => .ofString "Template literal must start with a template head"

/-- The facts that go with a fault.  The offset is that in the source without the parenthesis put in
front of it. -/
def details : ParseError → List (String × Value)
  | error@(fault index line column _) =>
    [("phase", .ofString "parsing"), ("reason", .text error.reason),
     ("index", .ofNat (index - 1)), ("line", .ofNat line), ("column", .integer column)]
  | templateContinuation => []

end ParseError

/-- The kind of a refused conversion. -/
def ConversionFault.kind : ConversionFault → FailureKind
  | wideNumber | wideInteger => .overflow
  | noNumeral => .position
  | notBoolean _ => .key
  | notDate => .attribute
  | datelessCollection => .type
  | notInteger .. | notFloat _ | longNumeral _ | longNumber | noCharacter | calendar _ => .number

namespace Failure

/-- The kind of a failure. -/
def kind : Failure → FailureKind
  | noSource _ | rangeFault (.notIndexed _) => .type
  | unparsable (.fault ..) | statementCount _ | notCall _ | notFunction _ => .parsing
  | unparsable .templateContinuation => .internal
  | suspendable .. | parameterForm .. | rejected .. => .unsupported
  | noRange _ => .range
  | rangeFault (.short _) => .position
  | rangeFault .unordered => .key
  | edit _ => .edit
  | invalidConfiguration _ | fileMalformed _ | fileNotMapping _ | fileNotTexts .. |
    fileInvalid .. => .configuration
  | fileMissing _ => .missingFile
  | conversion cause => cause.kind
  | negativeStart _ => .number

/-- The wording of a failure. -/
def message : Failure → Text
  | noSource typeName => .ofString "Cannot recover routine source from " ++ .ofString typeName
  | unparsable error@(.fault ..) => .ofString "Routine does not parse: " ++ error.reason
  | unparsable error => error.reason
  | statementCount _ | notCall _ => .ofString "Routine source must be exactly one function"
  | notFunction typeName =>
    .ofString "Routine source is a " ++ .ofString typeName ++ .ofString ", not a function"
  | suspendable .. => .ofString "Generator and async functions cannot be inlined"
  | parameterForm typeName _ =>
    .ofString "Parameters must be plain identifiers, got " ++ .ofString typeName
  | noRange typeName =>
    .ofString "Node of type " ++ (typeName.map Value.shown).getD (.ofString "?") ++
      .ofString " has no source range"
  | rangeFault cause => cause.message
  | rejected construct _ => construct.message
  | edit error => error.message
  | invalidConfiguration _ => .ofString "Invalid compiler configuration"
  | fileMissing path => .ofString "Configuration file not found: " ++ path
  | fileMalformed path => .ofString "Invalid YAML in configuration file: " ++ path
  | fileNotMapping path => .ofString "Configuration file must contain a mapping: " ++ path
  | fileNotTexts key _ => .scalar '\x27' :: key ++ .ofString "' must be a list of strings"
  | fileInvalid path _ => .ofString "Invalid configuration in " ++ path
  | conversion cause => cause.message
  | negativeStart start => .ofString "Sequence start must be non-negative: " ++ .ofInt start

/-- The span of a construct among the details. -/
def spanDetails (construct : String) (span : Span) : List (String × Value) :=
  [("construct", .ofString construct), ("range", .ofOffsets span.start span.stop)]

/-- What is wrong with a configuration, among the details. -/
def errorDetails (errors : List Text) : String × Value := ("errors", .list (errors.map .text))

/-- The facts that go with a failure, in order. -/
def details : Failure → List (String × Value)
  | noSource _ | rangeFault _ | fileMissing _ | conversion _ | negativeStart _ => []
  | unparsable error => error.details
  | statementCount count => [("phase", .ofString "anchoring"), ("statements", .ofNat count)]
  | notCall typeName | notFunction typeName =>
    [("phase", .ofString "anchoring"), ("expression_type", .ofString typeName)]
  | suspendable isAsync span => spanDetails (if isAsync then "async" else "generator") span
  | parameterForm typeName span => spanDetails typeName span
  | noRange typeName => [("node_type", typeName.getD .null)]
  | rejected construct span => spanDetails construct.label span
  | edit error => error.details
  | invalidConfiguration errors => [errorDetails errors]
  | fileMalformed path | fileNotMapping path => [("path", .text path)]
  | fileNotTexts key value => [("key", .text key), ("value", value)]
  | fileInvalid path errors => [("path", .text path), errorDetails errors]

end Failure
end Elementwise
