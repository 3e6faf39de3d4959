import Elementwise.Compiler
import Elementwise.Report.Json

/-!
# Reports on compiled routines

A report lists compiled routines, each under the path of the file it came from: as JSON, or in lines
for readers.
-/

set_option autoImplicit false
namespace Elementwise

/-- A compiled routine and the path of its source. -/
structure ReportEntry where
  path : Text
  routine : CompiledRoutine
deriving DecidableEq, Inhabited, Repr

/-- An object with the given fields. -/
def Value.ofFields (fields : List (String × Value)) : Value :=
  .map (fields.map fun f => (.ofString f.1, f.2))

/-- A list of texts. -/
def Value.ofTexts (ts : List Text) : Value := .list (ts.map .text)

namespace Report

/-- An argument as a value, given its parts. -/
def argument (name isWritten isRead count : Value) : Value :=
  .ofFields [("name", name), ("lvalue", isWritten), ("rvalue", isRead), ("count", count)]

/-- The fields of a routine, given its parts. -/
def routine (body : Value) (args thisVars localVars : List Value) : List (String × Value) :=
  [("body", body), ("args", .list args), ("thisVars", .list thisVars),
   ("localVars", .list localVars)]

end Report

/-- An argument as a value. -/
def ArgumentUsage.value (a : ArgumentUsage) : Value :=
  Report.argument (.text a.name) (.boolean a.isWritten) (.boolean a.isRead) (.ofNat a.count)

/-- The fields of a routine. -/
def CompiledRoutine.fields (r : CompiledRoutine) : List (String × Value) :=
  Report.routine (.text r.body) (r.args.map ArgumentUsage.value) (r.thisVars.map .text)
    (r.localVars.map .text)

namespace Report

/-- An entry as a value. -/
def entryValue (e : ReportEntry) : Value :=
  .ofFields (("file", .text e.path) :: e.routine.fields)

/-- A report as JSON. -/
def json (es : List ReportEntry) : Text :=
  Json.indented 0 (.list (es.map entryValue)) ++ [.scalar '\n']

/-- A line. -/
def line (parts : List Text) : Text := parts.flatten ++ [.scalar '\n']

/-- The line of an argument: its place, its name, whether it is written and read, and how often it
occurs. -/
def argumentLine (index : Nat) (a : ArgumentUsage) : Text :=
  line [.ofString "  arg ", .ofNat index, .ofString ": ", a.name, .ofString " [",
    [if a.isWritten then .scalar 'w' else .scalar '-'],
    [if a.isRead then .scalar 'r' else .scalar '-'], .ofString "] x", .ofNat a.count]

/-- The names of a list, or a word for their absence. -/
def names (ts : List Text) : Text :=
  let t := Text.join Value.separator ts
  if t.isEmpty then .ofString "(none)" else t

/-- The lines of an entry. -/
def entryLines (e : ReportEntry) : List Text :=
  [line [e.path], line [.ofString "  body: ", e.routine.body]] ++
    e.routine.args.mapIdx argumentLine ++
    [line [.ofString "  this vars: ", names e.routine.thisVars],
     line [.ofString "  local vars: ", names e.routine.localVars]]

/-- The lines of a report. -/
def lines (es : List ReportEntry) : List Text := es.flatMap entryLines

end Report
end Elementwise
