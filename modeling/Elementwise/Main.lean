import Elementwise.CommandLine.Run

/-!
# The program

Looks up the files that the arguments name, performs the run, and carries out its outcome.
-/

set_option autoImplicit false
namespace Elementwise

/-- A text as a string; surrogates are replaced. -/
def Text.toString (t : Text) : String :=
  String.ofList (t.map fun
    | .scalar c => c
    | .surrogate _ => '\ufffd')

/-- What stands at a path. -/
def lookUp (path : Text) : IO (Option Entry) := do
  try
    let bytes ← IO.FS.readBinFile path.toString
    return some (.file bytes.toList)
  catch e =>
    match e with
    | .noFileOrDirectory .. => return none
    | _ => return some .directory

/-- The disk with what stands at some paths. -/
def diskOf (paths : List Text) : IO Disk := do
  let entries ← paths.mapM fun path => return (path, ← lookUp path)
  return ⟨fun path => (entries.lookup path).join, fun _ => none⟩

/-- Prints and writes what comes of a run; gives its exit code. -/
def carryOut (o : Outcome) : IO UInt32 := do
  IO.eprint o.errors.toString
  if let some (path, content) := o.written then
    IO.FS.writeFile path.toString content.toString
  IO.print o.output.toString
  match o.ending with
  | .exit code => return code.toUInt32
  | .abort cause =>
    IO.eprintln cause.message.toString
    return 1

end Elementwise

open Elementwise in
def main (arguments : List String) : IO UInt32 := do
  let arguments := arguments.map Text.ofString
  let paths : List Text :=
    match Options.ofArguments arguments with
    | .ok (.compile o) => o.config :: o.files
    | _ => []
  carryOut (CommandLine.run (← diskOf paths) arguments)
