import Elementwise.CommandLine.Disk
import Elementwise.CommandLine.Help
import Elementwise.Config.File
import Elementwise.Report.Routine
import Elementwise.Unicode.Blank

/-!
# Running the command line

A run reads its configuration and its routine files, compiles the routines in order, and prints a
report on all of them or writes it to a file.  If a routine fails on the way, nothing is reported;
text that no encoding has ends a run in the middle of its report.

## What is here

* `Outcome` — what a run prints, the file it writes, and how it ends.
* `CommandLine.run` — the outcome of a run with given arguments on a given disk.
-/

set_option autoImplicit false
namespace Elementwise

/-- What ends a run without an exit code. -/
inductive Abort where
  | failure (cause : Failure)
  | access (cause : AccessError) (path : Text)
  | undecodable (cause : Utf8.Fault)
  | unencodable (cause : Utf8.Unencodable)
  /-- A further global was asked for without a name. -/
  | namelessGlobal
deriving Inhabited, Repr

/-- The wording of what ends a run. -/
def Abort.message : Abort → Text
  | failure e => e.message
  | access e path => e.message path
  | undecodable e => e.message
  | unencodable e => e.message
  | namelessGlobal => .ofString "unhashable type: 'list'"

/-- How a run ends. -/
inductive Ending where
  | exit (code : Nat)
  | abort (cause : Abort)
deriving Inhabited, Repr

/-- What comes of a run. -/
structure Outcome where
  output : Text := []
  errors : Text := []
  /-- The file that is written, and its content. -/
  written : Option (Text × Text) := none
  ending : Ending := .exit 0
deriving Inhabited, Repr

namespace CommandLine

/-! ## Reading -/

/-- Why a run stops before its report. -/
inductive Stop where
  | fileMissing (path : Text)
  | failed (cause : Failure)
  | aborted (cause : Abort)
deriving Inhabited, Repr

/-- A text without the blanks at its beginning. -/
def stripStart (t : Text) : Text := t.dropWhile CodePoint.isSpace

/-- A text without the blanks at its beginning and its end. -/
def strip (t : Text) : Text := (stripStart (stripStart t).reverse).reverse

/-- The size of the pieces in which configuration files are read. -/
def pieceSize : Nat := 8192

/-- The configuration in the file at a path. -/
def loadConfig (d : Disk) (path : Text) : Except Stop Config :=
  match d.look path with
  | none => .error (.failed (.fileMissing path))
  | some .directory => .error (.aborted (.access .isDirectory path))
  | some (.file bytes) =>
    match Utf8.decodePieces pieceSize (bytes.length + 1) [] bytes with
    | .error e => .error (.aborted (.undecodable e))
    | .ok text => (Config.ofText path text).mapError .failed

/-- The compiler that options ask for. -/
def compilerFor (d : Disk) (o : Options) : Except Stop Compiler := do
  let config ← if o.config.isEmpty then pure Config.default else loadConfig d o.config
  match o.globals.mapM id with
  | none => throw (.aborted .namelessGlobal)
  | some names =>
    (Compiler.ofConfig? (config.withGlobals names) fun _ => false).mapError .failed

/-- The source of the routine in the file at a path. -/
def readSource (d : Disk) (path : Text) : Except Stop Text :=
  match d.look path with
  | none => .error (.fileMissing path)
  | some .directory => .error (.aborted (.access .isDirectory path))
  | some (.file bytes) =>
    match Utf8.decode bytes with
    | .error e => .error (.aborted (.undecodable e))
    | .ok text => .ok (strip text.unifyLineEnds)

/-! ## Compiling -/

/-- Compiles the files at some paths, one after another.  The notes tell how far that went. -/
def compileFiles (c : Compiler) (d : Disk) :
    List Text → PrefixSequence → List Note × Except Stop (List ReportEntry)
  | [], _ => ([], .ok [])
  | path :: paths, s =>
    match readSource d path with
    | .error e => ([], .error e)
    | .ok t =>
      let source := RoutineSource.value (.text t)
      let notes := c.notes source s
      match c.compile source s with
      | (.error e, _) => (notes, .error (.failed e))
      | (.ok r, s) =>
        let (more, rest) := compileFiles c d paths s
        (notes ++ more, rest.map fun es => ⟨path, r⟩ :: es)

/-! ## Printing -/

/-- The line that tells about progress. -/
def noteLine : Note → Text
  | .anchored typeName count =>
    .ofString "AnchorExtractor: Anchored " ++ .ofString typeName ++ .ofString " with " ++
      .ofNat count ++ .ofString " parameter(s)\n"
  | .rejected message =>
    .ofString "RoutineRewriter: Rejected routine: " ++ message ++ [.scalar '\n']
  | .compiled scope args locals properties =>
    .ofString "RoutineCompiler: Compiled routine " ++ scope ++ .ofString ": " ++ .ofNat args ++
      .ofString " arg(s), " ++ .ofNat locals ++ .ofString " local(s), " ++ .ofNat properties ++
      .ofString " this var(s)\n"

/-- The lines about progress, if they are wanted. -/
def noteLines (o : Options) (notes : List Note) : Text :=
  if o.isVerbose then notes.flatMap noteLine else []

/-- Whether a failure is reported; others end a run. -/
def isReported (e : Failure) : Bool :=
  match e.kind with
  | .parsing | .unsupported | .range | .edit | .configuration | .missingFile => true
  | _ => false

/-- The details of a failure that can be shown: those in front of the first one with a number that
is too long. -/
def shownDetails (e : Failure) : List (String × Value) :=
  e.details.takeWhile fun d => !d.2.hasLongNumber

/-- The lines that report a failure, as far as it can be shown. -/
def failureLines (e : Failure) : Text :=
  Report.line [.ofString "Error: ", e.message] ++
    (shownDetails e).flatMap fun (key, value) =>
      Report.line [.ofString "  ", .ofString key, .ofString ": ", value.shown]

/-- How a run ends that reports a failure. -/
def failureEnding (e : Failure) : Ending :=
  if (shownDetails e).length < e.details.length then
    .abort (.failure (.conversion .longNumber))
  else .exit 1

/-- The outcome of a run that stops before its report; `errors` is printed already. -/
def Stop.outcome (errors : Text) : Stop → Outcome
  | fileMissing path =>
    { errors := errors ++ Report.line [.ofString "Routine file not found: ", path]
      ending := .exit 1 }
  | failed e =>
    if isReported e then { errors := errors ++ failureLines e, ending := failureEnding e }
    else { errors, ending := .abort (.failure e) }
  | aborted a => { errors, ending := .abort a }

/-- The texts of a report, as they are written one after another. -/
def reportTexts (f : Format) (es : List ReportEntry) : List Text :=
  match f with
  | .json => [Report.json es]
  | .listing => Report.lines es

/-- Texts up to the first one that cannot be written, and what is wrong with that. -/
def writable : List Text → Text × Option Utf8.Unencodable
  | [] => ([], none)
  | t :: ts =>
    match Utf8.unencodable? t with
    | some e => ([], some e)
    | none =>
      let (more, e) := writable ts
      (t ++ more, e)

/-- What is printed of some texts, and how a run ends that prints them. -/
def printed (texts : List Text) : Text × Ending :=
  match writable texts with
  | (t, some e) => (t, .abort (.unencodable e))
  | (t, none) => (t, .exit 0)

/-- The line that tells where a report is saved. -/
def savedLine (path : Text) : Text := Report.line [.ofString "Results saved to: ", path]

/-- The outcome of writing a report to a file. -/
def save (d : Disk) (path : Text) (errors : Text) (texts : List Text) : Outcome :=
  match d.refusal path with
  | some e => { errors, ending := .abort (.access e path) }
  | none =>
    match writable texts with
    | (t, some e) => { errors, written := some (path, t), ending := .abort (.unencodable e) }
    | (t, none) =>
      let (output, ending) := printed [savedLine path]
      { errors, written := some (path, t), output, ending }

/-- The outcome of compiling what options ask for. -/
def compile (d : Disk) (o : Options) : Outcome :=
  match compilerFor d o with
  | .error e => e.outcome []
  | .ok c =>
    let (notes, result) := compileFiles c d o.files {}
    let errors := noteLines o notes
    match result with
    | .error e => e.outcome errors
    | .ok es =>
      let texts := reportTexts o.format es
      if o.output.isEmpty then
        let (output, ending) := printed texts
        { errors, output, ending }
      else save d o.output errors texts

/-- The outcome of a run with some arguments. -/
def run (d : Disk) (arguments : List Text) : Outcome :=
  match Options.ofArguments arguments with
  | .error e => { errors := Help.refusal e, ending := .exit 2 }
  | .ok .help => { output := Help.text }
  | .ok (.compile o) => compile d o

end CommandLine
end Elementwise
