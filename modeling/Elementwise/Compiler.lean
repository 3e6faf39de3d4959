import Elementwise.Config
import Elementwise.Rewrite
import Elementwise.Sequence

/-!
# Compiling routines

A compiler turns the source of a routine into a body that can be pasted into a generated kernel.
Each compilation draws a prefix from a sequence once the function has been found, also if the
routine is rejected afterwards.
-/

set_option autoImplicit false
namespace Elementwise

/-- A flattened body with what a kernel needs to know about it. -/
structure CompiledRoutine where
  body : Text
  args : List ArgumentUsage
  thisVars : List Text
  localVars : List Text
deriving DecidableEq, Inhabited, Repr

/-- The number of declared parameters. -/
def CompiledRoutine.arity (r : CompiledRoutine) : Nat := r.args.length

/-- What a compilation tells about its progress. -/
inductive Note where
  | anchored (typeName : String) (paramCount : Nat)
  | rejected (message : Text)
  | compiled (scope : Text) (args locals properties : Nat)
deriving Inhabited, Repr

/-- A compiler: its configuration with the stem of its prefixes, and which further names are
globals. -/
structure Compiler where
  config : Config
  stem : Text
  isFurtherGlobal : Text → Bool

namespace Compiler

/-- A compiler with a configuration, which must be valid. -/
def ofConfig? (config : Config) (isFurtherGlobal : Text → Bool) : Except Failure Compiler :=
  match config.check with
  | .ok [] => .ok ⟨config, config.stem.text?.getD [], isFurtherGlobal⟩
  | .ok errors => .error (.invalidConfiguration errors)
  | .error cause => .error (.conversion cause)

/-- Whether a name is an ambient global. -/
def isGlobal (c : Compiler) (name : Text) : Bool :=
  name ≠ Word.eval && (name ∈ c.config.globals || c.isFurtherGlobal name)

/-- Flattens a function under a prefix. -/
def flatten (c : Compiler) (scope : Text) (f : AnchoredFunction) :
    Except Failure CompiledRoutine :=
  match Rewriter.ofAnchored? f { scope, stem := c.stem } with
  | .error e => .error e
  | .ok w =>
    match w.rewrite ⟨f, c.isGlobal⟩ with
    | (.error e, _) => .error e
    | (.ok body, w) =>
      .ok ⟨body, w.arguments, w.namer.propertyNames, w.namer.localNames⟩

/-- Compiles a routine with a prefix from a sequence, and gives back the sequence behind it. -/
def compile (c : Compiler) (source : RoutineSource) (s : PrefixSequence) :
    Except Failure CompiledRoutine × PrefixSequence :=
  match source.text >>= anchor with
  | .error e => (.error e, s)
  | .ok f =>
    let (scope, s) := s.drawPrefix c.stem
    (c.flatten scope f, s)

/-- What compiling a routine tells about its progress. -/
def notes (c : Compiler) (source : RoutineSource) (s : PrefixSequence) : List Note :=
  match source.text >>= anchor with
  | .error _ => []
  | .ok f =>
    let (scope, _) := s.drawPrefix c.stem
    .anchored f.typeName f.params.length ::
      match c.flatten scope f with
      | .ok r => [.compiled scope r.args.length r.localVars.length r.thisVars.length]
      | .error e@(.rejected ..) => [.rejected e.message]
      | .error _ => []

end Compiler
end Elementwise
