import Elementwise.Compiler

/-!
# Sessions

Several compilers may draw from one sequence of prefixes.  A `Session` holds the sequences in the
order in which they were made, the first being the one that compilers use if none is given, and
binds names to sequences and to compilers.  A compiler keeps drawing from the sequence it was made
with, also when the name of that sequence is bound anew.

* `Session.step` — performs one action and answers it.
* `Session.run` — performs actions one after another; a failure is an answer and ends nothing.
-/

set_option autoImplicit false
namespace Elementwise

/-- A compiler with the position of the sequence it draws from. -/
structure BoundCompiler where
  compiler : Compiler
  sequence : Nat

/-- The state of a session. -/
structure Session where
  sequences : List PrefixSequence := [{}]
  sequenceNames : List (Text × Nat) := [(.ofChars ['d', 'e', 'f', 'a', 'u', 'l', 't'], 0)]
  compilers : List (Text × BoundCompiler) := []

/-- What can be done in a session. -/
inductive Action where
  | makeSequence (name : Text) (start : Int)
  | makeCompiler (name : Text) (sequence : Option Text) (config : Config)
      (isFurtherGlobal : Text → Bool)
  | compile (compiler : Text) (source : RoutineSource)
  /-- Compiles with a compiler made for this routine only, which draws from the first sequence. -/
  | compileOnce (config : Config) (isFurtherGlobal : Text → Bool) (source : RoutineSource)
  | askGlobal (compiler name : Text)
  | showConfig (compiler : Text)
  | peek (sequence : Text)
  | draw (sequence : Text)
  | drawPrefix (sequence stem : Text)

/-- The answer to an action. -/
inductive Answer where
  | done
  | routine (r : CompiledRoutine)
  | flag (b : Bool)
  | config (c : Config)
  | number (n : Nat)
  | text (t : Text)
  | failure (e : Failure)
  /-- The action names a sequence or compiler that there is not. -/
  | unbound (name : Text)

namespace Session

/-- The position of the sequence bound to a name. -/
def sequenceIndex? (s : Session) (name : Text) : Option Nat :=
  (s.sequenceNames.find? fun b => b.1 = name).map (·.2)

/-- The compiler bound to a name. -/
def compiler? (s : Session) (name : Text) : Option BoundCompiler :=
  (s.compilers.find? fun b => b.1 = name).map (·.2)

/-- The sequence at a position. -/
def sequenceAt (s : Session) (i : Nat) : PrefixSequence := (s.sequences[i]?).getD {}

/-- Puts a sequence at a position. -/
def setSequence (s : Session) (i : Nat) (q : PrefixSequence) : Session :=
  { s with sequences := s.sequences.set i q }

/-- Compiles a routine with a prefix from the sequence at a position. -/
def compileWith (s : Session) (c : BoundCompiler) (source : RoutineSource) : Answer × Session :=
  let (result, q) := c.compiler.compile source (s.sequenceAt c.sequence)
  let s := s.setSequence c.sequence q
  match result with
  | .ok r => (.routine r, s)
  | .error e => (.failure e, s)

/-- Performs an action on the sequence bound to a name. -/
def onSequence (s : Session) (name : Text) (f : PrefixSequence → Answer × PrefixSequence) :
    Answer × Session :=
  match s.sequenceIndex? name with
  | some i =>
    let (answer, q) := f (s.sequenceAt i)
    (answer, s.setSequence i q)
  | none => (.unbound name, s)

/-- Performs an action and answers it. -/
def step (s : Session) : Action → Answer × Session
  | .makeSequence name start =>
    match PrefixSequence.ofStart? start with
    | .error e => (.failure e, s)
    | .ok q =>
      (.done,
        { s with
          sequences := s.sequences ++ [q]
          sequenceNames := (name, s.sequences.length) :: s.sequenceNames })
  | .makeCompiler name sequence config isFurtherGlobal =>
    match Compiler.ofConfig? config isFurtherGlobal, sequence.elim (some 0) s.sequenceIndex? with
    | .error e, _ => (.failure e, s)
    | .ok c, some i => (.done, { s with compilers := (name, ⟨c, i⟩) :: s.compilers })
    | .ok _, none => (.unbound (sequence.getD []), s)
  | .compile name source =>
    match s.compiler? name with
    | some c => s.compileWith c source
    | none => (.unbound name, s)
  | .compileOnce config isFurtherGlobal source =>
    match Compiler.ofConfig? config isFurtherGlobal with
    | .ok c => s.compileWith ⟨c, 0⟩ source
    | .error e => (.failure e, s)
  | .askGlobal name global =>
    match s.compiler? name with
    | some c => (.flag (c.compiler.isGlobal global), s)
    | none => (.unbound name, s)
  | .showConfig name =>
    match s.compiler? name with
    | some c => (.config c.compiler.config, s)
    | none => (.unbound name, s)
  | .peek name => s.onSequence name fun q => (.number q.next, q)
  | .draw name => s.onSequence name fun q => (.number q.draw.1, q.draw.2)
  | .drawPrefix name stem =>
    s.onSequence name fun q => (.text (q.drawPrefix stem).1, (q.drawPrefix stem).2)

/-- Performs actions one after another. -/
def run : Session → List Action → List Answer × Session
  | s, [] => ([], s)
  | s, a :: as =>
    let (answer, s) := s.step a
    let (answers, s) := run s as
    (answer :: answers, s)

end Session
end Elementwise
