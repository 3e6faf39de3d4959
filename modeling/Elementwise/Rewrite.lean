import Elementwise.Anchor
import Elementwise.Naming
import Elementwise.Site

/-!
# Flattening a routine's body

A body is flattened by renaming its variables and its properties of `this` to generated names and by
writing its strings anew.  The sites of the body are treated one after another: each is left alone,
becomes an edit, or makes the routine be rejected.

Parameters are matched by name only: an inner function that declares a parameter's name again still
has its occurrences counted as the parameter's.

## What is here

* `Rewriter.ofAnchored?` — a rewriter for an anchored function; a parameter called `eval` is
  rejected here already.
* `Rewriter.visit` — treats one site.
* `Rewriter.rewrite` — treats the whole body and gives its new text.
-/

set_option autoImplicit false
namespace Elementwise

/-- How a parameter is used: its generated name, whether it is written and read, and the number of
its occurrences. -/
structure ArgumentUsage where
  name : Text
  isWritten : Bool := false
  isRead : Bool := false
  count : Nat := 0
deriving DecidableEq, Inhabited, Repr

/-- Takes note of one more occurrence. -/
def ArgumentUsage.record (a : ArgumentUsage) (u : Usage) : ArgumentUsage :=
  { a with
    isWritten := a.isWritten || u.isWrite
    isRead := a.isRead || u.isRead
    count := a.count + 1 }

/-- What does not change while a body is rewritten: the function, and which names are globals. -/
structure Routine where
  function : AnchoredFunction
  isGlobal : Text → Bool

/-- The position of a parameter in the list of parameters; the first one of a name counts. -/
def Routine.argumentIndex? (r : Routine) (name : Text) : Option Nat :=
  r.function.params.findIdx? fun p => p.name = name

/-- The state of a rewriter: the edits, the names and the usages recorded so far. -/
structure Rewriter where
  buffer : EditBuffer
  namer : Namer
  arguments : List ArgumentUsage
deriving DecidableEq, Inhabited, Repr

namespace Rewriter

/-- Rejects parameters called `eval`. -/
def checkParameters : List Parameter → Except Failure Unit
  | [] => .ok ()
  | p :: ps => if p.name = Word.eval then .error (.rejected .eval p.span) else checkParameters ps

/-- A rewriter for a function, with the names that a namer generates. -/
def ofAnchored? (f : AnchoredFunction) (namer : Namer) : Except Failure Rewriter :=
  match checkParameters f.params with
  | .error e => .error e
  | .ok () =>
    .ok ⟨{ text := f.text }, namer,
      (List.range f.params.length).map fun (i : Nat) => { name := namer.argument i }⟩

/-- Records that a span is replaced. -/
def replace (w : Rewriter) (span : Span) (replacement : Text) : Except Failure Rewriter :=
  match w.buffer.replace span.start span.stop replacement with
  | .ok buffer => .ok { w with buffer }
  | .error e => .error (.edit e)

/-- What a variable becomes: its new name, or none for a global, which stays. -/
def rename (r : Routine) (w : Rewriter) (span : Span) (name : Text) (usage : Usage) :
    Except Failure (Option Text × Rewriter) :=
  if name = Word.eval then .error (.rejected .eval span)
  else
    match r.argumentIndex? name with
    | some i =>
      .ok ((w.arguments[i]?).map ArgumentUsage.name,
        { w with arguments := w.arguments.modify i fun a => a.record usage })
    | none =>
      if r.isGlobal name then
        if w.namer.looksSynthetic name then .error (.rejected (.syntheticName name) span)
        else .ok (none, w)
      else
        let (generated, namer) := w.namer.useLocal name
        .ok (some generated, { w with namer })

/-- The text that stands for a renamed variable.  A shorthand property keeps its key. -/
def variableText (key : Option Text) (generated : Text) : Text :=
  match key with
  | some k => k ++ .ofChars [':', ' '] ++ generated
  | none => generated

/-- Treats one site.  The state is given back also if the site makes the routine be rejected. -/
def visit (r : Routine) (w : Rewriter) : Site → Except (Failure × Rewriter) Rewriter
  | .variable span name usage key =>
    match rename r w span name usage with
    | .error e => .error (e, w)
    | .ok (none, w) => .ok w
    | .ok (some generated, w) =>
      match w.replace span (variableText key generated) with
      | .ok w => .ok w
      | .error e => .error (e, w)
  | .thisProperty span name =>
    let (generated, namer) := w.namer.useProperty name
    let w := { w with namer }
    match w.replace span generated with
    | .ok w => .ok w
    | .error e => .error (e, w)
  | .string span value =>
    match w.replace span (escapeString value) with
    | .ok w => .ok w
    | .error e => .error (e, w)
  | .this span inMember =>
    .error (.rejected (if inMember then .computedThis else .bareThis) span, w)
  | .withObject span => .error (.rejected .withObject span, w)

/-- Treats sites one after another, up to the first that is rejected. -/
def visitAll (r : Routine) : Rewriter → List Site → Except (Failure × Rewriter) Rewriter
  | w, [] => .ok w
  | w, s :: ss =>
    match visit r w s with
    | .ok w => visitAll r w ss
    | .error e => .error e

/-- The text of the body with the recorded edits; an expression becomes a block that returns it. -/
def bodyText (r : Routine) (w : Rewriter) : Except Failure Text :=
  match w.buffer.apply r.function.bodySpan.start r.function.bodySpan.stop with
  | .error e => .error (.edit e)
  | .ok body =>
    .ok (if r.function.isExpressionBody then
      .ofChars ['{', 'r', 'e', 't', 'u', 'r', 'n', ' '] ++ body ++ .ofChars [';', '}']
    else body)

/-- Walks over the body and gives its new text, with the state afterwards. -/
def rewrite (r : Routine) (w : Rewriter) : Except Failure Text × Rewriter :=
  match visitAll r w (r.function.body.sites .plain) with
  | .error (e, w) => (.error e, w)
  | .ok w => (bodyText r w, w)

end Rewriter
end Elementwise
