import Elementwise.Compiler
import Elementwise.Proofs.Replacement

/-!
# Flattening a body

What the body of a routine becomes, and that no two of its variables become the same.  Both follow
from what happens at a single site: the replacements of a body are known beforehand, the rewriter
records just these, and if they do not overlap they are all that is changed.

## What is here

* `Routine.sites`, `Routine.replacements`, `Routine.allVariables` — the sites of a body, what takes
  their places, and the variables there.
* `Rewriter.rewrite_eq_substitute` — the new text of a body.
* `Routine.output_inj` — different variables get different names.
* `Compiler.compile_ok` — what a successful compilation went through.
* `Compiler.compile_separates_variables` — a successful compilation keeps variables apart.
-/

set_option autoImplicit false
namespace Elementwise

namespace Routine

/-- The sites of the body, one for every occurrence that is of concern. -/
def sites (r : Routine) : List Site := r.function.body.occurrences.filterMap Occurrence.site?

/-- What takes the place of the sites, in the order of the walk. -/
def replacements (r : Routine) (scope : Text) : List Edit := r.sites.filterMap (r.edit? scope)

/-- The variable at a site. -/
def variableAt? (r : Routine) : Site → Option Variable
  | .variable _ x _ _ => some (r.resolve x)
  | .thisProperty _ p => some (.property p)
  | .string .. | .this .. | .withObject _ => none

/-- The variables of a routine: its parameters, and those that occur in the body. -/
def allVariables (r : Routine) : List Variable :=
  r.parameterNames.map .parameter ++ r.sites.filterMap r.variableAt?

end Routine

/-! ## The new text -/

namespace Rewriter

theorem checkParameters_eq_ok {ps : List Parameter} (h : Word.eval ∉ ps.map Parameter.name) :
    checkParameters ps = .ok () := by
  induction ps with
  | nil => rfl
  | cons p ps ih =>
    rw [List.map_cons, List.mem_cons, not_or] at h
    rw [checkParameters, if_neg (Ne.symm h.1), ih h.2]

/-- A rewriter is made for every function without a parameter called `eval`. -/
theorem ofAnchored?_eq_ok {r : Routine} (namer : Namer) (h : Word.eval ∉ r.parameterNames) :
    ∃ w, ofAnchored? r.function namer = .ok w := by
  rw [ofAnchored?, checkParameters_eq_ok h]
  exact ⟨_, rfl⟩

/-- A fresh rewriter has no edits. -/
theorem ofAnchored?_edits {f : AnchoredFunction} {namer : Namer} {w : Rewriter}
    (h : ofAnchored? f namer = .ok w) : w.buffer.edits = [] := by
  rw [ofAnchored?] at h
  split at h
  · cases h
  · obtain rfl := Except.ok.inj h
    rfl

theorem rewrite_eq (r : Routine) (w : Rewriter) :
    rewrite r w =
      match visitAll r w r.sites with
      | .error (e, w) => (.error e, w)
      | .ok w => (bodyText r w, w) := by
  rw [rewrite, visitAll_sites]
  rfl

/-- **The new text of a body.**  If nothing in it is refused, and the replaced parts lie in the body
and do not overlap, a fresh rewriter succeeds; it replaces these parts in the order of their places,
each once, and keeps every other code point.  An expression becomes a block that returns it. -/
theorem rewrite_eq_substitute (r : Routine) (scope stem : Text)
    (hparameters : Word.eval ∉ r.parameterNames)
    (haccepted : ∀ s ∈ r.sites, r.rejection? stem s = none)
    (hbody : ∀ e ∈ r.replacements scope,
      e.span.Within r.function.bodySpan.start r.function.bodySpan.stop)
    (htext : ∀ e ∈ r.replacements scope, e.span.stop ≤ r.function.text.length)
    (hapart : (r.replacements scope).Pairwise fun a b => a.span.Apart b.span) :
    ∃ w es, ofAnchored? r.function { scope, stem } = .ok w ∧
      es = Edit.sort (r.replacements scope) ∧
      es.Perm (r.replacements scope) ∧
      (es.Pairwise fun a b => a.span.stop ≤ b.span.start) ∧
      (rewrite r w).1 = .ok (
        let body := r.function.text.substitute r.function.bodySpan.start r.function.bodySpan.stop es
        if r.function.isExpressionBody then
          .ofChars ['{', 'r', 'e', 't', 'u', 'r', 'n', ' '] ++ body ++ .ofChars [';', '}']
        else body) := by
  obtain ⟨w, hw⟩ := ofAnchored?_eq_ok { scope, stem } hparameters
  have hconsistent : w.Consistent r scope stem := ofAnchored?_consistent hw
  have hwalk : visitAll r w r.sites = .ok (w.after r scope r.sites) := by
    refine (visitAll_eq_ok_iff hconsistent _).2 ⟨haccepted, fun e he => ?_, rfl⟩
    exact ⟨Nat.zero_le _, (hbody e he).2.1, htext e he⟩
  have hedits : (w.after r scope r.sites).buffer.edits = r.replacements scope := by
    rw [after_edits, ofAnchored?_edits hw, List.nil_append, Routine.replacements]
  have happly : (w.after r scope r.sites).buffer.apply r.function.bodySpan.start
      r.function.bodySpan.stop = .ok (r.function.text.substitute r.function.bodySpan.start
        r.function.bodySpan.stop (Edit.sort (r.replacements scope))) := by
    rw [EditBuffer.apply_eq_substitute (by rwa [hedits]) (by rwa [hedits]), hedits,
      (after_consistent hconsistent _).text_eq]
  refine ⟨w, _, hw, rfl, Edit.sort_perm _, Edit.sort_apart (fun e he => (hbody e he).2.1) hapart,
    ?_⟩
  rw [rewrite_eq, hwalk]
  simp only [bodyText, happly]

/-- The routine `x => x + y`, written without blanks. -/
def sumRoutine : Routine where
  function :=
    { text := .ofChars ['(', 'x', '=', '>', 'x', '+', 'y', ')', '(', ')']
      isArrow := true
      span := ⟨1, 7⟩
      params := [⟨.ofChars ['x'], ⟨1, 2⟩⟩]
      body := .binary ⟨4, 7⟩ .plus (.identifier ⟨4, 5⟩ (.ofChars ['x']))
        (.identifier ⟨6, 7⟩ (.ofChars ['y']))
      bodySpan := ⟨4, 7⟩ }
  isGlobal _ := false

theorem rewrite_sumRoutine :
    ∃ w, ofAnchored? sumRoutine.function
      ⟨.ofChars ['k', '_', '7', '_'], .ofChars ['k', '_'], [], []⟩
        = .ok w ∧
      (rewrite sumRoutine w).1 = .ok (.ofChars ['{', 'r', 'e', 't', 'u', 'r', 'n', ' ',
        'k', '_', '7', '_', 'a', 'r', 'g', '0', '_', '+', 'k', '_', '7', '_', 'y', ';', '}']) := by
  obtain ⟨w, _, hw, rfl, -, -, hbody⟩ := rewrite_eq_substitute sumRoutine
    (.ofChars ['k', '_', '7', '_']) (.ofChars ['k', '_']) (by decide +kernel) (by decide +kernel)
    (by decide +kernel) (by decide +kernel) (by decide +kernel)
  exact ⟨w, hw, hbody.trans (congrArg Except.ok (by decide +kernel))⟩

end Rewriter

/-! ## Variables stay apart -/

namespace Routine

/-- Whether a variable is one that a routine accepted under a stem can have. -/
def Admits (r : Routine) (stem : Text) : Variable → Prop
  | .parameter x => x ∈ r.parameterNames
  | .ambient x => (Namer.mk [] stem [] []).looksSynthetic x = false
  | .free _ | .property _ => True

theorem looksSynthetic_output (r : Routine) (stem : Text) (number : Nat) {v : Variable}
    (hv : ∀ x, v ≠ .ambient x) :
    (Namer.mk [] stem [] []).looksSynthetic
      (r.output (PrefixSequence.prefixFor stem number) v) = true := by
  cases v with
  | parameter x =>
    rw [output]
    exact Namer.looksSynthetic_text ⟨[], stem, [], []⟩ number _
  | free x =>
    rw [output]
    exact Namer.looksSynthetic_text ⟨[], stem, [], []⟩ number _
  | ambient x => exact absurd rfl (hv x)
  | property p => exact Namer.looksSynthetic_propertyName ⟨[], stem, [], []⟩ p

/-- A global that is kept is never called like a variable that is renamed. -/
theorem ne_output_of_admits {r : Routine} {stem x : Text} (hx : r.Admits stem (.ambient x))
    (number : Nat) {v : Variable} (hv : ∀ y, v ≠ .ambient y) :
    x ≠ r.output (PrefixSequence.prefixFor stem number) v := by
  rintro rfl
  rw [Admits, r.looksSynthetic_output stem number hv] at hx
  exact absurd hx (by simp)

/-- **Different variables get different names.** -/
theorem output_inj {r : Routine} {stem : Text} {number : Nat} {u v : Variable}
    (hu : r.Admits stem u) (hv : r.Admits stem v)
    (h : r.output (PrefixSequence.prefixFor stem number) u =
      r.output (PrefixSequence.prefixFor stem number) v) : u = v := by
  have hproperty := CallName.text_ne_propertyName stem number
  have hcall := CallName.text_injective (PrefixSequence.prefixFor stem number)
  cases u with
  | ambient x =>
    cases v with
    | ambient y => exact congrArg Variable.ambient h
    | _ => exact absurd h (ne_output_of_admits hu number (by simp))
  | property p =>
    cases v with
    | ambient y => exact absurd h.symm (ne_output_of_admits hv number (by simp))
    | property q => exact congrArg Variable.property (Namer.propertyName_injective h)
    | parameter y => exact absurd h.symm (hproperty (.argument _) p)
    | free y => exact absurd h.symm (hproperty (.free y) p)
  | parameter x =>
    cases v with
    | ambient y => exact absurd h.symm (ne_output_of_admits hv number (by simp))
    | property q => exact absurd h (hproperty (.argument _) q)
    | parameter y =>
      have hindex : r.parameterNames.idxOf x = r.parameterNames.idxOf y :=
        CallName.argument.inj (hcall h)
      exact congrArg Variable.parameter ((List.idxOf_inj hu).1 hindex)
    | free y =>
      have hne : CallName.argument (r.parameterNames.idxOf x) = CallName.free y := hcall h
      cases hne
  | free x =>
    cases v with
    | ambient y => exact absurd h.symm (ne_output_of_admits hv number (by simp))
    | property q => exact absurd h (hproperty (.free x) q)
    | parameter y =>
      have hne : CallName.free x = CallName.argument (r.parameterNames.idxOf y) := hcall h
      cases hne
    | free y => exact congrArg Variable.free (CallName.free.inj (hcall h))

/-- A routine in which no site is refused has only variables that it can have. -/
theorem admits_of_accepted {r : Routine} {stem : Text}
    (h : ∀ s ∈ r.sites, r.rejection? stem s = none) {v : Variable} (hv : v ∈ r.allVariables) :
    r.Admits stem v := by
  rcases List.mem_append.1 hv with hv | hv
  · obtain ⟨x, hx, rfl⟩ := List.mem_map.1 hv
    exact hx
  · obtain ⟨s, hs, hvs⟩ := List.mem_filterMap.1 hv
    have hsite := h s hs
    match s with
    | .variable span x usage key =>
      obtain rfl : r.resolve x = v := Option.some.inj hvs
      rw [rejection?] at hsite
      split at hsite
      · cases hsite
      · cases hresolve : r.resolve x with
        | parameter y =>
          rw [resolve] at hresolve
          split at hresolve
          · rename_i hmem
            obtain rfl := Variable.parameter.inj hresolve
            exact hmem
          · split at hresolve <;> cases hresolve
        | ambient y => simpa [hresolve, Admits] using hsite
        | _ => trivial
    | .thisProperty span p =>
      obtain rfl : Variable.property p = v := Option.some.inj hvs
      trivial

end Routine

/-! ## Compilations -/

namespace Rewriter

/-- A successful walk accepted every site, and left a rewriter with the edits of them all. -/
theorem rewrite_ok {r : Routine} {scope stem body : Text} {w w' : Rewriter}
    (hw : w.Consistent r scope stem) (h : rewrite r w = (.ok body, w')) :
    (∀ s ∈ r.sites, r.rejection? stem s = none) ∧ w' = w.after r scope r.sites := by
  rw [rewrite_eq] at h
  cases hwalk : visitAll r w r.sites with
  | error e =>
    rw [hwalk] at h
    cases (Prod.mk.inj h).1
  | ok w₁ =>
    rw [hwalk] at h
    obtain rfl : w₁ = w' := (Prod.mk.inj h).2
    obtain ⟨haccepted, -, rfl⟩ := (visitAll_eq_ok_iff hw _).1 hwalk
    exact ⟨haccepted, rfl⟩

end Rewriter

theorem eq_ok_of_toOption {ε α : Type} {x : Except ε α} {a : α} (h : x.toOption = some a) :
    x = .ok a := by
  cases x with
  | error e => cases h
  | ok b => rw [Option.some.inj h]

namespace Compiler

/-- **What a successful compilation went through**: the function was found, a number was drawn, and
the body was rewritten under the prefix made from it. -/
theorem compile_ok {c : Compiler} {source : RoutineSource} {q q' : PrefixSequence}
    {out : CompiledRoutine} (h : c.compile source q = (.ok out, q')) :
    ∃ f w w', (source.text >>= anchor) = .ok f ∧ q' = ⟨q.next + 1⟩ ∧
      Rewriter.ofAnchored? f ⟨PrefixSequence.prefixFor c.stem q.next, c.stem, [], []⟩ = .ok w ∧
      Rewriter.rewrite ⟨f, c.isGlobal⟩ w = (.ok out.body, w') ∧
      out = ⟨out.body, w'.arguments, w'.namer.propertyNames, w'.namer.localNames⟩ := by
  rw [compile] at h
  cases hf : source.text >>= anchor with
  | error e =>
    rw [hf] at h
    cases (Prod.mk.inj h).1
  | ok f =>
    rw [hf] at h
    obtain ⟨hflatten, hq⟩ := Prod.mk.inj h
    rw [flatten] at hflatten
    split at hflatten
    · cases hflatten
    · rename_i w hw
      split at hflatten
      · cases hflatten
      · rename_i body w' hrewrite
        obtain rfl := Except.ok.inj hflatten
        exact ⟨f, w, w', rfl, hq.symm, hw, hrewrite, rfl⟩

/-- **A successful compilation keeps variables apart.**  What it replaces is known, every renamed
variable gets the name that stands there, and no two variables get the same name.  A global that is
kept is never called like a name that any compilation with this stem generates. -/
theorem compile_separates_variables {c : Compiler} {source : RoutineSource}
    {q q' : PrefixSequence} {out : CompiledRoutine} (h : c.compile source q = (.ok out, q')) :
    ∃ f w w', (source.text >>= anchor) = .ok f ∧
      Rewriter.ofAnchored? f ⟨PrefixSequence.prefixFor c.stem q.next, c.stem, [], []⟩ = .ok w ∧
      Rewriter.rewrite ⟨f, c.isGlobal⟩ w = (.ok out.body, w') ∧
      let r : Routine := ⟨f, c.isGlobal⟩
      let scope := PrefixSequence.prefixFor c.stem q.next
      w'.buffer.edits = r.replacements scope ∧
      (∀ u ∈ r.allVariables, ∀ v ∈ r.allVariables, r.output scope u = r.output scope v → u = v) ∧
      ∀ x, .ambient x ∈ r.allVariables →
        (∀ (number : Nat) (k : CallName), x ≠ k.text (PrefixSequence.prefixFor c.stem number)) ∧
        ∀ p, x ≠ Namer.propertyName p := by
  obtain ⟨f, w, w', hf, -, hw, hrewrite, -⟩ := compile_ok h
  have hconsistent : w.Consistent ⟨f, c.isGlobal⟩ _ c.stem := Rewriter.ofAnchored?_consistent hw
  obtain ⟨haccepted, hw'⟩ := Rewriter.rewrite_ok hconsistent hrewrite
  refine ⟨f, w, w', hf, hw, hrewrite, ?_, fun u hu v hv => ?_, fun x hx => ⟨fun number k => ?_,
    fun p => ?_⟩⟩
  · rw [hw', Rewriter.after_edits, Rewriter.ofAnchored?_edits hw, List.nil_append,
      Routine.replacements]
  · exact Routine.output_inj (Routine.admits_of_accepted haccepted hu)
      (Routine.admits_of_accepted haccepted hv)
  · have hadmits := Routine.admits_of_accepted haccepted hx
    rintro rfl
    rw [Routine.Admits, Namer.looksSynthetic_text ⟨[], c.stem, [], []⟩ number k] at hadmits
    exact absurd hadmits (by simp)
  · exact Routine.ne_output_of_admits (Routine.admits_of_accepted haccepted hx) 0
      (v := .property p) (by simp)

/-- A compiler with the stem `k_`, to which `y` is a global. -/
def sample : Compiler where
  config := ⟨[.ofChars ['y']], .text (.ofChars ['k', '_'])⟩
  stem := .ofChars ['k', '_']
  isFurtherGlobal _ := false

/-- The routine `x => x + this.x + y`, written without blanks. -/
def sampleSource : RoutineSource :=
  .value (.text (.ofChars ['x', '=', '>', 'x', '+', 't', 'h', 'i', 's', '.', 'x', '+', 'y']))

/-- A compilation is determined by the routine and by the sequence behind it. -/
theorem compile_eq_of_toOption {c : Compiler} {source : RoutineSource} {q q' : PrefixSequence}
    {out : CompiledRoutine} (hout : (c.compile source q).1.toOption = some out)
    (hq : (c.compile source q).2 = q') : c.compile source q = (.ok out, q') :=
  Prod.ext (eq_ok_of_toOption hout) hq

theorem compile_separates_variables_sample :
    ∃ out f, sample.compile sampleSource ⟨7⟩ = (.ok out, ⟨8⟩) ∧
      (sampleSource.text >>= anchor) = .ok f ∧
      ∀ u ∈ Routine.allVariables ⟨f, sample.isGlobal⟩,
        ∀ v ∈ Routine.allVariables ⟨f, sample.isGlobal⟩,
          Routine.output ⟨f, sample.isGlobal⟩ (.ofChars ['k', '_', '7', '_']) u =
            Routine.output ⟨f, sample.isGlobal⟩ (.ofChars ['k', '_', '7', '_']) v → u = v := by
  have hsome : (sample.compile sampleSource ⟨7⟩).1.toOption.isSome = true := by decide +kernel
  obtain ⟨out, hout⟩ := Option.isSome_iff_exists.1 hsome
  have hcompile : sample.compile sampleSource ⟨7⟩ = (.ok out, ⟨8⟩) :=
    compile_eq_of_toOption hout (by decide +kernel)
  obtain ⟨f, -, -, hf, -, -, -, hinjective, -⟩ := compile_separates_variables hcompile
  exact ⟨out, f, hcompile, hf, hinjective⟩

end Compiler
end Elementwise
