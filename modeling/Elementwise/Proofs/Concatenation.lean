import Elementwise.Proofs.CompiledBody
import Elementwise.Proofs.SharedSequence

/-!
# Bodies put one behind the other

Compiled bodies are pasted into one kernel, so a global that one body keeps must not be a name that
was generated for another.  A compilation refuses globals that have the shape of generated names,
but it knows its own stem only.  So bodies whose compilers have the same stem can be put one behind
the other, while under another stem a name may be generated that is a global to the first body.

## What is here

* `Namer.hasPrefixShape_append` — a name that goes on behind a prefix still has the shape of one.
* `Routine.keptGlobals` — the globals that are left in a body as they are written.
* `Compiler.compile_keeps_globals_apart` — which generated names such a global is never called.
* `Compiler.compile_generates_kept_global` — two compilers with different stems that draw from one
  sequence, of which the second generates a name that the first keeps as a global.
-/

set_option autoImplicit false
namespace Elementwise

/-- What goes on behind the shape of a prefix still has it. -/
theorem Namer.hasPrefixShape_append {stem name : Text} (h : hasPrefixShape stem name = true)
    (t : Text) : hasPrefixShape stem (name ++ t) = true := by
  simp only [hasPrefixShape, Bool.and_eq_true, decide_eq_true_eq] at h ⊢
  obtain ⟨hstem, hdigit, hunderscore⟩ := h
  obtain ⟨rest, rfl⟩ := List.isPrefixOf_iff_prefix.1 hstem
  rw [List.drop_left] at hdigit hunderscore
  have hdrop : (stem ++ rest ++ t).drop stem.length = rest ++ t := by
    rw [List.append_assoc, List.drop_left]
  have hnonempty : rest ≠ [] := by
    rintro rfl
    cases hunderscore
  have hend : (rest ++ t).dropWhile CodePoint.isDecimal =
      rest.dropWhile CodePoint.isDecimal ++ t := by
    rw [List.dropWhile_append, if_neg]
    intro hempty
    rw [List.isEmpty_iff.1 hempty] at hunderscore
    cases hunderscore
  refine ⟨?_, ?_, ?_⟩
  · rw [List.append_assoc]
    exact List.isPrefixOf_iff_prefix.2 (List.prefix_append _ _)
  · rwa [hdrop, List.head?_append_of_ne_nil _ hnonempty]
  · rw [hdrop, hend, List.head?_append, hunderscore]
    rfl

namespace CompiledRoutine

variable {stem : Text} {number : Nat} {out : CompiledRoutine}

/-- The names of a compilation have the shape of generated names for its own stem, and for every
stem for which this stem has that shape. -/
theorem GeneratedBy.hasPrefixShape (h : out.GeneratedBy stem number) {stem' x : Text}
    (hx : x ∈ out.callNames) (hstem : stem = stem' ∨ Namer.hasPrefixShape stem' stem = true) :
    Namer.hasPrefixShape stem' x = true := by
  obtain ⟨k, rfl⟩ := h.callNames x hx
  have htext : ∃ t, k.text (PrefixSequence.prefixFor stem number) =
      PrefixSequence.prefixFor stem number ++ t := by
    cases k with
    | argument i => exact ⟨_, by rw [CallName.text, List.append_assoc, List.append_assoc]⟩
    | free y => exact ⟨_, rfl⟩
  obtain ⟨t, ht⟩ := htext
  rw [ht]
  rcases hstem with rfl | hshape
  · exact Namer.hasPrefixShape_prefixFor stem number t
  · rw [PrefixSequence.prefixFor, List.append_assoc, List.append_assoc]
    exact Namer.hasPrefixShape_append hshape _

end CompiledRoutine

/-- The globals that are left in the body as they are written. -/
def Routine.keptGlobals (r : Routine) : List Text :=
  (r.sites.filterMap r.variableAt?).filterMap fun
    | .ambient x => some x
    | _ => none

theorem Routine.looksSynthetic_of_mem_keptGlobals {r : Routine} {stem x : Text}
    (haccepted : ∀ s ∈ r.sites, r.rejection? stem s = none) (hx : x ∈ r.keptGlobals) :
    (Namer.mk [] stem [] []).looksSynthetic x = false := by
  obtain ⟨v, hv, hvx⟩ := List.mem_filterMap.1 hx
  have hadmits := admits_of_accepted haccepted (List.mem_append_right _ hv)
  cases v with
  | ambient y =>
    obtain rfl : y = x := Option.some.inj hvx
    exact hadmits
  | _ => cases hvx

namespace Compiler

/-- **A global that one body keeps is no name of another body**, unless the stems differ.  It is
never the name of a property, whatever the stems are.  It can only be the name of a parameter or of
a variable of the other body if it does not have the shape that names of its own compilation have;
so it is none if the stems are the same, or if the other stem has that shape itself. -/
theorem compile_keeps_globals_apart {c d : Compiler} {source source' : RoutineSource}
    {q q' : PrefixSequence} {a b : CompiledRoutine} (ha : (c.compile source q).1 = .ok a)
    (hb : (d.compile source' q').1 = .ok b) :
    ∃ f, (source.text >>= anchor) = .ok f ∧
      ∀ x ∈ Routine.keptGlobals ⟨f, c.isGlobal⟩,
        x ∉ b.thisVars ∧
        (x ∈ b.callNames → Namer.hasPrefixShape c.stem x = false) ∧
        (d.stem = c.stem ∨ Namer.hasPrefixShape c.stem d.stem = true → x ∉ b.callNames) := by
  obtain ⟨f, hf, hflattens⟩ := compile_flattens ha
  have hgenerated : b.GeneratedBy d.stem q'.next := compile_generatedBy (Prod.ext hb rfl)
  refine ⟨f, hf, fun x hx => ?_⟩
  have hplain := Routine.looksSynthetic_of_mem_keptGlobals hflattens.accepted hx
  have hshape : Namer.hasPrefixShape c.stem x = false := by
    rw [Namer.looksSynthetic, Bool.or_eq_false_iff] at hplain
    exact hplain.1
  refine ⟨fun hthis => ?_, fun _ => hshape, fun hstem hcall => ?_⟩
  · obtain ⟨p, rfl⟩ := hgenerated.thisVars x hthis
    rw [Namer.looksSynthetic_propertyName] at hplain
    cases hplain
  · rw [hgenerated.hasPrefixShape hcall hstem] at hshape
    cases hshape

/-- The body of `x=>x+this.x+y` keeps the global `y`, which is no name of the same routine compiled
once more. -/
theorem compile_keeps_globals_apart_sample :
    ∃ a b, (sample.compile sampleSource ⟨7⟩).1 = .ok a ∧
      (sample.compile sampleSource ⟨8⟩).1 = .ok b ∧
      .ofChars ['y'] ∉ b.callNames ∧ .ofChars ['y'] ∉ b.thisVars := by
  have hsome : (sample.compile sampleSource ⟨7⟩).1.toOption.isSome = true := by decide +kernel
  have hsome' : (sample.compile sampleSource ⟨8⟩).1.toOption.isSome = true := by decide +kernel
  obtain ⟨a, ha⟩ := Option.isSome_iff_exists.1 hsome
  obtain ⟨b, hb⟩ := Option.isSome_iff_exists.1 hsome'
  have ha := congrArg Prod.fst (compile_eq_of_toOption ha rfl)
  have hb := congrArg Prod.fst (compile_eq_of_toOption hb rfl)
  obtain ⟨f, hf, hkept⟩ := compile_keeps_globals_apart ha hb
  have hy : (sampleSource.text >>= anchor).toOption.all fun f =>
      decide (.ofChars ['y'] ∈ Routine.keptGlobals ⟨f, sample.isGlobal⟩) := by decide +kernel
  rw [hf] at hy
  obtain ⟨hthis, -, hcall⟩ := hkept _ (of_decide_eq_true hy)
  exact ⟨a, b, ha, hb, hcall (.inl rfl), hthis⟩

/-- **Another stem generates a name that was kept as a global.**  With the stem `a_` the routine
`function(){return b_1_x}` keeps its global; the next compilation, with the stem `b_`, makes the
same name for the variable of `function(){return x}`. -/
theorem compile_generates_kept_global :
    let kept : Text := .ofChars ['b', '_', '1', '_', 'x']
    let source : RoutineSource := .value (.text (.ofChars ['f', 'u', 'n', 'c', 't', 'i', 'o', 'n',
      '(', ')', '\x7b', 'r', 'e', 't', 'u', 'r', 'n', ' ', 'b', '_', '1', '_', 'x', '\x7d']))
    let source' : RoutineSource := .value (.text (.ofChars ['f', 'u', 'n', 'c', 't', 'i', 'o', 'n',
      '(', ')', '\x7b', 'r', 'e', 't', 'u', 'r', 'n', ' ', 'x', '\x7d']))
    ∃ c d a b f, ofConfig? ⟨[kept], .text (.ofChars ['a', '_'])⟩ (fun _ => false) = .ok c ∧
      ofConfig? ⟨[], .text (.ofChars ['b', '_'])⟩ (fun _ => false) = .ok d ∧
      c.compile source ⟨0⟩ = (.ok a, ⟨1⟩) ∧ d.compile source' ⟨1⟩ = (.ok b, ⟨2⟩) ∧
      (source.text >>= anchor) = .ok f ∧
      kept ∈ Routine.keptGlobals ⟨f, c.isGlobal⟩ ∧ kept ∈ b.localVars := by
  intro kept source source'
  let c : Compiler := ⟨⟨[kept], .text (.ofChars ['a', '_'])⟩, .ofChars ['a', '_'], fun _ => false⟩
  let d : Compiler := ⟨⟨[], .text (.ofChars ['b', '_'])⟩, .ofChars ['b', '_'], fun _ => false⟩
  have hc : c.config.check = .ok [] := by decide +kernel
  have hd : d.config.check = .ok [] := by decide +kernel
  have hsome : (c.compile source ⟨0⟩).1.toOption.isSome = true := by decide +kernel
  obtain ⟨a, ha⟩ := Option.isSome_iff_exists.1 hsome
  have hlocals :
      (d.compile source' ⟨1⟩).1.toOption.map CompiledRoutine.localVars = some [kept] := by
    decide +kernel
  obtain ⟨b, hb, hkept⟩ := Option.map_eq_some_iff.1 hlocals
  have ha : c.compile source ⟨0⟩ = (.ok a, ⟨1⟩) := compile_eq_of_toOption ha (by decide +kernel)
  have hb : d.compile source' ⟨1⟩ = (.ok b, ⟨2⟩) := compile_eq_of_toOption hb (by decide +kernel)
  obtain ⟨f, -, -, hf, -⟩ := compile_ok ha
  have hglobal : (source.text >>= anchor).toOption.all fun f =>
      decide (kept ∈ Routine.keptGlobals ⟨f, c.isGlobal⟩) := by decide +kernel
  rw [hf] at hglobal
  refine ⟨c, d, a, b, f, ?_, ?_, ha, hb, hf, of_decide_eq_true hglobal, ?_⟩
  · rw [ofConfig?, hc]
    rfl
  · rw [ofConfig?, hd]
    rfl
  · rw [hkept]
    exact List.mem_singleton_self kept

end Compiler
end Elementwise
