import Elementwise.Session
import Elementwise.Proofs.Flattening
import Elementwise.Proofs.NameSet

/-!
# Compilers that share a sequence

Any number of compilers may draw from one sequence, in any order and with any stems.  A sequence
only moves forward, and a compilation takes its number for itself; so two compilations that draw
from one sequence have different numbers, and a name tells the number it was made with.

## What is here

* `CompiledRoutine.GeneratedBy` — that all names of a compiled routine are generated, and under
  which stem and number.
* `Session.Valid`, `Session.Moves` — what holds of a session at any time, and what an action can do
  to it.
* `Session.compilations` — the routines that a run compiles, each with the sequence it draws from.
* `Session.run_names_apart` — no two of them share a name, and none of their names is that of a
  property.
-/

set_option autoImplicit false
namespace Elementwise

/-! ## The names of one compilation -/

namespace CompiledRoutine

/-- The names that belong to a compilation: those of its parameters, used or not, and those of its
free and local variables. -/
def callNames (out : CompiledRoutine) : List Text :=
  out.args.map ArgumentUsage.name ++ out.localVars

/-- Whether the names of a routine are generated under a stem and a number. -/
structure GeneratedBy (stem : Text) (number : Nat) (out : CompiledRoutine) : Prop where
  callNames : ∀ x ∈ out.callNames, ∃ k : CallName, x = k.text (PrefixSequence.prefixFor stem number)
  thisVars : ∀ x ∈ out.thisVars, ∃ p, x = Namer.propertyName p

/-- Under different numbers there is no name in common, whatever the stems are. -/
theorem GeneratedBy.callNames_disjoint {s t : Text} {m n : Nat} {a b : CompiledRoutine}
    (ha : a.GeneratedBy s m) (hb : b.GeneratedBy t n) (hs : s.getLast? = some underscore)
    (ht : t.getLast? = some underscore) (hmn : m ≠ n) : a.callNames.Disjoint b.callNames := by
  intro x hxa hxb
  obtain ⟨k, rfl⟩ := ha.callNames x hxa
  obtain ⟨l, hl⟩ := hb.callNames _ hxb
  exact hmn (CallName.text_inj hs ht hl).2.1

theorem GeneratedBy.callNames_disjoint_thisVars {s t : Text} {m n : Nat} {a b : CompiledRoutine}
    (ha : a.GeneratedBy s m) (hb : b.GeneratedBy t n) : a.callNames.Disjoint b.thisVars := by
  intro x hxa hxb
  obtain ⟨k, rfl⟩ := ha.callNames x hxa
  obtain ⟨p, hp⟩ := hb.thisVars _ hxb
  exact CallName.text_ne_propertyName s m k p hp

end CompiledRoutine

namespace Compiler

/-- **All names of a compilation are generated**, under the number that it draws. -/
theorem compile_generatedBy {c : Compiler} {source : RoutineSource} {q q' : PrefixSequence}
    {out : CompiledRoutine} (h : c.compile source q = (.ok out, q')) :
    out.GeneratedBy c.stem q.next := by
  obtain ⟨f, w, w', -, -, hw, hrewrite, hout⟩ := compile_ok h
  have hconsistent : w.Consistent ⟨f, c.isGlobal⟩ _ c.stem := Rewriter.ofAnchored?_consistent hw
  obtain ⟨-, hw'⟩ := Rewriter.rewrite_ok hconsistent hrewrite
  have hafter := Rewriter.after_consistent hconsistent (Routine.sites ⟨f, c.isGlobal⟩)
  rw [← hw'] at hafter
  rw [hout]
  refine ⟨fun x hx => ?_, fun x hx => hafter.properties x (mem_uniqueNames.1 hx)⟩
  rcases List.mem_append.1 hx with hx | hx
  · rw [hafter.names] at hx
    obtain ⟨i, -, rfl⟩ := List.mem_map.1 hx
    exact ⟨.argument i, rfl⟩
  · obtain ⟨y, rfl⟩ := hafter.locals x (mem_uniqueNames.1 hx)
    exact ⟨.free y, rfl⟩

/-- A compilation moves a sequence forward or leaves it alone. -/
theorem next_le_compile (c : Compiler) (source : RoutineSource) (q : PrefixSequence) :
    q.next ≤ (c.compile source q).2.next := by
  rw [compile]
  split
  · exact Nat.le_refl _
  · exact Nat.le_succ _

theorem getLast?_of_stemErrors {stem : Value} (h : Config.stemErrors stem = []) :
    (stem.text?.getD []).getLast? = some underscore := by
  rw [Config.stemErrors] at h
  split at h
  · cases h
  · rename_i t ht
    split at h
    · rename_i hlast
      rw [(Option.filter_eq_some_iff.1 ht).1]
      exact hlast
    · cases h

/-- The stem of a compiler that was made ends in an underscore. -/
theorem getLast?_stem_of_ofConfig? {config : Config} {isFurtherGlobal : Text → Bool}
    {c : Compiler} (h : ofConfig? config isFurtherGlobal = .ok c) :
    c.stem.getLast? = some underscore := by
  obtain ⟨hstem, hfaultless⟩ := stem_of_ofConfig? h
  rw [hstem]
  exact getLast?_of_stemErrors hfaultless

end Compiler

/-! ## Sessions -/

namespace Session

/-- What holds of a session at any time: stems end in an underscore, and there is a sequence for
every name and for every compiler. -/
structure Valid (s : Session) : Prop where
  nonempty : 0 < s.sequences.length
  names : ∀ b ∈ s.sequenceNames, b.2 < s.sequences.length
  stems : ∀ b ∈ s.compilers, b.2.compiler.stem.getLast? = some underscore
  sequences : ∀ b ∈ s.compilers, b.2.sequence < s.sequences.length

theorem valid_initial : Valid {} :=
  ⟨by decide, by decide, fun _ h => (List.not_mem_nil h).elim, fun _ h => (List.not_mem_nil h).elim⟩

/-- What an action can do to a session: nothing, make a sequence or a compiler, or move a sequence
forward. -/
inductive Moves (s : Session) : Session → Prop where
  | stay : Moves s s
  | newSequence (name : Text) (q : PrefixSequence) :
    Moves s { s with
      sequences := s.sequences ++ [q]
      sequenceNames := (name, s.sequences.length) :: s.sequenceNames }
  | newCompiler (name : Text) (c : Compiler) (i : Nat)
      (hstem : c.stem.getLast? = some underscore) (hi : i < s.sequences.length) :
    Moves s { s with compilers := (name, ⟨c, i⟩) :: s.compilers }
  | forward (i : Nat) (q : PrefixSequence) (hq : (s.sequenceAt i).next ≤ q.next) :
    Moves s (s.setSequence i q)

theorem Moves.valid {s s' : Session} (h : Moves s s') (hs : s.Valid) : s'.Valid := by
  cases h with
  | stay => exact hs
  | newSequence name q =>
    refine ⟨by simp, fun b hb => ?_, hs.stems, fun b hb => ?_⟩
    · rcases List.mem_cons.1 hb with rfl | hb
      · simp
      · have := hs.names b hb
        simp only [List.length_append, List.length_singleton]
        omega
    · have := hs.sequences b hb
      simp only [List.length_append, List.length_singleton]
      omega
  | newCompiler name c i hstem hi =>
    refine ⟨hs.nonempty, hs.names, fun b hb => ?_, fun b hb => ?_⟩
    · rcases List.mem_cons.1 hb with rfl | hb
      · exact hstem
      · exact hs.stems b hb
    · rcases List.mem_cons.1 hb with rfl | hb
      · exact hi
      · exact hs.sequences b hb
  | forward i q hq =>
    have hlength : (s.setSequence i q).sequences.length = s.sequences.length :=
      List.length_set
    exact ⟨by rw [hlength]; exact hs.nonempty, by rw [hlength]; exact hs.names, hs.stems,
      by rw [hlength]; exact hs.sequences⟩

theorem sequenceAt_setSequence {s : Session} {i : Nat} (hi : i < s.sequences.length)
    (q : PrefixSequence) : (s.setSequence i q).sequenceAt i = q := by
  rw [sequenceAt, setSequence, List.getElem?_set_self hi]
  rfl

theorem sequenceAt_setSequence_ne {s : Session} {i j : Nat} (h : i ≠ j) (q : PrefixSequence) :
    (s.setSequence i q).sequenceAt j = s.sequenceAt j := by
  rw [sequenceAt, setSequence, List.getElem?_set_ne h, sequenceAt]

/-- **Sequences only move forward.** -/
theorem Moves.next_le {s s' : Session} (h : Moves s s') (i : Nat) :
    (s.sequenceAt i).next ≤ (s'.sequenceAt i).next := by
  cases h with
  | stay => exact Nat.le_refl _
  | newSequence name q =>
    rcases Nat.lt_or_ge i s.sequences.length with hi | hi
    · have : (s.sequences ++ [q])[i]? = s.sequences[i]? := List.getElem?_append_left hi
      rw [sequenceAt, sequenceAt, this]
    · rw [sequenceAt, List.getElem?_eq_none hi]
      exact Nat.zero_le _
  | newCompiler => exact Nat.le_refl _
  | forward j q hq =>
    rcases eq_or_ne j i with rfl | hji
    · rcases Nat.lt_or_ge j s.sequences.length with hj | hj
      · rw [sequenceAt_setSequence hj]
        exact hq
      · rw [sequenceAt, List.getElem?_eq_none hj]
        exact Nat.zero_le _
    · rw [sequenceAt_setSequence_ne hji]

theorem mem_of_sequenceIndex? {s : Session} {name : Text} {i : Nat}
    (h : s.sequenceIndex? name = some i) : ∃ b ∈ s.sequenceNames, b.2 = i := by
  obtain ⟨b, hb, rfl⟩ := Option.map_eq_some_iff.1 h
  exact ⟨b, List.mem_of_find?_eq_some hb, rfl⟩

theorem mem_of_compiler? {s : Session} {name : Text} {c : BoundCompiler}
    (h : s.compiler? name = some c) : ∃ b ∈ s.compilers, b.2 = c := by
  obtain ⟨b, hb, rfl⟩ := Option.map_eq_some_iff.1 h
  exact ⟨b, List.mem_of_find?_eq_some hb, rfl⟩

theorem compileWith_snd (s : Session) (c : BoundCompiler) (source : RoutineSource) :
    (s.compileWith c source).2 = s.setSequence c.sequence
      (c.compiler.compile source (s.sequenceAt c.sequence)).2 := by
  rw [compileWith]
  cases c.compiler.compile source (s.sequenceAt c.sequence) with
  | mk result q => cases result <;> rfl

theorem moves_compileWith (s : Session) (c : BoundCompiler) (source : RoutineSource) :
    Moves s (s.compileWith c source).2 := by
  rw [compileWith_snd]
  exact .forward _ _ (Compiler.next_le_compile _ _ _)

theorem moves_onSequence (s : Session) (name : Text)
    {f : PrefixSequence → Answer × PrefixSequence} (hf : ∀ q, q.next ≤ (f q).2.next) :
    Moves s (s.onSequence name f).2 := by
  rw [onSequence]
  cases s.sequenceIndex? name with
  | none => exact .stay
  | some i => exact .forward i _ (hf _)

/-- **What one action does**, whatever it is. -/
theorem moves_step {s : Session} (hs : s.Valid) (a : Action) : Moves s (s.step a).2 := by
  cases a with
  | makeSequence name start =>
    rw [step]
    cases PrefixSequence.ofStart? start with
    | error e => exact .stay
    | ok q => exact .newSequence name q
  | makeCompiler name sequence config isFurtherGlobal =>
    rw [step]
    cases hc : Compiler.ofConfig? config isFurtherGlobal with
    | error e => exact .stay
    | ok c =>
      have hstem := Compiler.getLast?_stem_of_ofConfig? hc
      cases hi : sequence.elim (some 0) s.sequenceIndex? with
      | none => exact .stay
      | some i =>
        refine .newCompiler name c i hstem ?_
        cases sequence with
        | none =>
          obtain rfl : 0 = i := Option.some.inj hi
          exact hs.nonempty
        | some sequence =>
          obtain ⟨b, hb, rfl⟩ := mem_of_sequenceIndex? hi
          exact hs.names b hb
  | compile name source =>
    rw [step]
    cases s.compiler? name with
    | none => exact .stay
    | some c => exact moves_compileWith s c source
  | compileOnce config isFurtherGlobal source =>
    rw [step]
    cases Compiler.ofConfig? config isFurtherGlobal with
    | error e => exact .stay
    | ok c => exact moves_compileWith s ⟨c, 0⟩ source
  | askGlobal name global =>
    rw [step]
    cases s.compiler? name <;> exact .stay
  | showConfig name =>
    rw [step]
    cases s.compiler? name <;> exact .stay
  | peek name => exact moves_onSequence s name fun q => Nat.le_refl _
  | draw name => exact moves_onSequence s name fun q => Nat.le_succ _
  | drawPrefix name stem => exact moves_onSequence s name fun q => Nat.le_succ _

/-! ### Compilations of a run -/

/-- The position of the sequence that an action draws from, if it compiles a routine. -/
def drawsFrom? (s : Session) : Action → Option Nat
  | .compile name _ => (s.compiler? name).map BoundCompiler.sequence
  | .compileOnce .. => some 0
  | _ => none

/-- The routine in an answer. -/
def routine? : Answer → Option CompiledRoutine
  | .routine out => some out
  | _ => none

/-- The routines that a run compiles, each with the position of the sequence it draws from. -/
def compilations : Session → List Action → List (Nat × CompiledRoutine)
  | _, [] => []
  | s, a :: as =>
    match s.drawsFrom? a, routine? (s.step a).1 with
    | some i, some out => (i, out) :: compilations (s.step a).2 as
    | _, _ => compilations (s.step a).2 as

theorem compileWith_routine {s : Session} {c : BoundCompiler} {source : RoutineSource}
    {out : CompiledRoutine} (h : routine? (s.compileWith c source).1 = some out) :
    ∃ q, c.compiler.compile source (s.sequenceAt c.sequence) = (.ok out, q) := by
  rw [compileWith] at h
  cases hc : c.compiler.compile source (s.sequenceAt c.sequence) with
  | mk result q =>
    rw [hc] at h
    cases result with
    | error e => cases h
    | ok r =>
      obtain rfl : r = out := Option.some.inj h
      exact ⟨q, rfl⟩

/-- An action that compiles a routine draws one number, and the names of the routine are generated
under it. -/
theorem step_routine {s : Session} (hs : s.Valid) {a : Action} {out : CompiledRoutine}
    (h : routine? (s.step a).1 = some out) :
    ∃ i stem, s.drawsFrom? a = some i ∧ stem.getLast? = some underscore ∧
      out.GeneratedBy stem (s.sequenceAt i).next ∧
      ((s.step a).2.sequenceAt i).next = (s.sequenceAt i).next + 1 := by
  have hwith : ∀ (c : BoundCompiler) (source : RoutineSource),
      c.sequence < s.sequences.length → c.compiler.stem.getLast? = some underscore →
      routine? (s.compileWith c source).1 = some out →
      out.GeneratedBy c.compiler.stem (s.sequenceAt c.sequence).next ∧
      ((s.compileWith c source).2.sequenceAt c.sequence).next =
        (s.sequenceAt c.sequence).next + 1 := by
    intro c source hi hstem hout
    obtain ⟨q, hcompile⟩ := compileWith_routine hout
    refine ⟨Compiler.compile_generatedBy hcompile, ?_⟩
    rw [compileWith_snd, sequenceAt_setSequence hi, hcompile]
    obtain ⟨-, -, -, -, rfl, -⟩ := Compiler.compile_ok hcompile
    rfl
  cases a with
  | compile name source =>
    rw [step] at h ⊢
    rw [drawsFrom?]
    cases hc : s.compiler? name with
    | none =>
      rw [hc] at h
      cases h
    | some c =>
      rw [hc] at h
      obtain ⟨b, hb, rfl⟩ := mem_of_compiler? hc
      obtain ⟨hgenerated, hnext⟩ := hwith b.2 source (hs.sequences b hb) (hs.stems b hb) h
      exact ⟨_, _, rfl, hs.stems b hb, hgenerated, hnext⟩
  | compileOnce config isFurtherGlobal source =>
    rw [step] at h ⊢
    cases hc : Compiler.ofConfig? config isFurtherGlobal with
    | error e =>
      rw [hc] at h
      cases h
    | ok c =>
      rw [hc] at h
      have hstem := Compiler.getLast?_stem_of_ofConfig? hc
      obtain ⟨hgenerated, hnext⟩ := hwith ⟨c, 0⟩ source hs.nonempty hstem h
      exact ⟨0, c.stem, rfl, hstem, hgenerated, hnext⟩
  | makeSequence name start =>
    rw [step] at h
    split at h <;> cases h
  | makeCompiler name sequence config isFurtherGlobal =>
    rw [step] at h
    split at h <;> cases h
  | askGlobal name global =>
    rw [step] at h
    split at h <;> cases h
  | showConfig name =>
    rw [step] at h
    split at h <;> cases h
  | peek name | draw name | drawPrefix name stem =>
    rw [step, onSequence] at h
    split at h <;> cases h

theorem compilations_cons_none {s : Session} {a : Action} (as : List Action)
    (h : routine? (s.step a).1 = none) :
    s.compilations (a :: as) = (s.step a).2.compilations as := by
  rw [compilations, h]
  cases s.drawsFrom? a <;> rfl

theorem compilations_cons_some {s : Session} {a : Action} (as : List Action) {i : Nat}
    {out : CompiledRoutine} (hi : s.drawsFrom? a = some i) (h : routine? (s.step a).1 = some out) :
    s.compilations (a :: as) = (i, out) :: (s.step a).2.compilations as := by
  rw [compilations, h, hi]

/-- The compilations of a run are the routines among its answers. -/
theorem compilations_map_snd {s : Session} (hs : s.Valid) (as : List Action) :
    (s.compilations as).map Prod.snd = (s.run as).1.filterMap routine? := by
  induction as generalizing s with
  | nil => rfl
  | cons a as ih =>
    have hrest := ih ((moves_step hs a).valid hs)
    have hrun : (s.run (a :: as)).1 = (s.step a).1 :: ((s.step a).2.run as).1 := rfl
    rw [hrun, List.filterMap_cons]
    cases hout : routine? (s.step a).1 with
    | none => rw [compilations_cons_none as hout, hrest]
    | some out =>
      obtain ⟨i, -, hi, -⟩ := step_routine hs hout
      rw [compilations_cons_some as hi hout, List.map_cons, hrest]

/-- All routines of a run have generated names, under numbers that their sequences had not handed
out before the run. -/
theorem compilations_generatedBy {s : Session} (hs : s.Valid) (as : List Action) :
    ∀ c ∈ s.compilations as, ∃ stem number, stem.getLast? = some underscore ∧
      (s.sequenceAt c.1).next ≤ number ∧ c.2.GeneratedBy stem number := by
  induction as generalizing s with
  | nil => exact fun c hc => (List.not_mem_nil hc).elim
  | cons a as ih =>
    have hmoves := moves_step hs a
    have hrest : ∀ c ∈ (s.step a).2.compilations as, ∃ stem number,
        stem.getLast? = some underscore ∧ (s.sequenceAt c.1).next ≤ number ∧
          c.2.GeneratedBy stem number := by
      intro c hc
      obtain ⟨stem, number, hstem, hnumber, hgenerated⟩ := ih (hmoves.valid hs) c hc
      exact ⟨stem, number, hstem, (hmoves.next_le c.1).trans hnumber, hgenerated⟩
    cases hout : routine? (s.step a).1 with
    | none =>
      rw [compilations_cons_none as hout]
      exact hrest
    | some out =>
      obtain ⟨i, stem, hi, hstem, hgenerated, -⟩ := step_routine hs hout
      rw [compilations_cons_some as hi hout]
      intro c hc
      rcases List.mem_cons.1 hc with rfl | hc
      · exact ⟨stem, _, hstem, Nat.le_refl _, hgenerated⟩
      · exact hrest c hc

/-- Two compilations of a run that draw from one sequence have no name in common. -/
theorem compilations_pairwise {s : Session} (hs : s.Valid) (as : List Action) :
    (s.compilations as).Pairwise fun a b => a.1 = b.1 → a.2.callNames.Disjoint b.2.callNames := by
  induction as generalizing s with
  | nil => exact .nil
  | cons a as ih =>
    have hvalid := (moves_step hs a).valid hs
    cases hout : routine? (s.step a).1 with
    | none =>
      rw [compilations_cons_none as hout]
      exact ih hvalid
    | some out =>
      obtain ⟨i, stem, hi, hstem, hgenerated, hnext⟩ := step_routine hs hout
      rw [compilations_cons_some as hi hout]
      refine List.pairwise_cons.2 ⟨fun c hc hic => ?_, ih hvalid⟩
      -- the sequence has moved past the number of the first routine before the second one draws
      obtain ⟨stem', number, hstem', hnumber, hgenerated'⟩ :=
        compilations_generatedBy hvalid as c hc
      obtain rfl : i = c.1 := hic
      exact hgenerated.callNames_disjoint hgenerated' hstem hstem' (by omega)

/-- **Compilers that share a sequence never meet.**  The compilations of a run are the routines
among its answers.  Of two that draw from one sequence, neither has a parameter or a variable called
like one of the other, and no compilation has one that is called like a property. -/
theorem run_names_apart (actions : List Action) :
    (compilations {} actions).map Prod.snd = (run {} actions).1.filterMap routine? ∧
    ((compilations {} actions).Pairwise fun a b =>
      a.1 = b.1 → a.2.callNames.Disjoint b.2.callNames) ∧
    ∀ a ∈ compilations {} actions, ∀ b ∈ compilations {} actions,
      a.2.callNames.Disjoint b.2.thisVars := by
  refine ⟨compilations_map_snd valid_initial actions, compilations_pairwise valid_initial actions,
    fun a ha b hb => ?_⟩
  obtain ⟨s, m, -, -, ha⟩ := compilations_generatedBy valid_initial actions a ha
  obtain ⟨t, n, -, -, hb⟩ := compilations_generatedBy valid_initial actions b hb
  exact ha.callNames_disjoint_thisVars hb

-- One stem begins like the other, and the two routines use one variable.
example :
    (compilations {} [
      .compileOnce ⟨[], .text (.ofChars ['k', '_'])⟩ (fun _ => false)
        (.value (.text (.ofChars ['a', '=', '>', 'x']))),
      .compileOnce ⟨[], .text (.ofChars ['k', '_', '1', '_'])⟩ (fun _ => false)
        (.value (.text (.ofChars ['b', '=', '>', 'x'])))]).map
      (fun c => (c.1, c.2.callNames)) =
    [(0, [.ofChars ['k', '_', '0', '_', 'a', 'r', 'g', '0', '_'],
      .ofChars ['k', '_', '0', '_', 'x']]),
     (0, [.ofChars ['k', '_', '1', '_', '1', '_', 'a', 'r', 'g', '0', '_'],
       .ofChars ['k', '_', '1', '_', '1', '_', 'x']])] := by
  decide +kernel

end Session
end Elementwise
