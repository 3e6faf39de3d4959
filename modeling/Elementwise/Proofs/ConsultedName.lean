import Elementwise.Proofs.NameSet
import Elementwise.Proofs.WrittenParameter

/-!
# Which names are asked about

Whether a name is an ambient global is asked about variables only, and not about all of them: a
parameter stays a parameter whatever it is called, and `eval` is refused in any case.  So what is
said of other names, of properties, of keys and of what strings hold, has no influence.  Two
compilations whose globals agree on the names that are asked about go the same way, step by step.

## What is here

* `Node.variableNames` — the names that stand for variables in a tree.
* `AnchoredFunction.consulted` — those that are asked about.
* `Rewriter.rename_congr`, `Rewriter.visit_congr` — one site under two sets of globals.
* `Rewriter.visitAll_congr`, `Rewriter.rewrite_congr` — a whole walk.
* `Compiler.compile_consults` — two compilations of one routine.
-/

set_option autoImplicit false
namespace Elementwise

/-! ## Names that stand for variables -/

/-- The name at an occurrence that stands for a variable; a word stands for none. -/
def Occurrence.variable? : Occurrence → Option Text
  | ⟨.word, _⟩ => none
  | ⟨_, .identifier _ x⟩ => some x
  | _ => none

/-- The names that stand for variables in a tree, from left to right. -/
def Node.variableNames (n : Node) : List Text := n.occurrences.filterMap Occurrence.variable?

/-- The names in the body of a function about which it is asked whether they are globals: those of
its variables but its parameters and `eval`. -/
def AnchoredFunction.consulted (f : AnchoredFunction) : List Text :=
  f.body.variableNames.filter fun x => x ≠ Word.eval ∧ x ∉ f.params.map Parameter.name

/-- The name at a site of a variable. -/
def Site.variableName? : Site → Option Text
  | .variable _ x _ _ => some x
  | _ => none

theorem Occurrence.variable?_of_site? {o : Occurrence} {s : Site} (h : o.site? = some s) {x : Text}
    (hx : s.variableName? = some x) : o.variable? = some x := by
  obtain ⟨role, node⟩ := o
  cases s
  case «variable» span y u key =>
    obtain rfl := Option.some.inj hx
    obtain ⟨hrole, rfl, -⟩ := of_site?_eq_variable h
    cases role
    case word => exact absurd rfl hrole
    all_goals rfl
  all_goals cases hx

theorem Routine.mem_variableNames_of_mem_sites {r : Routine} {s : Site} (hs : s ∈ r.sites)
    {x : Text} (hx : s.variableName? = some x) : x ∈ r.function.body.variableNames := by
  obtain ⟨o, ho, hsite⟩ := List.mem_filterMap.1 hs
  exact List.mem_filterMap.2 ⟨o, ho, Occurrence.variable?_of_site? hsite hx⟩

/-! ## Two sets of globals -/

namespace Rewriter

section
variable {f : AnchoredFunction} {g h : Text → Bool}

/-- A name gets the same under two sets of globals that agree on it, and it is not asked about if it
is `eval` or a parameter. -/
theorem rename_congr {x : Text}
    (hx : x ≠ Word.eval → x ∉ f.params.map Parameter.name → g x = h x) (w : Rewriter) (span : Span)
    (usage : Usage) : rename ⟨f, g⟩ w span x usage = rename ⟨f, h⟩ w span x usage := by
  rw [rename, rename]
  by_cases heval : x = Word.eval
  · rw [if_pos heval, if_pos heval]
  · rw [if_neg heval, if_neg heval, Routine.argumentIndex?_eq, Routine.argumentIndex?_eq]
    by_cases hparameter : x ∈ f.params.map Parameter.name
    · have hg : x ∈ Routine.parameterNames ⟨f, g⟩ := hparameter
      have hh : x ∈ Routine.parameterNames ⟨f, h⟩ := hparameter
      rw [if_pos hg, if_pos hh]
      rfl
    · have hg : x ∉ Routine.parameterNames ⟨f, g⟩ := hparameter
      have hh : x ∉ Routine.parameterNames ⟨f, h⟩ := hparameter
      rw [if_neg hg, if_neg hh]
      simp only [hx heval hparameter]

/-- A site is treated the same way under two sets of globals that agree on its name. -/
theorem visit_congr {s : Site}
    (hs : ∀ x ∈ s.variableName?, x ≠ Word.eval → x ∉ f.params.map Parameter.name → g x = h x)
    (w : Rewriter) : visit ⟨f, g⟩ w s = visit ⟨f, h⟩ w s := by
  cases s
  case «variable» span x usage key => rw [visit, visit, rename_congr (hs x rfl)]
  all_goals rfl

/-- **A walk goes the same way under two sets of globals** that agree on the names it meets. -/
theorem visitAll_congr {ss : List Site}
    (hss : ∀ s ∈ ss, ∀ x ∈ s.variableName?,
      x ≠ Word.eval → x ∉ f.params.map Parameter.name → g x = h x) (w : Rewriter) :
    visitAll ⟨f, g⟩ w ss = visitAll ⟨f, h⟩ w ss := by
  induction ss generalizing w with
  | nil => rfl
  | cons s ss ih =>
    obtain ⟨hs, hss⟩ := List.forall_mem_cons.1 hss
    rw [visitAll, visitAll, visit_congr hs]
    simp only [ih hss]

/-- A body is rewritten the same way under two sets of globals that agree on the names that are
asked about. -/
theorem rewrite_congr (hagree : ∀ x ∈ f.consulted, g x = h x) (w : Rewriter) :
    rewrite ⟨f, g⟩ w = rewrite ⟨f, h⟩ w := by
  have hsites :
      visitAll ⟨f, g⟩ w (Routine.sites ⟨f, g⟩) = visitAll ⟨f, h⟩ w (Routine.sites ⟨f, h⟩) := by
    refine visitAll_congr (fun s hs x hx heval hparameter => hagree x ?_) w
    have hname : x ∈ f.body.variableNames :=
      Routine.mem_variableNames_of_mem_sites (r := ⟨f, g⟩) hs hx
    exact List.mem_filter.2 ⟨hname, decide_eq_true ⟨heval, hparameter⟩⟩
  rw [rewrite_eq, rewrite_eq, hsites]
  rfl

end

end Rewriter

/-! ## Compilations -/

namespace Compiler

/-- A function is flattened the same way by two compilers with one stem whose globals agree on the
names that are asked about. -/
theorem flatten_congr {c d : Compiler} (hstem : d.stem = c.stem) {f : AnchoredFunction}
    (hagree : ∀ x ∈ f.consulted, d.isGlobal x = c.isGlobal x) (scope : Text) :
    d.flatten scope f = c.flatten scope f := by
  rw [flatten, flatten, hstem]
  cases Rewriter.ofAnchored? f ⟨scope, c.stem, [], []⟩ with
  | error e => rfl
  | ok w => simp only [Rewriter.rewrite_congr hagree]

/-- A compiler with more configured globals takes these for globals, and else the same names. -/
theorem isGlobal_withGlobals (c : Compiler) {names : List Text} {x : Text} (hx : x ∉ names) :
    isGlobal { c with config := c.config.withGlobals names } x = c.isGlobal x := by
  rw [isGlobal, isGlobal]
  simp only [Config.mem_withGlobals, hx, or_false]

/-- **It is asked only about the variables of a body that are neither parameters nor `eval`**
whether they are globals.  Two compilers with the same stem whose globals agree on these names give
the same routine under the same number, or fail in the same way.  So nothing is changed by further
globals that are not among these names, whatever else they occur as. -/
theorem compile_consults (c : Compiler) (source : RoutineSource) (q : PrefixSequence) :
    (∀ d : Compiler, d.stem = c.stem →
      (∀ f, (source.text >>= anchor) = .ok f → ∀ x ∈ f.body.variableNames,
        x ∉ f.params.map Parameter.name → x ≠ Word.eval → d.isGlobal x = c.isGlobal x) →
      d.compile source q = c.compile source q) ∧
    ∀ names : List Text,
      (∀ f, (source.text >>= anchor) = .ok f → ∀ x ∈ names,
        x ∉ f.body.variableNames ∨ x ∈ f.params.map Parameter.name ∨ x = Word.eval) →
      compile { c with config := c.config.withGlobals names } source q = c.compile source q := by
  have hagreeing : ∀ d : Compiler, d.stem = c.stem →
      (∀ f, (source.text >>= anchor) = .ok f → ∀ x ∈ f.consulted, d.isGlobal x = c.isGlobal x) →
      d.compile source q = c.compile source q := by
    intro d hstem hagree
    rw [compile, compile]
    cases hf : source.text >>= anchor with
    | error e => rfl
    | ok f => simp only [hstem, flatten_congr hstem (hagree f hf)]
  refine ⟨fun d hstem hagree => hagreeing d hstem fun f hf x hx => ?_,
    fun names hnames => hagreeing _ rfl fun f hf x hx => ?_⟩
  all_goals obtain ⟨hname, hconsulted⟩ := List.mem_filter.1 hx
  all_goals obtain ⟨heval, hparameter⟩ := of_decide_eq_true hconsulted
  · exact hagree f hf x hname hparameter heval
  · refine isGlobal_withGlobals c fun hmem => ?_
    rcases hnames f hf x hmem with h | h | h
    · exact h hname
    · exact hparameter h
    · exact heval h

/-- In the routine `x=>x+this.x+y` it is asked about `y` only, which is a global.  So it makes no
difference if every name is one, and none if `x` and `z` are. -/
theorem compile_consults_sample :
    compile { sample with isFurtherGlobal := fun _ => true } sampleSource ⟨7⟩ =
        sample.compile sampleSource ⟨7⟩ ∧
      compile { sample with config := sample.config.withGlobals [.ofChars ['x'], .ofChars ['z']] }
        sampleSource ⟨7⟩ = sample.compile sampleSource ⟨7⟩ := by
  have hnames : (sampleSource.text >>= anchor).toOption.all fun f =>
      decide (f.params.map Parameter.name = [.ofChars ['x']] ∧
        f.body.variableNames = [.ofChars ['x'], .ofChars ['y']]) := by decide +kernel
  obtain ⟨hagreeing, hfurther⟩ := compile_consults sample sampleSource ⟨7⟩
  constructor
  · refine hagreeing _ rfl fun f hf x hx hparameter _ => ?_
    rw [hf] at hnames
    obtain ⟨hparams, hvariables⟩ := of_decide_eq_true hnames
    rw [hvariables, List.mem_cons, List.mem_singleton] at hx
    rw [hparams, List.mem_singleton] at hparameter
    rw [hx.resolve_left hparameter]
    decide
  · refine hfurther _ fun f hf x hx => ?_
    rw [hf] at hnames
    obtain ⟨hparams, hvariables⟩ := of_decide_eq_true hnames
    rw [hparams, hvariables]
    rw [List.mem_cons, List.mem_singleton] at hx
    rcases hx with rfl | rfl
    · exact .inr (.inl (List.mem_singleton_self _))
    · exact .inl (by decide)

end Compiler
end Elementwise
