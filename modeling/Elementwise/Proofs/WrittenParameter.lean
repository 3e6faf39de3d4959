import Elementwise.Proofs.Flattening

/-!
# Which parameters are written

The usage of a parameter is gathered from its occurrences, and the construct directly around an
occurrence decides what it adds.  So a parameter is marked as written exactly if some assignment has
it as its left side or some update changes it.  What a loop, a declaration or a pattern assigns to
only counts as read.

## What is here

* `ArgumentUsage.recordAll_eq` — the usage gathered from a list of occurrences.
* `Rewriter.getElem?_after_arguments` — the usage of a parameter behind a walk.
* `Routine.exists_write_iff` — the occurrences that write are those that something assigns to.
* `Compiler.compile_isWritten_iff` — when a successful compilation marks a parameter as written.
* `Compiler.compile_unmarked_writes` — a routine that assigns to its parameters in eight other ways.
-/

set_option autoImplicit false
namespace Elementwise

/-! ## Gathering usages -/

namespace ArgumentUsage

/-- Takes note of several occurrences. -/
def recordAll (a : ArgumentUsage) (us : List Usage) : ArgumentUsage := us.foldl record a

theorem recordAll_eq (a : ArgumentUsage) (us : List Usage) :
    a.recordAll us =
      ⟨a.name, a.isWritten || us.any Usage.isWrite, a.isRead || us.any Usage.isRead,
        a.count + us.length⟩ := by
  induction us generalizing a with
  | nil => simp [recordAll]
  | cons u us ih =>
    have hstep : a.recordAll (u :: us) = (a.record u).recordAll us := rfl
    rw [hstep, ih]
    simp [record, Bool.or_assoc, Nat.add_comm, Nat.add_left_comm]

end ArgumentUsage

/-- How a site uses a given variable, if it does. -/
def Site.usage? (x : Text) : Site → Option Usage
  | .variable _ y u _ => if y = x then some u else none
  | _ => none

namespace Rewriter

theorem getElem?_noted_arguments {r : Routine} {x : Text} (hx : x ∈ r.parameterNames) (w : Rewriter)
    (s : Site) :
    (w.noted r s).arguments[r.parameterNames.idxOf x]? =
      (w.arguments[r.parameterNames.idxOf x]?).map fun a => a.recordAll (s.usage? x).toList := by
  have hsame : w.arguments[r.parameterNames.idxOf x]? =
      (w.arguments[r.parameterNames.idxOf x]?).map fun a => a.recordAll [] := by
    simp [ArgumentUsage.recordAll]
  match s with
  | .variable span y u key =>
    rw [noted, Site.usage?]
    by_cases hyx : y = x
    · subst hyx
      have hresolve : r.resolve y = .parameter y := by rw [Routine.resolve, if_pos hx]
      simp only [hresolve, if_true, List.getElem?_modify_eq]
      rfl
    · rw [if_neg hyx]
      by_cases hy : y ∈ r.parameterNames
      · have hresolve : r.resolve y = .parameter y := by rw [Routine.resolve, if_pos hy]
        have hindex : r.parameterNames.idxOf y ≠ r.parameterNames.idxOf x := fun h =>
          hyx ((List.idxOf_inj hy).1 h)
        simp only [hresolve]
        rw [List.getElem?_modify_ne _ _ hindex]
        exact hsame
      · by_cases hglobal : r.isGlobal y = true
        · simpa [Routine.resolve, hy, hglobal] using hsame
        · simpa [Routine.resolve, hy, hglobal] using hsame
  | .thisProperty .. | .string .. | .this .. | .withObject .. => exact hsame

/-- **Behind a walk the usage of a parameter is gathered from the sites of its name**, in the order
of the walk. -/
theorem getElem?_after_arguments {r : Routine} {x : Text} (hx : x ∈ r.parameterNames)
    (scope : Text) (w : Rewriter) (ss : List Site) :
    (w.after r scope ss).arguments[r.parameterNames.idxOf x]? =
      (w.arguments[r.parameterNames.idxOf x]?).map fun a =>
        a.recordAll (ss.filterMap (Site.usage? x)) := by
  induction ss generalizing w with
  | nil => simp [after, ArgumentUsage.recordAll]
  | cons s ss ih =>
    have hstep : w.after r scope (s :: ss) =
        ((w.noted r s).recorded (r.edit? scope s)).after r scope ss := rfl
    have hrecorded : ((w.noted r s).recorded (r.edit? scope s)).arguments =
        (w.noted r s).arguments := rfl
    rw [hstep, ih, hrecorded, getElem?_noted_arguments hx, Option.map_map, List.filterMap_cons]
    refine congrArg (Option.map · _) (funext fun a => ?_)
    cases s.usage? x <;> rfl

theorem length_arguments_of_consistent {r : Routine} {scope stem : Text} {w : Rewriter}
    (hw : w.Consistent r scope stem) : w.arguments.length = r.function.params.length := by
  simpa using congrArg List.length hw.names

/-- A fresh rewriter has seen no occurrence of any parameter. -/
theorem ofAnchored?_arguments {f : AnchoredFunction} {namer : Namer} {w : Rewriter}
    (h : ofAnchored? f namer = .ok w) {i : Nat} (hi : i < f.params.length) :
    w.arguments[i]? = some { name := namer.argument i } := by
  rw [ofAnchored?] at h
  split at h
  · cases h
  · obtain rfl := Except.ok.inj h
    simp [hi]

end Rewriter

/-! ## Occurrences that are assigned to -/

namespace Occurrence

/-- An occurrence assigns to a name: it is an assignment, plain or combined with an operator, of
which the name is the left side, or it increases or decreases the name. -/
inductive Assigns (x : Text) : Occurrence → Prop where
  | assignment {role : Role} {s t : Span} {op : Option BinaryOp} {right : Node}
      (hrole : role ≠ .word) : Assigns x ⟨role, .assignment s op (.identifier t x) right⟩
  | update {role : Role} {s t : Span} {op : UpdateOp} {before : Bool}
      (hrole : role ≠ .word) : Assigns x ⟨role, .update s op before (.identifier t x)⟩

end Occurrence

namespace Node

theorem isWrite_partsOf {role : String} {nodes : List Node} {part : Part}
    (h : part ∈ partsOf role nodes) : part.position.usage.isWrite = false := by
  obtain ⟨n, -, rfl⟩ := List.mem_map.1 h
  rfl

theorem isWrite_partOf? {role : String} {node? : Option Node} {part : Part}
    (h : part ∈ partOf? role node?) : part.position.usage.isWrite = false := isWrite_partsOf h

/-- Only an assignment has a target, and only an update changes its operand. -/
theorem of_mem_parts {n : Node} {part : Part} (h : part ∈ n.parts)
    (hp : part.position.usage.isWrite = true) :
    (∃ s right op, n = .assignment s op part.node right ∧ part.position = .target op) ∨
      (∃ s op before, n = .update s op before part.node) ∧ part.position = .updated := by
  cases n
  case assignment s op left right =>
    rw [parts] at h
    rcases List.mem_cons.1 h with rfl | h
    · exact .inl ⟨s, right, op, rfl, rfl⟩
    · obtain rfl := List.mem_singleton.1 h
      cases hp
  case update s op before argument =>
    obtain rfl := List.mem_singleton.1 h
    exact .inr ⟨⟨s, op, before, rfl⟩, rfl⟩
  all_goals
    simp only [parts, List.mem_append, List.mem_cons, List.not_mem_nil, or_false] at h <;>
    grind [→ isWrite_partsOf, → isWrite_partOf?, Position.usage]

theorem targetRole_eq (key target : Node) :
    key.targetRole target = .shorthand key ∨ key.targetRole target = .value .plain := by
  rw [targetRole]
  split
  · exact .inl rfl
  · exact .inr rfl

theorem keyRole_eq (key : Node) : key.keyRole = .value .plain ∨ key.keyRole = .word := by
  rw [keyRole]
  split
  · exact .inl rfl
  · exact .inr rfl

end Node

namespace Occurrence

/-- What stands in a place that is written belongs to an assignment or to an update. -/
theorem assigns_of_mem_inside {o : Occurrence} {p : Position} {s : Span} {x : Text}
    (h : ⟨.value p, .identifier s x⟩ ∈ o.inside) (hp : p.usage.isWrite = true) : o.Assigns x := by
  unfold inside at h
  split at h
  case h_1 => exact absurd h List.not_mem_nil
  case h_8 role n hword _ _ _ _ _ _ =>
    obtain ⟨part, hpart, hc⟩ := List.mem_map.1 h
    obtain ⟨hposition, hnode⟩ := Occurrence.mk.inj hc
    obtain rfl := Role.value.inj hposition
    rcases Node.of_mem_parts hpart hp with ⟨t, right, op, rfl, -⟩ | ⟨⟨t, op, before, rfl⟩, -⟩
    · rw [hnode]
      exact .assignment hword
    · rw [hnode]
      exact .update hword
  all_goals
    simp only [List.mem_cons, List.not_mem_nil, or_false, Occurrence.mk.injEq] at h
    grind [Node.targetRole_eq, Node.keyRole_eq, Position.usage]

/-- What an occurrence assigns to lies directly inside it, in a place that is written. -/
theorem Assigns.exists_mem_inside {x : Text} {o : Occurrence} (h : o.Assigns x) :
    ∃ p s, ⟨.value p, .identifier s x⟩ ∈ o.inside ∧ p.usage.isWrite = true := by
  cases h with
  | @assignment role s t op right hrole =>
    refine ⟨.target op, t, ?_, by cases op <;> rfl⟩
    cases role
    case word => exact absurd rfl hrole
    all_goals exact List.mem_cons_self
  | @update role s t op before hrole =>
    refine ⟨.updated, t, ?_, rfl⟩
    cases role
    case word => exact absurd rfl hrole
    all_goals exact List.mem_cons_self

theorem of_site?_eq_variable {role : Role} {node : Node} {s : Span} {x : Text} {u : Usage}
    {key : Option Text} (h : site? ⟨role, node⟩ = some (.variable s x u key)) :
    role ≠ .word ∧ node = .identifier s x ∧ u = role.position.usage := by
  cases node
  case identifier => cases role <;> cases h <;> simp
  case literal _ value => cases role <;> cases value <;> cases h
  case member _ computed owner _ => cases role <;> cases computed <;> cases owner <;> cases h
  all_goals cases role <;> cases h

end Occurrence

namespace Routine

/-- How the occurrences of a name use it, in the order of the walk. -/
def usages (r : Routine) (x : Text) : List Usage := r.sites.filterMap (Site.usage? x)

theorem mem_usages_iff {r : Routine} {x : Text} {u : Usage} :
    u ∈ r.usages x ↔ ∃ role s, ⟨role, .identifier s x⟩ ∈ r.function.body.occurrences ∧
      role ≠ .word ∧ u = role.position.usage := by
  rw [usages, sites, List.filterMap_filterMap, List.mem_filterMap]
  constructor
  · rintro ⟨⟨role, node⟩, ho, husage⟩
    obtain ⟨site, hsite, hu⟩ := Option.bind_eq_some_iff.1 husage
    cases site with
    | «variable» s y v key =>
      rw [Site.usage?] at hu
      split at hu
      · rename_i hyx
        obtain rfl := Option.some.inj hu
        obtain ⟨hword, rfl, hv⟩ := Occurrence.of_site?_eq_variable hsite
        exact ⟨role, s, hyx ▸ ho, hword, hv⟩
      · cases hu
    | _ => cases hu
  · rintro ⟨role, s, ho, hword, rfl⟩
    refine ⟨_, ho, ?_⟩
    cases role
    case word => exact absurd rfl hword
    all_goals simp [Occurrence.site?, Site.usage?]

/-- **An occurrence of a name writes it if and only if something assigns to the name itself.** -/
theorem exists_write_iff (r : Routine) (x : Text) :
    (r.usages x).any Usage.isWrite = true ↔ ∃ o ∈ r.function.body.occurrences, o.Assigns x := by
  rw [List.any_eq_true]
  constructor
  · rintro ⟨u, hu, hwrite⟩
    obtain ⟨role, s, ho, -, rfl⟩ := mem_usages_iff.1 hu
    cases role
    case value p =>
      rcases Relation.ReflTransGen.cases_tail (Occurrence.mem_below_iff.1 ho) with
        hroot | ⟨parent, hparent, hinside⟩
      · obtain rfl := Role.value.inj (Occurrence.mk.inj hroot).1
        cases hwrite
      · exact ⟨parent, Occurrence.mem_below_iff.2 hparent,
          Occurrence.assigns_of_mem_inside hinside hwrite⟩
    all_goals cases hwrite
  · rintro ⟨o, ho, hassigns⟩
    obtain ⟨p, s, hinside, hwrite⟩ := hassigns.exists_mem_inside
    have hbelow : ⟨.value p, .identifier s x⟩ ∈ r.function.body.occurrences :=
      Occurrence.mem_below_iff.2 ((Occurrence.mem_below_iff.1 ho).tail hinside)
    exact ⟨p.usage, mem_usages_iff.2 ⟨_, s, hbelow, by simp, rfl⟩, hwrite⟩

end Routine

/-! ## Compilations -/

namespace Compiler

/-- **The usages of a compiled routine** are one for every parameter, gathered at the first
parameter of a name from the occurrences of the name in the body. -/
theorem compile_args {c : Compiler} {source : RoutineSource} {q q' : PrefixSequence}
    {out : CompiledRoutine} (h : c.compile source q = (.ok out, q')) :
    ∃ f, (source.text >>= anchor) = .ok f ∧ out.args.length = f.params.length ∧
      let r : Routine := ⟨f, c.isGlobal⟩
      ∀ x ∈ r.parameterNames,
        let name := (CallName.argument (r.parameterNames.idxOf x)).text
          (PrefixSequence.prefixFor c.stem q.next)
        out.args[r.parameterNames.idxOf x]? =
          some (ArgumentUsage.recordAll { name } (r.usages x)) := by
  obtain ⟨f, w, w', hf, -, hw, hrewrite, hout⟩ := compile_ok h
  have hconsistent : w.Consistent ⟨f, c.isGlobal⟩ _ c.stem := Rewriter.ofAnchored?_consistent hw
  obtain ⟨-, rfl⟩ := Rewriter.rewrite_ok hconsistent hrewrite
  have hargs := congrArg CompiledRoutine.args hout
  refine ⟨f, hf, ?_, fun x hx => ?_⟩
  · rw [hargs, Rewriter.length_arguments_of_consistent (Rewriter.after_consistent hconsistent _)]
  · rw [hargs, Rewriter.getElem?_after_arguments hx,
      Rewriter.ofAnchored?_arguments hw (Routine.idxOf_lt_length_params hx)]
    rfl

/-- **A parameter is marked as written exactly if something assigns to its name itself.**  The mark
is found at the first parameter of that name. -/
theorem compile_isWritten_iff {c : Compiler} {source : RoutineSource} {q q' : PrefixSequence}
    {out : CompiledRoutine} (h : c.compile source q = (.ok out, q')) :
    ∃ f, (source.text >>= anchor) = .ok f ∧ out.args.length = f.params.length ∧
      ∀ x ∈ f.params.map Parameter.name,
        ∃ a, out.args[(f.params.map Parameter.name).idxOf x]? = some a ∧
          (a.isWritten = true ↔ ∃ o ∈ f.body.occurrences, o.Assigns x) := by
  obtain ⟨f, hf, hlength, hargs⟩ := compile_args h
  refine ⟨f, hf, hlength, fun x hx => ?_⟩
  refine ⟨_, hargs x hx, ?_⟩
  rw [← Routine.exists_write_iff ⟨f, c.isGlobal⟩ x, ArgumentUsage.recordAll_eq, Bool.false_or]

/-- The routine `(a,b)=>a=b` assigns to its first parameter only. -/
theorem compile_isWritten_assignment :
    let source : RoutineSource :=
      .value (.text (.ofChars ['(', 'a', ',', 'b', ')', '=', '>', 'a', '=', 'b']))
    ∃ out f, sample.compile source ⟨7⟩ = (.ok out, ⟨8⟩) ∧ (source.text >>= anchor) = .ok f ∧
      (∃ o ∈ f.body.occurrences, o.Assigns (.ofChars ['a'])) ∧
      ¬∃ o ∈ f.body.occurrences, o.Assigns (.ofChars ['b']) := by
  intro source
  have hsome : (sample.compile source ⟨7⟩).1.toOption.isSome = true := by decide +kernel
  obtain ⟨out, hout⟩ := Option.isSome_iff_exists.1 hsome
  have hcompile : sample.compile source ⟨7⟩ = (.ok out, ⟨8⟩) :=
    compile_eq_of_toOption hout (by decide +kernel)
  have hflags : (sample.compile source ⟨7⟩).1.toOption.map
      (fun out => out.args.map ArgumentUsage.isWritten) = some [true, false] := by decide +kernel
  rw [hout, Option.map_some, Option.some_inj] at hflags
  obtain ⟨f, hf, -, hargs⟩ := compile_isWritten_iff hcompile
  have hnames : (source.text >>= anchor).toOption.map
      (fun f => f.params.map Parameter.name) = some [.ofChars ['a'], .ofChars ['b']] := by
    decide +kernel
  have hparams : f.params.map Parameter.name = [.ofChars ['a'], .ofChars ['b']] := by
    simpa [hf, Except.toOption] using hnames
  rw [hparams] at hargs
  have hflag : ∀ {i : Nat} {a : ArgumentUsage}, out.args[i]? = some a →
      [true, false][i]? = some a.isWritten := by
    intro i a ha
    rw [← hflags, List.getElem?_map, ha, Option.map_some]
  obtain ⟨a, ha, hwritten⟩ := hargs (.ofChars ['a']) (by simp)
  obtain ⟨b, hb, hunwritten⟩ := hargs (.ofChars ['b']) (by simp)
  refine ⟨out, f, hcompile, hf, hwritten.1 (Option.some.inj (hflag ha)).symm, fun hassigns => ?_⟩
  exact absurd (hunwritten.2 hassigns) (by simpa using (Option.some.inj (hflag hb)).symm)

end Compiler

/-! ## Other ways to assign -/

namespace Node

/-- The names in front of `in` or `of` in the head of a loop. -/
def headNames : Node → List Text
  | declaration _ _ declarations => declarations.flatMap fun
    | declarator _ id _ => id.boundNames
    | _ => []
  | pattern => pattern.boundNames

/-- The names that a construct assigns to, by itself or through a pattern. -/
def assignedNames : Node → List Text
  | assignment _ _ left _ => left.boundNames
  | update _ _ _ argument => argument.boundNames
  | forIn _ left _ _ | forOf _ left _ _ => left.headNames
  | declarator _ id (some _) => id.boundNames
  | _ => []

end Node

/-- The routine `function(a,b,c,d,e,f,g,h){for(a in 0);for(b of 0);var
c=0;[d,...e]=0;({f,x:g=0,...h}=0)}` assigns to all its parameters, and none of them is marked as
written. -/
theorem Compiler.compile_unmarked_writes :
    let source :=
      Text.ofChars ['f', 'u', 'n', 'c', 't', 'i', 'o', 'n', '(', 'a', ',', 'b', ',', 'c',
      ',', 'd', ',', 'e', ',', 'f', ',', 'g', ',', 'h', ')', '\x7b', 'f', 'o', 'r', '(', 'a', ' ',
      'i', 'n', ' ', '0', ')', ';', 'f', 'o', 'r', '(', 'b', ' ', 'o', 'f', ' ', '0', ')', ';', 'v',
      'a', 'r', ' ', 'c', '=', '0', ';', '[', 'd', ',', '.', '.', '.', 'e', ']', '=', '0', ';', '(',
      '\x7b', 'f', ',', 'x', ':', 'g', '=', '0', ',', '.', '.', '.', 'h', '\x7d', '=', '0', ')',
      '\x7d']
    let c : Compiler := ⟨Config.default, Config.defaultStem, fun _ => false⟩
    (anchor source).toOption.map (fun f => f.params.all fun p =>
      f.body.occurrences.any fun o => p.name ∈ o.node.assignedNames) = some true ∧
    (c.compile (.value (.text source)) {}).1.toOption.map (fun out =>
      out.args.map ArgumentUsage.isWritten) = some (List.replicate 8 false) := by
  decide +kernel

end Elementwise
