import Elementwise.Proofs.Overlap
import Elementwise.Proofs.Window
import Elementwise.Proofs.WrittenParameter

/-!
# The names that a compiled routine lists

A kernel declares the names that a compiled routine lists, so these have to be the names that its
body contains.  Edits, usages and names are gathered in different places while the body is walked
over.  At every site they change together, though: where an edit writes a generated name, the name
is counted with a parameter or remembered as that of a local variable or of a property.

## What is here

* `Routine.records` — the edits of a body, each with the generated name that it writes.
* `Rewriter.count?_after`, `Rewriter.locals_after`, `Rewriter.properties_after` — what is gathered
  behind a walk, told by the variables of the sites.
* `uniqueNames_pairwise` — names are listed in the order in which they are first written.
* `CompiledRoutine.Lists` — agreement of the listed names with those written into a body.
* `Compiler.compile_lists` — a successful compilation lists the names that are in its body.
-/

set_option autoImplicit false
namespace Elementwise

/-! ## Generated names and edits -/

namespace Variable

/-- Whether a variable gets a generated name.  Only a global does not. -/
def isRenamed : Variable → Bool
  | ambient _ => false
  | _ => true

/-- Whether a variable is a free or a local one. -/
def isFree : Variable → Bool
  | free _ => true
  | _ => false

/-- Whether a variable is a property of `this`. -/
def isProperty : Variable → Bool
  | property _ => true
  | _ => false

end Variable

namespace Routine

/-- The name that is generated for a site, if there is one. -/
def generated? (r : Routine) (scope : Text) (s : Site) : Option Text :=
  ((r.variableAt? s).filter Variable.isRenamed).map (r.output scope)

/-- What is recorded for the sites of a body, in the order of the walk: the edits, each with the
generated name that it writes.  Those of strings write none. -/
def records (r : Routine) (scope : Text) : List (Edit × Option Text) :=
  r.sites.filterMap fun s => (r.edit? scope s).map fun e => (e, r.generated? scope s)

/-- The variables of the sites that get a generated name, in the order of the walk. -/
def renamed (r : Routine) : List Variable :=
  (r.sites.filterMap r.variableAt?).filter Variable.isRenamed

/-- The generated names written into a body, once for every edit that writes one, in the order of
the walk. -/
def writtenNames (r : Routine) (scope : Text) : List Text := (r.records scope).filterMap Prod.snd

variable {r : Routine} {scope : Text}

theorem mem_records_iff {e : Edit} {g? : Option Text} :
    (e, g?) ∈ r.records scope ↔
      ∃ s ∈ r.sites, r.edit? scope s = some e ∧ r.generated? scope s = g? := by
  simp only [records, List.mem_filterMap, Option.map_eq_some_iff, Prod.mk.injEq]
  refine exists_congr fun s => and_congr_right fun _ => ?_
  exact ⟨fun ⟨_, he, hee, hg⟩ => ⟨hee ▸ he, hg⟩, fun ⟨he, hg⟩ => ⟨e, he, rfl, hg⟩⟩

theorem map_fst_records : (r.records scope).map Prod.fst = r.replacements scope := by
  rw [records, List.map_filterMap, replacements]
  simp only [Option.map_map, Function.comp_def, Option.map_id']

/-- Where a name is generated, it is written: on its own, or behind the key of a shorthand
property. -/
theorem edit?_of_generated? {s : Site} {g : Text} (h : r.generated? scope s = some g) :
    ∃ key, r.edit? scope s = some ⟨s.span, Rewriter.variableText key g⟩ := by
  match s with
  | .variable span x _ key =>
    refine ⟨key, ?_⟩
    rw [generated?, variableAt?] at h
    rw [edit?]
    cases hresolve : r.resolve x <;> rw [hresolve] at h <;> cases h <;> rfl
  | .thisProperty span p =>
    cases h
    exact ⟨none, rfl⟩

/-- Where something is written but no name is generated, there is a string. -/
theorem replacement_of_generated?_eq_none {s : Site} {e : Edit} (he : r.edit? scope s = some e)
    (h : r.generated? scope s = none) : ∃ value, e.replacement = escapeString value := by
  match s with
  | .variable span x _ key =>
    rw [generated?, variableAt?] at h
    rw [edit?] at he
    cases hresolve : r.resolve x with
    | ambient y =>
      rw [hresolve] at he
      cases he
    | _ =>
      rw [hresolve] at h
      cases h
  | .thisProperty span p => cases h
  | .string span value =>
    cases he
    exact ⟨value, rfl⟩

/-- The names written are those generated for the sites. -/
theorem writtenNames_eq_filterMap :
    r.writtenNames scope = r.sites.filterMap (r.generated? scope) := by
  rw [writtenNames, records, List.filterMap_filterMap]
  refine List.filterMap_congr fun s _ => ?_
  cases h : r.generated? scope s with
  | none => cases r.edit? scope s <;> rfl
  | some g =>
    obtain ⟨key, hedit⟩ := edit?_of_generated? h
    rw [hedit]
    rfl

/-- The names written are those of the variables that are renamed. -/
theorem writtenNames_eq : r.writtenNames scope = r.renamed.map (r.output scope) := by
  rw [writtenNames_eq_filterMap, renamed, List.filter_filterMap, List.map_filterMap]
  rfl

/-- Only a declared parameter stands for one. -/
theorem mem_parameterNames_of_mem {x : Text}
    (h : .parameter x ∈ r.sites.filterMap r.variableAt?) : x ∈ r.parameterNames := by
  obtain ⟨s, -, hs⟩ := List.mem_filterMap.1 h
  match s with
  | .variable span y _ key =>
    have hresolve := Option.some.inj hs
    rw [resolve] at hresolve
    split at hresolve
    · next hy => exact Variable.parameter.inj hresolve ▸ hy
    · split at hresolve <;> cases hresolve
  | .thisProperty span p => cases hs

end Routine

/-! ## What is gathered -/

namespace Rewriter

variable {r : Routine} {scope stem : Text} {w : Rewriter}

theorem noted_locals (hw : w.Consistent r scope stem) (s : Site) :
    (w.noted r s).namer.locals =
      w.namer.locals ++ ((r.variableAt? s).filter Variable.isFree).toList.map (r.output scope) := by
  match s with
  | .variable span x _ key =>
    rw [noted, Routine.variableAt?]
    cases hresolve : r.resolve x with
    | free y =>
      rw [← hw.scope_eq]
      rfl
    | _ => exact (List.append_nil _).symm
  | .thisProperty .. | .string .. | .this .. | .withObject .. => exact (List.append_nil _).symm

theorem noted_properties (w : Rewriter) (s : Site) :
    (w.noted r s).namer.properties = w.namer.properties ++
      ((r.variableAt? s).filter Variable.isProperty).toList.map (r.output scope) := by
  match s with
  | .variable span x _ key =>
    rw [noted, Routine.variableAt?]
    cases hresolve : r.resolve x with
    | property p =>
      rw [Routine.resolve] at hresolve
      split at hresolve
      · cases hresolve
      · split at hresolve <;> cases hresolve
    | _ => exact (List.append_nil _).symm
  | .thisProperty span p => rfl
  | .string .. | .this .. | .withObject .. => exact (List.append_nil _).symm

/-- A list that grows at every site by the names of some variables there consists, behind a walk, of
the names of all these variables. -/
theorem gathered_after (gathered : Rewriter → List Text) {p : Variable → Bool}
    (hstep : ∀ {w : Rewriter}, w.Consistent r scope stem → ∀ s,
      gathered ((w.noted r s).recorded (r.edit? scope s)) =
        gathered w ++ ((r.variableAt? s).filter p).toList.map (r.output scope))
    (hw : w.Consistent r scope stem) (ss : List Site) :
    gathered (w.after r scope ss) =
      gathered w ++ ((ss.filterMap r.variableAt?).filter p).map (r.output scope) := by
  induction ss generalizing w with
  | nil => exact (List.append_nil _).symm
  | cons s ss ih =>
    have hnext : w.after r scope (s :: ss) =
        ((w.noted r s).recorded (r.edit? scope s)).after r scope ss := rfl
    rw [hnext, ih (recorded_consistent (noted_consistent hw s) _), hstep hw, List.append_assoc]
    cases hvariable : r.variableAt? s with
    | none => rw [List.filterMap_cons_none hvariable]; rfl
    | some v =>
      rw [List.filterMap_cons_some hvariable, List.filter_cons, Option.filter_some]
      split <;> rfl

/-- Free and local variables are remembered in the order of the walk. -/
theorem locals_after (hw : w.Consistent r scope stem) (ss : List Site) :
    (w.after r scope ss).namer.locals = w.namer.locals ++
      ((ss.filterMap r.variableAt?).filter Variable.isFree).map (r.output scope) :=
  gathered_after (fun w => w.namer.locals) noted_locals hw ss

/-- Properties are remembered in the order of the walk. -/
theorem properties_after (hw : w.Consistent r scope stem) (ss : List Site) :
    (w.after r scope ss).namer.properties = w.namer.properties ++
      ((ss.filterMap r.variableAt?).filter Variable.isProperty).map (r.output scope) :=
  gathered_after (fun w => w.namer.properties) (fun _ => noted_properties _) hw ss

/-- The number of occurrences counted with a parameter so far. -/
def count? (w : Rewriter) (i : Nat) : Option Nat := (w.arguments[i]?).map ArgumentUsage.count

/-- A site adds to the count of a parameter if its name is generated there. -/
theorem count?_noted (hscope : ∀ (k : CallName) p, k.text scope ≠ Namer.propertyName p)
    (w : Rewriter) (s : Site) (i : Nat) :
    (w.noted r s).count? i =
      (w.count? i).map
        (· + (r.generated? scope s).toList.count ((CallName.argument i).text scope)) := by
  have hsame {t : Text} (h : t ≠ (CallName.argument i).text scope) :
      w.count? i = (w.count? i).map (· + [t].count ((CallName.argument i).text scope)) := by
    rw [List.count_singleton, beq_eq_false_iff_ne.2 h]
    exact Option.map_id'.symm
  have hargument := CallName.text_injective scope
  cases s with
  | «variable» span x u key =>
    rw [noted, Routine.generated?, Routine.variableAt?]
    cases hresolve : r.resolve x with
    | parameter y =>
      by_cases hi : r.parameterNames.idxOf y = i
      · subst hi
        have hone (t : Text) : [t].count t = 1 := List.count_singleton_self
        simp only [count?, List.getElem?_modify_eq, Option.map_eq_map, Option.map_map]
        refine congrArg (Option.map · _) (funext fun a => ?_)
        exact congrArg (a.count + ·) (hone _).symm
      · have hcount : (w.arguments.modify (r.parameterNames.idxOf y) fun a => a.record u)[i]? =
            w.arguments[i]? := List.getElem?_modify_ne _ _ hi
        simp only [count?, hcount]
        exact hsame fun h => hi (CallName.argument.inj (hargument h))
    | free y =>
      have hfree : CallName.free y ≠ .argument i := by simp
      exact hsame fun h => hfree (hargument h)
    | ambient y => exact Option.map_id'.symm
    | property p => exact hsame fun h => hscope _ p h.symm
  | thisProperty span p => exact hsame fun h => hscope _ p h.symm
  | string | this | withObject => exact Option.map_id'.symm

/-- **Behind a walk the count of a parameter has grown by the number of edits that write its
name.** -/
theorem count?_after (hscope : ∀ (k : CallName) p, k.text scope ≠ Namer.propertyName p)
    (w : Rewriter) (ss : List Site) (i : Nat) :
    (w.after r scope ss).count? i =
      (w.count? i).map
        (· + (ss.filterMap (r.generated? scope)).count ((CallName.argument i).text scope)) := by
  induction ss generalizing w with
  | nil => exact Option.map_id'.symm
  | cons s ss ih =>
    have hnext : w.after r scope (s :: ss) =
        ((w.noted r s).recorded (r.edit? scope s)).after r scope ss := rfl
    have hnoted : ((w.noted r s).recorded (r.edit? scope s)).count? i = _ :=
      count?_noted hscope w s i
    rw [hnext, ih, hnoted, Option.map_map]
    refine congrArg (Option.map · _) (funext fun n => ?_)
    cases hsite : r.generated? scope s with
    | none => rw [List.filterMap_cons_none hsite]; rfl
    | some g =>
      rw [List.filterMap_cons_some hsite, ← List.singleton_append, List.count_append]
      exact Nat.add_assoc _ _ _

end Rewriter

/-! ## The order of names -/

/-- **Names are listed in the order in which they are first written**, among others as well, if none
of the others is called the same. -/
theorem uniqueNames_pairwise {α : Type} {name : α → Text} {p q : α → Bool}
    (hpq : ∀ v, p v = true → q v = true)
    (hsame : ∀ u v, q u = true → p v = true → name u = name v → p u = true) (vs : List α) :
    (uniqueNames ((vs.filter p).map name)).Pairwise fun a b =>
      ((vs.filter q).map name).idxOf a < ((vs.filter q).map name).idxOf b := by
  induction vs using List.reverseRecOn with
  | nil => exact .nil
  | append_singleton vs v ih =>
    have hmem {a : Text} (ha : a ∈ uniqueNames ((vs.filter p).map name)) :
        a ∈ (vs.filter q).map name := by
      obtain ⟨u, hu, rfl⟩ := List.mem_map.1 (mem_uniqueNames.1 ha)
      obtain ⟨huvs, hup⟩ := List.mem_filter.1 hu
      exact List.mem_map_of_mem (List.mem_filter.2 ⟨huvs, hpq u hup⟩)
    -- what has been listed stands where it stood
    have hold : (uniqueNames ((vs.filter p).map name)).Pairwise fun a b =>
        (((vs ++ [v]).filter q).map name).idxOf a < (((vs ++ [v]).filter q).map name).idxOf b := by
      refine ih.imp_of_mem fun ha hb hab => ?_
      rw [List.filter_append, List.map_append, List.idxOf_append_of_mem (hmem ha),
        List.idxOf_append_of_mem (hmem hb)]
      exact hab
    by_cases hv : p v = true
    · have hselected : ((vs ++ [v]).filter p).map name = (vs.filter p).map name ++ [name v] := by
        simp [hv]
      rw [hselected, uniqueNames_concat]
      split
      · exact hold
      · next hnew =>
        refine List.pairwise_append.2 ⟨hold, List.pairwise_singleton _ _, fun a ha b hb => ?_⟩
        obtain rfl := List.mem_singleton.1 hb
        have hfirst : name v ∉ (vs.filter q).map name := by
          intro h
          obtain ⟨u, hu, huv⟩ := List.mem_map.1 h
          obtain ⟨huvs, huq⟩ := List.mem_filter.1 hu
          refine hnew (mem_uniqueNames.2 (List.mem_map.2 ⟨u, ?_, huv⟩))
          exact List.mem_filter.2 ⟨huvs, hsame u v huq hv huv⟩
        rw [List.filter_append, List.map_append, List.idxOf_append_of_mem (hmem ha),
          List.idxOf_append_of_notMem hfirst]
        exact Nat.lt_add_right _ (List.idxOf_lt_length_of_mem (hmem ha))
    · have hselected : (vs ++ [v]).filter p = vs.filter p := by simp [hv]
      rwa [hselected]

namespace Variable

variable {r : Routine} {scope : Text} {u v : Variable}

theorem isRenamed_of_isFree (h : v.isFree = true) : v.isRenamed = true := by
  cases v <;> first | rfl | cases h

theorem isRenamed_of_isProperty (h : v.isProperty = true) : v.isRenamed = true := by
  cases v <;> first | rfl | cases h

/-- What is called like a free variable is one. -/
theorem isFree_of_output_eq (hscope : ∀ (k : CallName) p, k.text scope ≠ Namer.propertyName p)
    (hu : u.isRenamed = true) (hv : v.isFree = true) (h : r.output scope u = r.output scope v) :
    u.isFree = true := by
  cases v with
  | free y =>
    cases u with
    | parameter x =>
      have hcall : CallName.argument _ = .free y := CallName.text_injective scope h
      cases hcall
    | free x => rfl
    | ambient x => cases hu
    | property p => exact absurd h.symm (hscope (.free y) p)
  | _ => cases hv

/-- What is called like a property is one. -/
theorem isProperty_of_output_eq
    (hscope : ∀ (k : CallName) p, k.text scope ≠ Namer.propertyName p)
    (hu : u.isRenamed = true) (hv : v.isProperty = true)
    (h : r.output scope u = r.output scope v) : u.isProperty = true := by
  cases v with
  | property p =>
    cases u with
    | parameter x => exact absurd h (hscope (.argument _) p)
    | free x => exact absurd h (hscope (.free x) p)
    | ambient x => cases hu
    | property q => rfl
  | _ => cases hv

end Variable

/-! ## The lists agree with the body -/

/-- A compiled routine lists the names written into its body, which are given in the order of the
walk and as often as they are written: they are those of the parameters that occur, of the local
variables and of the properties; a parameter is counted as often as its name is written; and the
other two lists have no repetitions and are in the order in which the names are first written. -/
structure CompiledRoutine.Lists (out : CompiledRoutine) (names : List Text) : Prop where
  mem_iff : ∀ g, g ∈ names ↔
    (∃ a ∈ out.args, 0 < a.count ∧ a.name = g) ∨ g ∈ out.localVars ∨ g ∈ out.thisVars
  count_eq : ∀ a ∈ out.args, names.count a.name = a.count
  localVars_nodup : out.localVars.Nodup
  localVars_ordered : out.localVars.Pairwise fun a b => names.idxOf a < names.idxOf b
  thisVars_nodup : out.thisVars.Nodup
  thisVars_ordered : out.thisVars.Pairwise fun a b => names.idxOf a < names.idxOf b

namespace Rewriter

variable {r : Routine} {scope stem : Text} {w : Rewriter}

/-- Before the walk no name is remembered. -/
theorem ofAnchored?_namer {f : AnchoredFunction} {namer : Namer} (h : ofAnchored? f namer = .ok w) :
    w.namer = namer := by
  rw [ofAnchored?] at h
  split at h
  · cases h
  · obtain rfl := Except.ok.inj h
    rfl

/-- Behind a walk over a body, what is counted with a parameter are the edits that write its
name. -/
theorem count_after_sites (hscope : ∀ (k : CallName) p, k.text scope ≠ Namer.propertyName p)
    (hw : ofAnchored? r.function { scope, stem } = .ok w) {i : Nat} {a : ArgumentUsage}
    (ha : (w.after r scope r.sites).arguments[i]? = some a) :
    a.name = (CallName.argument i).text scope ∧
      (r.writtenNames scope).count a.name = a.count := by
  have hconsistent : w.Consistent r scope stem := ofAnchored?_consistent hw
  have hafter := after_consistent hconsistent r.sites
  have hi : i < r.function.params.length := by
    rw [← length_arguments_of_consistent hafter]
    exact (List.getElem?_eq_some_iff.1 ha).1
  have hname := name_of_consistent hafter hi
  rw [ha, Option.map_some, Option.some_inj] at hname
  have hcount := count?_after (r := r) hscope w r.sites i
  rw [count?, count?, ha, ofAnchored?_arguments hw hi] at hcount
  refine ⟨hname, ?_⟩
  rw [hname, Routine.writtenNames_eq_filterMap]
  exact ((Option.some.inj hcount).trans (Nat.zero_add _)).symm

/-- **Behind a walk over a body the names listed are those written into it.** -/
theorem after_lists (hscope : ∀ (k : CallName) p, k.text scope ≠ Namer.propertyName p)
    (hw : ofAnchored? r.function { scope, stem } = .ok w) (body : Text) :
    let w' := w.after r scope r.sites
    CompiledRoutine.Lists ⟨body, w'.arguments, w'.namer.propertyNames, w'.namer.localNames⟩
      (r.writtenNames scope) := by
  intro w'
  have hconsistent : w.Consistent r scope stem := ofAnchored?_consistent hw
  have hnamer := ofAnchored?_namer hw
  have hlocals : w'.namer.locals =
      ((r.sites.filterMap r.variableAt?).filter Variable.isFree).map (r.output scope) := by
    rw [locals_after hconsistent, hnamer, List.nil_append]
  have hproperties : w'.namer.properties =
      ((r.sites.filterMap r.variableAt?).filter Variable.isProperty).map (r.output scope) := by
    rw [properties_after hconsistent, hnamer, List.nil_append]
  have hnames : r.writtenNames scope = r.renamed.map (r.output scope) := Routine.writtenNames_eq
  have hcount : ∀ a ∈ w'.arguments, (r.writtenNames scope).count a.name = a.count := by
    intro a ha
    obtain ⟨i, hi⟩ := List.mem_iff_getElem?.1 ha
    exact (count_after_sites hscope hw hi).2
  refine ⟨fun g => ⟨fun hg => ?_, ?_⟩, hcount, nodup_uniqueNames _, ?_, nodup_uniqueNames _, ?_⟩
  · -- every name written is that of a variable, and its kind says where it is listed
    obtain ⟨v, hv, rfl⟩ := List.mem_map.1 (hnames ▸ hg)
    obtain ⟨hoccurs, hrenamed⟩ := List.mem_filter.1 hv
    cases v with
    | parameter x =>
      have hi := Routine.idxOf_lt_length_params (Routine.mem_parameterNames_of_mem hoccurs)
      rw [← length_arguments_of_consistent (after_consistent hconsistent r.sites)] at hi
      obtain ⟨hname, hcounted⟩ := count_after_sites hscope hw (List.getElem?_eq_getElem hi)
      refine .inl ⟨_, List.getElem_mem hi, ?_, hname⟩
      rw [← hcounted, hname]
      exact List.count_pos_iff.2 hg
    | free x =>
      refine .inr (.inl (mem_uniqueNames.2 ?_))
      rw [hlocals]
      exact List.mem_map_of_mem (List.mem_filter.2 ⟨hoccurs, rfl⟩)
    | property p =>
      refine .inr (.inr (mem_uniqueNames.2 ?_))
      rw [hproperties]
      exact List.mem_map_of_mem (List.mem_filter.2 ⟨hoccurs, rfl⟩)
    | ambient x => cases hrenamed
  · -- a name that is listed is that of a variable that gets a name
    have hselected {p : Variable → Bool} (hp : ∀ v, p v = true → v.isRenamed = true)
        (hg : g ∈ ((r.sites.filterMap r.variableAt?).filter p).map (r.output scope)) :
        g ∈ r.writtenNames scope := by
      obtain ⟨v, hv, rfl⟩ := List.mem_map.1 hg
      obtain ⟨hoccurs, hvp⟩ := List.mem_filter.1 hv
      rw [hnames]
      exact List.mem_map_of_mem (List.mem_filter.2 ⟨hoccurs, hp v hvp⟩)
    rintro (⟨a, ha, hpos, rfl⟩ | hg | hg)
    · exact List.count_pos_iff.1 (by rwa [hcount a ha])
    · exact hselected (fun _ => Variable.isRenamed_of_isFree) (hlocals ▸ mem_uniqueNames.1 hg)
    · exact hselected (fun _ => Variable.isRenamed_of_isProperty)
        (hproperties ▸ mem_uniqueNames.1 hg)
  · show (uniqueNames _).Pairwise _
    rw [hnames, hlocals]
    exact uniqueNames_pairwise (fun v => Variable.isRenamed_of_isFree)
      (fun u v => Variable.isFree_of_output_eq hscope) _
  · show (uniqueNames _).Pairwise _
    rw [hnames, hproperties]
    exact uniqueNames_pairwise (fun v => Variable.isRenamed_of_isProperty)
      (fun u v => Variable.isProperty_of_output_eq hscope) _

/-- Edits that lie in the body are applied in the order of their places, each behind the one
before. -/
theorem bodyText_eq_sort {body : Text}
    (hwithin : ∀ e ∈ w.buffer.edits,
      e.span.Within r.function.bodySpan.start r.function.bodySpan.stop)
    (h : bodyText r w = .ok body) :
    ((Edit.sort w.buffer.edits).Pairwise fun a b => a.span.stop ≤ b.span.start) ∧
      body =
        let flat := w.buffer.text.substitute r.function.bodySpan.start r.function.bodySpan.stop
          (Edit.sort w.buffer.edits)
        if r.function.isExpressionBody then
          .ofChars ['{', 'r', 'e', 't', 'u', 'r', 'n', ' '] ++ flat ++ .ofChars [';', '}']
        else flat := by
  have hall : (w.buffer.edits.filter fun e =>
      e.Concerns r.function.bodySpan.start r.function.bodySpan.stop) = w.buffer.edits :=
    List.filter_eq_self.2 fun e he =>
      decide_eq_true (Edit.isIn_iff.1 (Edit.isIn_of_within (hwithin e he)))
  have hperm := Edit.sort_perm w.buffer.edits
  have hes : Edit.Arranges (Edit.sort w.buffer.edits) (w.buffer.edits.filter fun e =>
      e.Concerns r.function.bodySpan.start r.function.bodySpan.stop) := by
    rw [hall]
    exact Edit.sort_arranges _
  rw [bodyText] at h
  split at h
  · cases h
  · next flat happly =>
    obtain ⟨hclash, rfl⟩ :=
      (EditBuffer.apply_eq_ok_iff (fun e he => (hwithin e he).2.1) hes).1 happly
    have hforward : ∀ e ∈ Edit.sort w.buffer.edits, e.span.start ≤ e.span.stop := fun e he =>
      (hwithin e (hperm.mem_iff.1 he)).2.1
    exact ⟨((EditBuffer.not_clash_iff hforward).1 hclash).2, (Except.ok.inj h).symm⟩

/-- **All edits of a body are found in its text**, one behind the other, if they lie in the body. -/
theorem bodyText_eq_ok {body : Text}
    (hwithin : ∀ e ∈ w.buffer.edits,
      e.span.Within r.function.bodySpan.start r.function.bodySpan.stop)
    (h : bodyText r w = .ok body) :
    ∃ es : List Edit, es.Perm w.buffer.edits ∧
      (es.Pairwise fun a b => a.span.stop ≤ b.span.start) ∧
      body =
        let flat :=
          w.buffer.text.substitute r.function.bodySpan.start r.function.bodySpan.stop es
        if r.function.isExpressionBody then
          .ofChars ['{', 'r', 'e', 't', 'u', 'r', 'n', ' '] ++ flat ++ .ofChars [';', '}']
        else flat :=
  ⟨_, Edit.sort_perm _, bodyText_eq_sort hwithin h⟩

theorem bodyText_of_rewrite {w' : Rewriter} {body : Text} (h : rewrite r w = (.ok body, w')) :
    bodyText r w' = .ok body := by
  rw [rewrite] at h
  split at h
  · cases (Prod.mk.inj h).1
  · obtain ⟨hbody, rfl⟩ := Prod.mk.inj h
    exact hbody

end Rewriter

namespace Compiler

/-- A function that was found was found in some text. -/
theorem exists_anchor_eq_ok {source : RoutineSource} {f : AnchoredFunction}
    (h : (source.text >>= anchor) = .ok f) : ∃ t, anchor t = .ok f := by
  cases ht : source.text with
  | error e =>
    rw [ht] at h
    cases h
  | ok t =>
    rw [ht] at h
    exact ⟨t, h⟩

/-- **A successful compilation lists the names that are in its body.**  Every edit recorded writes
either one generated name or a string, and the body contains all of them; the names are those of the
parameters that occur, of the local variables and of the properties. -/
theorem compile_lists {c : Compiler} {source : RoutineSource} {q q' : PrefixSequence}
    {out : CompiledRoutine} (h : c.compile source q = (.ok out, q')) :
    ∃ f w w' es, (source.text >>= anchor) = .ok f ∧
      Rewriter.ofAnchored? f ⟨PrefixSequence.prefixFor c.stem q.next, c.stem, [], []⟩ = .ok w ∧
      Rewriter.rewrite ⟨f, c.isGlobal⟩ w = (.ok out.body, w') ∧
      let r : Routine := ⟨f, c.isGlobal⟩
      let scope := PrefixSequence.prefixFor c.stem q.next
      w'.buffer.edits = (r.records scope).map Prod.fst ∧
      (∀ e g, (e, some g) ∈ r.records scope →
        ∃ key, e.replacement = Rewriter.variableText key g) ∧
      (∀ e, (e, none) ∈ r.records scope → ∃ value, e.replacement = escapeString value) ∧
      es.Perm w'.buffer.edits ∧
      (∀ e ∈ es, e.span.Within f.bodySpan.start f.bodySpan.stop) ∧
      (es.Pairwise fun a b => a.span.stop ≤ b.span.start) ∧
      out.body = (
        let flat := f.text.substitute f.bodySpan.start f.bodySpan.stop es
        if f.isExpressionBody then
          .ofChars ['{', 'r', 'e', 't', 'u', 'r', 'n', ' '] ++ flat ++ .ofChars [';', '}']
        else flat) ∧
      out.Lists (r.writtenNames scope) := by
  obtain ⟨f, w, w', hf, -, hw, hrewrite, hout⟩ := compile_ok h
  have hconsistent : w.Consistent ⟨f, c.isGlobal⟩ _ c.stem := Rewriter.ofAnchored?_consistent hw
  obtain ⟨-, hw'⟩ := Rewriter.rewrite_ok hconsistent hrewrite
  have hedits : w'.buffer.edits = Routine.replacements ⟨f, c.isGlobal⟩
      (PrefixSequence.prefixFor c.stem q.next) := by
    rw [hw', Rewriter.after_edits, Rewriter.ofAnchored?_edits hw, List.nil_append,
      Routine.replacements]
  have htext : w'.buffer.text = f.text := by
    rw [hw', (Rewriter.after_consistent hconsistent _).text_eq]
  have hwithin : ∀ e ∈ w'.buffer.edits, e.span.Within f.bodySpan.start f.bodySpan.stop := by
    obtain ⟨t, hanchor⟩ := exists_anchor_eq_ok hf
    rw [hedits]
    exact (Routine.replacements_fit _ (anchor_placed hanchor).2).1
  obtain ⟨es, hperm, hbehind, hbody⟩ :=
    Rewriter.bodyText_eq_ok hwithin (Rewriter.bodyText_of_rewrite hrewrite)
  rw [htext] at hbody
  refine ⟨f, w, w', es, hf, hw, hrewrite, hedits.trans Routine.map_fst_records.symm, ?_, ?_, hperm,
    fun e he => hwithin e (hperm.mem_iff.1 he), hbehind, hbody, ?_⟩
  · intro e g heg
    obtain ⟨s, -, he, hg⟩ := Routine.mem_records_iff.1 heg
    obtain ⟨key, hkey⟩ := Routine.edit?_of_generated? hg
    obtain rfl := Option.some.inj (he.symm.trans hkey)
    exact ⟨key, rfl⟩
  · intro e heg
    obtain ⟨s, -, he, hg⟩ := Routine.mem_records_iff.1 heg
    exact Routine.replacement_of_generated?_eq_none he hg
  · rw [hout, hw']
    exact Rewriter.after_lists (CallName.text_ne_propertyName c.stem q.next) hw out.body

/-- The routine `x=>{t={x};this.p=t+s}` writes the name of its parameter behind a key, and uses `t`
before `s`. -/
theorem compile_lists_shorthand :
    let source : RoutineSource := .value (.text (.ofChars ['x', '=', '>', '\x7b', 't', '=', '\x7b',
      'x', '\x7d', ';', 't', 'h', 'i', 's', '.', 'p', '=', 't', '+', 's', '\x7d']))
    ∃ out f, sample.compile source ⟨7⟩ = (.ok out, ⟨8⟩) ∧ (source.text >>= anchor) = .ok f ∧
      out.localVars = [.ofChars ['k', '_', '7', '_', 't'], .ofChars ['k', '_', '7', '_', 's']] ∧
      out.Lists (Routine.writtenNames ⟨f, sample.isGlobal⟩ (.ofChars ['k', '_', '7', '_'])) := by
  intro source
  have hsome : (sample.compile source ⟨7⟩).1.toOption.isSome = true := by decide +kernel
  obtain ⟨out, hout⟩ := Option.isSome_iff_exists.1 hsome
  have hcompile : sample.compile source ⟨7⟩ = (.ok out, ⟨8⟩) :=
    compile_eq_of_toOption hout (by decide +kernel)
  have hlocals : (sample.compile source ⟨7⟩).1.toOption.map CompiledRoutine.localVars =
      some [.ofChars ['k', '_', '7', '_', 't'], .ofChars ['k', '_', '7', '_', 's']] := by
    decide +kernel
  rw [hout] at hlocals
  obtain ⟨f, -, -, -, hf, -, -, -, -, -, -, -, -, -, hlists⟩ := compile_lists hcompile
  exact ⟨out, f, hcompile, hf, Option.some.inj hlocals, hlists⟩

end Compiler
end Elementwise
