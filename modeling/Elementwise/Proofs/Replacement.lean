import Elementwise.Rewrite
import Elementwise.Proofs.GeneratedName
import Elementwise.Proofs.Occurrence
import Elementwise.Proofs.Splice

/-!
# What flattening replaces

The rewriter treats the sites of a body one after another and carries its edits, its names and the
usages of the parameters along.  What becomes of one site depends on none of these: it depends on
the routine and on the two texts that generated names begin with.  This module says so once for a
single site (`Rewriter.visit_eq`) and once for a whole walk (`Rewriter.visitAll_eq_ok_iff`).

## What is here

* `Variable` and `Routine.output` — what a name stands for, and the name it gets.
* `Routine.edit?`, `Routine.rejection?` — what replaces a site, and why a site is refused.
* `Rewriter.Consistent` — what holds of a rewriter at any time.
* `Rewriter.visitAll_sites` — walking over a body treats the sites of its occurrences.
-/

set_option autoImplicit false
namespace Elementwise

/-! ## Variables -/

/-- A variable of a body, by its kind: a parameter, a free or local variable, an ambient global, or
a property of `this`. -/
inductive Variable where
  | parameter (name : Text)
  | free (name : Text)
  | ambient (name : Text)
  | property (name : Text)
deriving DecidableEq

namespace Routine

/-- The names of the parameters. -/
def parameterNames (r : Routine) : List Text := r.function.params.map Parameter.name

/-- What a name in the place of a variable stands for. -/
def resolve (r : Routine) (name : Text) : Variable :=
  if name ∈ r.parameterNames then .parameter name
  else if r.isGlobal name then .ambient name
  else .free name

/-- The name that a variable gets: a parameter is numbered by the first position of its name, and a
global stays. -/
def output (r : Routine) (scope : Text) : Variable → Text
  | .parameter x => (CallName.argument (r.parameterNames.idxOf x)).text scope
  | .free x => (CallName.free x).text scope
  | .ambient x => x
  | .property p => Namer.propertyName p

/-- What takes the place of a site, if anything does. -/
def edit? (r : Routine) (scope : Text) : Site → Option Edit
  | .variable span x _ key =>
    match r.resolve x with
    | .ambient _ => none
    | v => some ⟨span, Rewriter.variableText key (r.output scope v)⟩
  | .thisProperty span p => some ⟨span, r.output scope (.property p)⟩
  | .string span value => some ⟨span, escapeString value⟩
  | .this .. | .withObject _ => none

/-- Why a site makes a routine be rejected, if it does: a variable called `eval`, a global that
looks like a generated name for the stem, `this` on its own, or a `with` statement. -/
def rejection? (r : Routine) (stem : Text) : Site → Option Failure
  | .variable span x _ _ =>
    if x = Word.eval then some (.rejected .eval span)
    else
      match r.resolve x with
      | .ambient x =>
        if (Namer.mk [] stem [] []).looksSynthetic x then some (.rejected (.syntheticName x) span)
        else none
      | _ => none
  | .this span inMember => some (.rejected (if inMember then .computedThis else .bareThis) span)
  | .withObject span => some (.rejected .withObject span)
  | .thisProperty .. | .string .. => none

/-- A name in the place of a variable is never a property. -/
theorem resolve_ne_property (r : Routine) (x p : Text) : r.resolve x ≠ .property p := by
  rw [resolve]
  split
  · simp
  · split <;> simp

/-- What is edited at a site is the part of the text there. -/
theorem span_of_edit? {r : Routine} {scope : Text} {s : Site} {e : Edit}
    (h : r.edit? scope s = some e) : e.span = s.span := by
  match s with
  | .variable .. =>
    rw [edit?] at h
    split at h
    · cases h
    · obtain rfl := Option.some.inj h
      rfl
  | .thisProperty .. | .string .. =>
    obtain rfl := Option.some.inj h
    rfl

theorem argumentIndex?_eq (r : Routine) (x : Text) :
    r.argumentIndex? x =
      if x ∈ r.parameterNames then some (r.parameterNames.idxOf x) else none := by
  rw [argumentIndex?, parameterNames]
  induction r.function.params with
  | nil => rfl
  | cons p ps ih =>
    rw [List.findIdx?_cons, ih, List.map_cons]
    by_cases h : p.name = x
    · simp [h]
    · have h' : x ≠ p.name := fun hx => h hx.symm
      by_cases hx : x ∈ ps.map Parameter.name <;> simp [h, h', hx, List.idxOf_cons_ne _ h]

theorem idxOf_lt_length_params {r : Routine} {x : Text} (h : x ∈ r.parameterNames) :
    r.parameterNames.idxOf x < r.function.params.length := by
  simpa [parameterNames] using List.idxOf_lt_length_of_mem h

end Routine

/-! ## One site -/

namespace Rewriter

/-- What holds of a rewriter at any time: its text, its prefix and its stem are those it was made
with, parameters are called by their positions, and the names remembered are names of free variables
and of properties. -/
structure Consistent (r : Routine) (scope stem : Text) (w : Rewriter) : Prop where
  text_eq : w.buffer.text = r.function.text
  scope_eq : w.namer.scope = scope
  stem_eq : w.namer.stem = stem
  names : w.arguments.map ArgumentUsage.name =
    (List.range r.function.params.length).map fun i => (CallName.argument i).text scope
  locals : ∀ t ∈ w.namer.locals, ∃ x, t = (CallName.free x).text scope
  properties : ∀ t ∈ w.namer.properties, ∃ p, t = Namer.propertyName p

/-- Takes note of the variable at a site. -/
def noted (r : Routine) (w : Rewriter) : Site → Rewriter
  | .variable _ x usage _ =>
    match r.resolve x with
    | .parameter x =>
      { w with arguments := w.arguments.modify (r.parameterNames.idxOf x) fun a => a.record usage }
    | .free x => { w with namer := (w.namer.useLocal x).2 }
    | _ => w
  | .thisProperty _ p => { w with namer := (w.namer.useProperty p).2 }
  | _ => w

/-- A rewriter with one more edit, if there is one. -/
def recorded (w : Rewriter) (e? : Option Edit) : Rewriter :=
  { w with buffer := { w.buffer with edits := w.buffer.edits ++ e?.toList } }

/-- Records an edit, which must lie inside the text. -/
def record (w : Rewriter) : Option Edit → Except (Failure × Rewriter) Rewriter
  | none => .ok w
  | some e =>
    match w.replace e.span e.replacement with
    | .ok w => .ok w
    | .error failure => .error (failure, w)

theorem ofAnchored?_consistent {r : Routine} {scope stem : Text} {w : Rewriter}
    (h : ofAnchored? r.function { scope, stem } = .ok w) : w.Consistent r scope stem := by
  rw [ofAnchored?] at h
  split at h
  · cases h
  · obtain rfl := Except.ok.inj h
    exact ⟨rfl, rfl, rfl, by rw [List.map_map]; rfl, by simp, by simp⟩

theorem name_of_consistent {r : Routine} {scope stem : Text} {w : Rewriter}
    (hw : w.Consistent r scope stem) {i : Nat} (hi : i < r.function.params.length) :
    (w.arguments[i]?).map ArgumentUsage.name = some ((CallName.argument i).text scope) := by
  rw [← List.getElem?_map, hw.names, List.getElem?_map, List.getElem?_range hi]
  rfl

theorem looksSynthetic_of_consistent {r : Routine} {scope stem : Text} {w : Rewriter}
    (hw : w.Consistent r scope stem) (x : Text) :
    w.namer.looksSynthetic x = (Namer.mk [] stem [] []).looksSynthetic x := by
  rw [Namer.looksSynthetic, Namer.looksSynthetic, hw.stem_eq]

/-- **What happens at one site**: it is refused, or it is noted and its edit is recorded. -/
theorem visit_eq {r : Routine} {scope stem : Text} {w : Rewriter} (hw : w.Consistent r scope stem)
    (s : Site) :
    visit r w s =
      match r.rejection? stem s with
      | some e => .error (e, w)
      | none => (w.noted r s).record (r.edit? scope s) := by
  match s with
  | .variable span x usage key =>
    rw [visit, rename, Routine.rejection?, Routine.edit?, noted, r.argumentIndex?_eq,
      looksSynthetic_of_consistent hw]
    by_cases heval : x = Word.eval
    · simp [heval]
    · by_cases hparam : x ∈ r.parameterNames
      · have hname := name_of_consistent hw (Routine.idxOf_lt_length_params hparam)
        simp only [heval, hparam, Routine.resolve, hname, Routine.output, if_true, if_false]
        rfl
      · by_cases hglobal : r.isGlobal x = true
        · by_cases hsynthetic : (Namer.mk [] stem [] []).looksSynthetic x = true <;>
            simp [heval, hparam, hglobal, hsynthetic, Routine.resolve, record]
        · have hlocal : (w.namer.useLocal x).1 = (CallName.free x).text scope := by
            rw [← hw.scope_eq]
            rfl
          simp only [heval, hparam, hglobal, Routine.resolve, hlocal, Routine.output, if_false]
          rfl
  | .thisProperty .. => rfl
  | .string .. => rfl
  | .this .. => rfl
  | .withObject .. => rfl

/-- Recording an edit looks at its place only. -/
theorem record_some (w : Rewriter) (e : Edit) :
    w.record (some e) =
      if e.span.Within 0 w.buffer.text.length then .ok (w.recorded (some e))
      else .error (.edit (.outside e.span.start e.span.stop w.buffer.text.length), w) := by
  rw [record, replace, EditBuffer.replace]
  by_cases h : e.span.Within 0 w.buffer.text.length
  · have h' : (0 : Int) ≤ e.span.start ∧ (e.span.start : Int) ≤ e.span.stop ∧
        (e.span.stop : Int) ≤ w.buffer.text.length := by
      obtain ⟨h₁, h₂, h₃⟩ := h
      omega
    rw [if_pos h, if_pos h']
    rfl
  · have h' : ¬((0 : Int) ≤ e.span.start ∧ (e.span.start : Int) ≤ e.span.stop ∧
        (e.span.stop : Int) ≤ w.buffer.text.length) := by
      rw [Span.Within] at h
      omega
    rw [if_neg h, if_neg h']

/-- An edit is recorded exactly if it lies inside the text. -/
theorem record_eq_ok_iff {w w' : Rewriter} {e? : Option Edit} :
    w.record e? = .ok w' ↔
      (∀ e ∈ e?, e.span.Within 0 w.buffer.text.length) ∧ w' = w.recorded e? := by
  cases e? with
  | none =>
    have hnone : w.recorded none = w := by simp [recorded]
    simp [record, hnone, eq_comm]
  | some e =>
    rw [record_some]
    by_cases h : e.span.Within 0 w.buffer.text.length <;> simp [h, eq_comm]

theorem recorded_consistent {r : Routine} {scope stem : Text} {w : Rewriter}
    (hw : w.Consistent r scope stem) (e? : Option Edit) :
    (w.recorded e?).Consistent r scope stem :=
  ⟨hw.text_eq, hw.scope_eq, hw.stem_eq, hw.names, hw.locals, hw.properties⟩

/-- Counting an occurrence leaves the names of the parameters as they are. -/
theorem map_name_modify_record (arguments : List ArgumentUsage) (i : Nat) (u : Usage) :
    (arguments.modify i fun a => a.record u).map ArgumentUsage.name =
      arguments.map ArgumentUsage.name := by
  refine List.ext_getElem? fun j => ?_
  rw [List.getElem?_map, List.getElem?_map, List.getElem?_modify]
  cases arguments[j]? with
  | none => rfl
  | some a => by_cases h : i = j <;> simp [h, ArgumentUsage.record]

theorem noted_consistent {r : Routine} {scope stem : Text} {w : Rewriter}
    (hw : w.Consistent r scope stem) (s : Site) : (w.noted r s).Consistent r scope stem := by
  have hproperty : ∀ p, Consistent r scope stem { w with namer := (w.namer.useProperty p).2 } := by
    intro p
    refine ⟨hw.text_eq, hw.scope_eq, hw.stem_eq, hw.names, hw.locals, fun t ht => ?_⟩
    rcases List.mem_append.1 ht with ht | ht
    · exact hw.properties t ht
    · exact ⟨p, List.mem_singleton.1 ht⟩
  have hfree : ∀ x, Consistent r scope stem { w with namer := (w.namer.useLocal x).2 } := by
    intro x
    refine ⟨hw.text_eq, hw.scope_eq, hw.stem_eq, hw.names, fun t ht => ?_, hw.properties⟩
    rcases List.mem_append.1 ht with ht | ht
    · exact hw.locals t ht
    · refine ⟨x, ?_⟩
      rw [List.mem_singleton.1 ht, CallName.localName_eq_text, hw.scope_eq]
  have hargument : ∀ i u, Consistent r scope stem
      { w with arguments := w.arguments.modify i fun a => a.record u } := by
    intro i u
    refine ⟨hw.text_eq, hw.scope_eq, hw.stem_eq, ?_, hw.locals, hw.properties⟩
    rw [← hw.names]
    exact map_name_modify_record w.arguments i u
  match s with
  | .variable span x usage key =>
    rw [noted]
    split
    · exact hargument _ _
    · exact hfree _
    · exact hw
  | .thisProperty span p => exact hproperty p
  | .string .. | .this .. | .withObject .. => exact hw

/-! ## The whole walk -/

/-- A rewriter behind sites that are all accepted. -/
def after (r : Routine) (scope : Text) (w : Rewriter) (ss : List Site) : Rewriter :=
  ss.foldl (fun w s => (w.noted r s).recorded (r.edit? scope s)) w

theorem after_consistent {r : Routine} {scope stem : Text} {w : Rewriter}
    (hw : w.Consistent r scope stem) (ss : List Site) :
    (w.after r scope ss).Consistent r scope stem := by
  induction ss generalizing w with
  | nil => exact hw
  | cons s ss ih => exact ih (recorded_consistent (noted_consistent hw s) _)

theorem noted_buffer (r : Routine) (w : Rewriter) (s : Site) :
    (w.noted r s).buffer = w.buffer := by
  match s with
  | .variable .. =>
    rw [noted]
    split <;> rfl
  | .thisProperty .. | .string .. | .this .. | .withObject .. => rfl

/-- The edits recorded are those of the sites, in the order of the walk. -/
theorem after_edits (r : Routine) (scope : Text) (w : Rewriter) (ss : List Site) :
    (w.after r scope ss).buffer.edits = w.buffer.edits ++ ss.filterMap (r.edit? scope) := by
  induction ss generalizing w with
  | nil => exact (List.append_nil _).symm
  | cons s ss ih =>
    have hfirst : ((w.noted r s).recorded (r.edit? scope s)).buffer.edits =
        w.buffer.edits ++ (r.edit? scope s).toList := by
      rw [recorded, noted_buffer]
    rw [after, List.foldl_cons, ← after, ih, hfirst, List.append_assoc, List.filterMap_cons]
    cases r.edit? scope s <;> rfl

theorem forall_mem_filterMap_cons {P : Edit → Prop} (f : Site → Option Edit) (s : Site)
    (ss : List Site) :
    (∀ e ∈ (s :: ss).filterMap f, P e) ↔ (∀ e ∈ f s, P e) ∧ ∀ e ∈ ss.filterMap f, P e := by
  cases h : f s <;> simp [h]

/-- **A walk succeeds exactly if no site is refused and every edit lies inside the text.**  It then
leaves the rewriter with all edits of the sites and nothing else. -/
theorem visitAll_eq_ok_iff {r : Routine} {scope stem : Text} {w w' : Rewriter}
    (hw : w.Consistent r scope stem) (ss : List Site) :
    visitAll r w ss = .ok w' ↔
      (∀ s ∈ ss, r.rejection? stem s = none) ∧
      (∀ e ∈ ss.filterMap (r.edit? scope), e.span.Within 0 r.function.text.length) ∧
      w' = w.after r scope ss := by
  induction ss generalizing w with
  | nil => simp [visitAll, after, eq_comm]
  | cons s ss ih =>
    have hnoted := noted_consistent hw s
    rw [visitAll, visit_eq hw]
    cases hrejected : r.rejection? stem s with
    | some e => simp [hrejected]
    | none =>
      have htext : (w.noted r s).buffer.text = r.function.text := hnoted.text_eq
      by_cases hfits : ∀ e ∈ r.edit? scope s, e.span.Within 0 r.function.text.length
      · have hrecord : (w.noted r s).record (r.edit? scope s) =
            .ok ((w.noted r s).recorded (r.edit? scope s)) :=
          record_eq_ok_iff.2 ⟨by rwa [htext], rfl⟩
        simp only [hrecord, ih (recorded_consistent hnoted _), List.forall_mem_cons, hrejected,
          forall_mem_filterMap_cons, true_and, after, List.foldl_cons]
        rw [eq_true hfits, true_and]
      · have hrecord : ∀ w₁, (w.noted r s).record (r.edit? scope s) ≠ .ok w₁ := by
          intro w₁ h
          exact hfits (by rw [← htext]; exact (record_eq_ok_iff.1 h).1)
        rw [forall_mem_filterMap_cons, eq_false hfits]
        simp only [false_and, and_false, iff_false]
        cases h : (w.noted r s).record (r.edit? scope s) with
        | ok w₁ => exact absurd h (hrecord w₁)
        | error e => simp

/-- The walk goes no further than the first `with` statement. -/
theorem visitAll_cut (r : Routine) (w : Rewriter) (ss : List Site) :
    visitAll r w (Site.cut ss) = visitAll r w ss := by
  induction ss generalizing w with
  | nil => rfl
  | cons s ss ih =>
    rw [Site.cut]
    cases s
    case withObject => rfl
    all_goals simp [Site.isWithObject, visitAll, ih]

/-- **A walk over a tree treats the sites of its occurrences.** -/
theorem visitAll_sites (r : Routine) (w : Rewriter) (n : Node) :
    visitAll r w (n.sites .plain) = visitAll r w (n.occurrences.filterMap Occurrence.site?) := by
  rw [← visitAll_cut, n.cut_sites, visitAll_cut]
  rfl

end Rewriter
end Elementwise
