import Elementwise.Proofs.Relabelling

/-!
# Routines that are moved

Two functions can have the same tree at different offsets and with different names for some of their
variables.  If the order of the offsets is the same, and if the names stand for the same as before,
then both functions are treated the same way, site by site; and if the texts are the same outside of
what is replaced, both become the same.

## What is here

* `Edit.Arranges.relabel`, `EditBuffer.not_clash_relabel`, `Text.substitute_relabel` — edits that
  are moved in order.
* `EditBuffer.apply_relabel` — putting together a window of a text that has been moved.
* `Routine.Renames`, `Routine.Moves` — two routines that have the same tree.
* `Rewriter.visit_moves`, `Rewriter.visitAll_moves` — one site, and a whole walk, in both.
* `Compiler.flatten_moves` — both become the same, or both fail.
* `AnchoredFunction.moves_text` — the same function in a text with something else around it.
-/

set_option autoImplicit false
namespace Elementwise

/-! ## Edits that are moved -/

/-- An edit that is moved. -/
def Edit.relabel (l : Relabelling) (e : Edit) : Edit := ⟨l.span e.span, e.replacement⟩

section
variable {l : Relabelling} {ends : Set Nat} (hl : StrictMonoOn l.offset ends)
include hl

theorem Edit.precedes_relabel {a b : Edit} (ha : a.span.start ∈ ends ∧ a.span.stop ∈ ends)
    (hb : b.span.start ∈ ends ∧ b.span.stop ∈ ends) :
    (a.relabel l).precedes (b.relabel l) = true ↔ a.precedes b = true := by
  rw [precedes_iff, precedes_iff]
  refine or_congr (hl.lt_iff_lt ha.1 hb.1)
    (and_congr (hl.eq_iff_eq ha.1 hb.1) (hl.le_iff_le ha.2 hb.2))

theorem Relabelling.span_inj {a b : Span} (ha : a.start ∈ ends ∧ a.stop ∈ ends)
    (hb : b.start ∈ ends ∧ b.stop ∈ ends) : l.span a = l.span b ↔ a = b := by
  obtain ⟨i, j⟩ := a
  obtain ⟨i', j'⟩ := b
  rw [span, span, Span.mk.injEq, Span.mk.injEq]
  exact and_congr (hl.eq_iff_eq ha.1 hb.1) (hl.eq_iff_eq ha.2 hb.2)

/-- Edits that are moved in order are arranged as before. -/
theorem Edit.Arranges.relabel {es recorded : List Edit} (h : Arranges es recorded)
    (hends : ∀ e ∈ recorded, e.span.start ∈ ends ∧ e.span.stop ∈ ends) :
    Arranges (es.map (Edit.relabel l)) (recorded.map (Edit.relabel l)) := by
  have hends' : ∀ e ∈ es, e.span.start ∈ ends ∧ e.span.stop ∈ ends := fun e he =>
    hends e (h.perm.mem_iff.1 he)
  refine ⟨h.perm.map _, List.pairwise_map.2 (h.sorted.imp_of_mem fun ha hb hab => ?_), fun s => ?_⟩
  · exact (Edit.precedes_relabel hl (hends' _ ha) (hends' _ hb)).2 hab
  · rw [List.filter_map, List.filter_map]
    by_cases hs : ∃ e ∈ recorded, l.span e.span = s
    · obtain ⟨e, he, rfl⟩ := hs
      have hsame {fs : List Edit} (hfs : ∀ f ∈ fs, f.span.start ∈ ends ∧ f.span.stop ∈ ends) :
          fs.filter ((fun f => decide (f.span = l.span e.span)) ∘ Edit.relabel l) =
            fs.filter fun f => decide (f.span = e.span) :=
        List.filter_congr fun f hf =>
          decide_eq_decide.2 (Relabelling.span_inj hl (hfs f hf) (hends e he))
      rw [hsame hends', hsame hends, h.stable]
    · have hnone {fs : List Edit} (hfs : ∀ f ∈ fs, f ∈ recorded) :
          fs.filter ((fun f => decide (f.span = s)) ∘ Edit.relabel l) = [] :=
        List.filter_eq_nil_iff.2 fun f hf hspan => hs ⟨f, hfs f hf, of_decide_eq_true hspan⟩
      rw [hnone fun f hf => h.perm.mem_iff.1 hf, hnone fun f hf => hf]

theorem Edit.concerns_relabel {e : Edit} (he : e.span.start ∈ ends ∧ e.span.stop ∈ ends)
    {start stop : Nat} (hstart : start ∈ ends) (hstop : stop ∈ ends) :
    (e.relabel l).Concerns (l.offset start) (l.offset stop) ↔ e.Concerns start stop :=
  or_congr (and_congr (hl.lt_iff_lt he.1 hstop) (hl.lt_iff_lt hstart he.2))
    (and_congr (hl.eq_iff_eq he.1 he.2)
      (and_congr (hl.le_iff_le hstart he.1) (hl.le_iff_le he.1 hstop)))

theorem Relabelling.within_span {s : Span} (hs : s.start ∈ ends ∧ s.stop ∈ ends) {start stop : Nat}
    (hstart : start ∈ ends) (hstop : stop ∈ ends) :
    (l.span s).Within (l.offset start) (l.offset stop) ↔ s.Within start stop :=
  and_congr (hl.le_iff_le hstart hs.1)
    (and_congr (hl.le_iff_le hs.1 hs.2) (hl.le_iff_le hs.2 hstop))

/-- Edits that are moved in order clash exactly if they did before. -/
theorem EditBuffer.clash_relabel {es : List Edit} (hforward : ∀ e ∈ es, e.span.start ≤ e.span.stop)
    (hends : ∀ e ∈ es, e.span.start ∈ ends ∧ e.span.stop ∈ ends) {start stop : Nat}
    (hstart : start ∈ ends) (hstop : stop ∈ ends) :
    Clash (l.offset start) (l.offset stop) (es.map (Edit.relabel l)) ↔ Clash start stop es := by
  have hforward' : ∀ e ∈ es.map (Edit.relabel l), e.span.start ≤ e.span.stop :=
    List.forall_mem_map.2 fun e he =>
      (hl.le_iff_le (hends e he).1 (hends e he).2).2 (hforward e he)
  refine not_iff_not.1 ?_
  rw [not_clash_iff hforward, not_clash_iff hforward', List.forall_mem_map, List.pairwise_map]
  refine and_congr
    (forall₂_congr fun e he => Relabelling.within_span hl (hends e he) hstart hstop) ?_
  exact List.Pairwise.iff_of_mem fun ha hb => hl.le_iff_le (hends _ ha).2 (hends _ hb).1

end

theorem Text.slice_eq_nil {t : Text} {i j : Nat} (h : j < i) : t.slice ⟨i, j⟩ = [] :=
  List.drop_eq_nil_of_le ((List.length_take_le _ _).trans h.le)

/-- Two texts are the same from one offset to another, but for what is lost in between. -/
def Text.KeepsBetween (l : Relabelling) (t t' : Text) (lost : Nat → Prop) (start stop : Nat) :
    Prop :=
  ∀ i j, start ≤ i → i ≤ j → j ≤ stop → (∀ k, i ≤ k → k < j → ¬lost k) →
    t'.slice ⟨l.offset i, l.offset j⟩ = t.slice ⟨i, j⟩

/-- **If all that is lost is replaced, then the same comes out.** -/
theorem Text.substitute_relabel {l : Relabelling} {t t' : Text} {lost : Nat → Prop}
    {start stop : Nat} (hkeeps : t.KeepsBetween l t' lost start stop) :
    ∀ {es : List Edit} {position : Nat}, start ≤ position → position ≤ stop →
      (∀ e ∈ es, e.span.Within position stop) →
      es.Pairwise (fun a b => a.span.stop ≤ b.span.start) →
      (∀ k, position ≤ k → k < stop → lost k → ∃ e ∈ es, e.span.start ≤ k ∧ k < e.span.stop) →
      t'.substitute (l.offset position) (l.offset stop) (es.map (Edit.relabel l)) =
        t.substitute position stop es
  | [], position, hstart, hstop, _, _, hlost => by
    refine hkeeps position stop hstart hstop (Nat.le_refl stop) fun k hk hk' hlostk => ?_
    obtain ⟨e, he, -⟩ := hlost k hk hk' hlostk
    cases he
  | e :: es, position, hstart, hstop, hwithin, hbehind, hlost => by
    obtain ⟨hnext, hbehind⟩ := List.pairwise_cons.1 hbehind
    obtain ⟨⟨h₁, h₂, h₃⟩, hwithin⟩ := List.forall_mem_cons.1 hwithin
    have hgap : t'.slice ⟨l.offset position, l.offset e.span.start⟩ =
        t.slice ⟨position, e.span.start⟩ := by
      refine hkeeps _ _ hstart h₁ (h₂.trans h₃) fun k hk hk' hlostk => ?_
      obtain ⟨f, hf, hfk, -⟩ := hlost k hk (hk'.trans_le (h₂.trans h₃)) hlostk
      rcases List.mem_cons.1 hf with rfl | hf
      · omega
      · have := hnext f hf
        omega
    have hrest : t'.substitute (l.offset e.span.stop) (l.offset stop) (es.map (Edit.relabel l)) =
        t.substitute e.span.stop stop es := by
      refine substitute_relabel hkeeps (hstart.trans (h₁.trans h₂)) h₃
        (fun f hf => ⟨hnext f hf, (hwithin f hf).2⟩) hbehind fun k hk hk' hlostk => ?_
      obtain ⟨f, hf, hfk⟩ := hlost k ((h₁.trans h₂).trans hk) hk' hlostk
      rcases List.mem_cons.1 hf with rfl | hf
      · omega
      · exact ⟨f, hf, hfk⟩
    calc t'.substitute (l.offset position) (l.offset stop) ((e :: es).map (Edit.relabel l))
        = t'.slice ⟨l.offset position, l.offset e.span.start⟩ ++ e.replacement ++
            t'.substitute (l.offset e.span.stop) (l.offset stop) (es.map (Edit.relabel l)) := rfl
      _ = t.substitute position stop (e :: es) := by rw [hgap, hrest, substitute]

/-- **A window of a text that has been moved** is put together as before, or is refused as
before. -/
theorem EditBuffer.apply_relabel {l : Relabelling} {ends : Set Nat}
    (hl : StrictMonoOn l.offset ends)
    {b b' : EditBuffer} (hedits : b'.edits = b.edits.map (Edit.relabel l))
    (hforward : ∀ e ∈ b.edits, e.span.start ≤ e.span.stop)
    (hends : ∀ e ∈ b.edits, e.span.start ∈ ends ∧ e.span.stop ∈ ends)
    {start stop : Nat} (hstart : start ∈ ends) (hstop : stop ∈ ends) {lost : Nat → Prop}
    (hkeeps : b.text.KeepsBetween l b'.text lost start stop)
    (hlost : ∀ k, start ≤ k → k < stop → lost k →
      ∃ e ∈ b.edits, e.span.start ≤ k ∧ k < e.span.stop) :
    Parallel (fun _ _ => True) (· = ·) (b.apply start stop)
      (b'.apply (l.offset start) (l.offset stop)) := by
  have hes := Edit.sort_arranges (b.edits.filter fun e => e.Concerns start stop)
  generalize Edit.sort _ = es at hes
  have hmem {e : Edit} : e ∈ es ↔ e ∈ b.edits ∧ e.Concerns start stop := by
    rw [hes.perm.mem_iff, List.mem_filter, decide_eq_true_eq]
  have hconcerned : (b'.edits.filter fun e => e.Concerns (l.offset start) (l.offset stop)) =
      (b.edits.filter fun e => e.Concerns start stop).map (Edit.relabel l) := by
    rw [hedits, List.filter_map]
    refine congrArg _ (List.filter_congr fun e he => decide_eq_decide.2 ?_)
    exact Edit.concerns_relabel hl (hends e he) hstart hstop
  have hes' : Edit.Arranges (es.map (Edit.relabel l))
      (b'.edits.filter fun e => e.Concerns (l.offset start) (l.offset stop)) := by
    rw [hconcerned]
    exact hes.relabel hl fun e he => hends e (List.mem_of_mem_filter he)
  have hforward' : ∀ e ∈ b'.edits, e.span.start ≤ e.span.stop := by
    rw [hedits, List.forall_mem_map]
    exact fun e he => (hl.le_iff_le (hends e he).1 (hends e he).2).2 (hforward e he)
  have hok (out : Text) : b.apply start stop = .ok out ↔
      ¬Clash start stop es ∧ out = b.text.substitute start stop es := apply_eq_ok_iff hforward hes
  have hok' (out : Text) : b'.apply (l.offset start) (l.offset stop) = .ok out ↔
      ¬Clash (l.offset start) (l.offset stop) (es.map (Edit.relabel l)) ∧
        out = b'.text.substitute (l.offset start) (l.offset stop) (es.map (Edit.relabel l)) :=
    apply_eq_ok_iff hforward' hes'
  have hforwardes : ∀ e ∈ es, e.span.start ≤ e.span.stop := fun e he => hforward e (hmem.1 he).1
  have hclash := clash_relabel hl hforwardes (fun e he => hends e (hmem.1 he).1) hstart hstop
  by_cases h : Clash start stop es
  · cases happly : b.apply start stop with
    | ok out => exact absurd h ((hok out).1 happly).1
    | error e =>
      cases happly' : b'.apply (l.offset start) (l.offset stop) with
      | ok out => exact absurd (hclash.2 h) ((hok' out).1 happly').1
      | error e' => exact .error trivial
  · obtain ⟨hwithin, hbehind⟩ := (not_clash_iff hforwardes).1 h
    rw [(hok _).2 ⟨h, rfl⟩, (hok' _).2 ⟨hclash.not.2 h, rfl⟩]
    refine .ok (Eq.symm ?_)
    rcases Nat.lt_or_ge stop start with hlt | hle
    · -- no edit lies in a window that goes backward, and no text
      have hnone : es = [] := List.eq_nil_iff_forall_not_mem.2 fun e he => by
        obtain ⟨h₁, h₂, h₃⟩ := hwithin e he
        omega
      have hlt' : l.offset stop < l.offset start := (hl.lt_iff_lt hstop hstart).2 hlt
      rw [hnone, List.map_nil, Text.substitute, Text.substitute, Text.slice_eq_nil hlt,
        Text.slice_eq_nil hlt']
    · refine Text.substitute_relabel hkeeps (Nat.le_refl start) hle hwithin hbehind
        fun k hk hk' hlostk => ?_
      obtain ⟨e, he, hek⟩ := hlost k hk hk' hlostk
      exact ⟨e, hmem.2 ⟨he, .inl ⟨by omega, by omega⟩⟩, hek⟩

/-! ## Routines with the same tree -/

/-- A name and what it has become stand for the same in two routines: for parameters that are
numbered alike, or for the same variable that is no parameter. -/
structure Routine.Renames (l : Relabelling) (r r' : Routine) (x : Text) : Prop where
  eval_iff : l.name x = Word.eval ↔ x = Word.eval
  stands : x ∈ r.parameterNames ∧ l.name x ∈ r'.parameterNames ∧
      r'.parameterNames.idxOf (l.name x) = r.parameterNames.idxOf x ∨
    x ∉ r.parameterNames ∧ x ∉ r'.parameterNames ∧ l.name x = x ∧ r'.isGlobal x = r.isGlobal x

/-- Two failures of the same kind: the same construct is refused, at whatever place, or edits cannot
be recorded or put together. -/
inductive Failure.Alike : Failure → Failure → Prop
  | rejected (construct : Construct) (s s' : Span) :
    Alike (.rejected construct s) (.rejected construct s')
  | edit (e e' : EditError) : Alike (.edit e) (.edit e')

/-- Two states of a rewriter that are the same but for the places of the edits. -/
structure Rewriter.Moves (l : Relabelling) (r r' : Routine) (scope stem : Text) (w v : Rewriter) :
    Prop where
  before : w.Consistent r scope stem
  behind : v.Consistent r' scope stem
  edits : v.buffer.edits = w.buffer.edits.map (Edit.relabel l)
  namer : v.namer = w.namer
  arguments : v.arguments = w.arguments

section
variable {l : Relabelling} {r r' : Routine} {scope stem : Text} {s : Site}

/-- What takes the place of a site is moved with it. -/
theorem Routine.edit?_relabel (h : ∀ x ∈ s.variableName?, r.Renames l r' x) :
    r'.edit? scope (s.relabel l) = (r.edit? scope s).map (Edit.relabel l) := by
  cases s
  case «variable» span x usage key =>
    rw [Site.relabel, edit?, edit?]
    rcases (h x rfl).stands with ⟨hx, hx', hindex⟩ | ⟨hx, hx', hname, hglobal⟩
    · simp only [resolve, hx, hx', if_true, output, hindex]
      rfl
    · simp only [resolve, hname, hx, hx', if_false, hglobal]
      cases r.isGlobal x <;> rfl
  all_goals rfl

/-- Why a site is refused does not change when it is moved. -/
theorem Routine.rejection?_relabel (h : ∀ x ∈ s.variableName?, r.Renames l r' x) :
    Option.Rel Failure.Alike (r.rejection? stem s) (r'.rejection? stem (s.relabel l)) := by
  cases s
  case «variable» span x usage key =>
    rw [Site.relabel, rejection?, rejection?]
    by_cases heval : x = Word.eval
    · rw [if_pos heval, if_pos ((h x rfl).eval_iff.2 heval)]
      exact .some (.rejected _ _ _)
    · rw [if_neg heval, if_neg ((h x rfl).eval_iff.not.2 heval)]
      rcases (h x rfl).stands with ⟨hx, hx', -⟩ | ⟨hx, hx', hname, hglobal⟩
      · simp only [resolve, hx, hx', if_true]
        exact .none
      · simp only [resolve, hname, hx, hx', if_false, hglobal]
        cases r.isGlobal x
        · exact .none
        · simp only [↓reduceIte]
          split
          · exact .some (.rejected _ _ _)
          · exact .none
  case this span inMember => exact .some (.rejected _ _ _)
  case withObject span => exact .some (.rejected _ _ _)
  all_goals exact .none

namespace Rewriter

variable {w v : Rewriter}

/-- The same is noted of a site wherever it is. -/
theorem noted_moves (hwv : w.Moves l r r' scope stem v)
    (h : ∀ x ∈ s.variableName?, r.Renames l r' x) :
    (w.noted r s).Moves l r r' scope stem (v.noted r' (s.relabel l)) := by
  refine ⟨noted_consistent hwv.before s, noted_consistent hwv.behind _, ?_, ?_, ?_⟩
  · rw [noted_buffer, noted_buffer]
    exact hwv.edits
  all_goals
    cases s
    case «variable» span x usage key =>
      rw [Site.relabel, noted, noted]
      rcases (h x rfl).stands with ⟨hx, hx', hindex⟩ | ⟨hx, hx', hname, hglobal⟩
      · simp only [Routine.resolve, hx, hx', if_true, hindex, hwv.namer, hwv.arguments]
      · simp only [Routine.resolve, hname, hx, hx', if_false, hglobal]
        cases r.isGlobal x <;> simp [hwv.namer, hwv.arguments]
    all_goals simp [Site.relabel, noted, hwv.namer, hwv.arguments]

theorem recorded_moves (hwv : w.Moves l r r' scope stem v) (e? : Option Edit) :
    (w.recorded e?).Moves l r r' scope stem (v.recorded (e?.map (Edit.relabel l))) := by
  refine ⟨recorded_consistent hwv.before _, recorded_consistent hwv.behind _, ?_, hwv.namer,
    hwv.arguments⟩
  rw [recorded, recorded, List.map_append, hwv.edits]
  cases e? <;> rfl

/-- **One site is treated the same way wherever it is.** -/
theorem visit_moves (hwv : w.Moves l r r' scope stem v)
    (h : ∀ x ∈ s.variableName?, r.Renames l r' x)
    (hwithin : ∀ e ∈ r.edit? scope s, ((l.span e.span).Within 0 r'.function.text.length ↔
      e.span.Within 0 r.function.text.length)) :
    Parallel (fun a b => a.1.Alike b.1) (fun w' v' => w'.Moves l r r' scope stem v')
      (visit r w s) (visit r' v (s.relabel l)) := by
  rw [visit_eq hwv.before, visit_eq hwv.behind, Routine.edit?_relabel h]
  have hrejected :
      Option.Rel Failure.Alike (r.rejection? stem s) (r'.rejection? stem (s.relabel l)) :=
    Routine.rejection?_relabel h
  generalize r.rejection? stem s = e? at hrejected ⊢
  generalize r'.rejection? stem (s.relabel l) = f? at hrejected ⊢
  cases hrejected with
  | some he => exact .error he
  | none =>
    have hnoted := noted_moves hwv h
    have hrecorded := recorded_moves hnoted (r.edit? scope s)
    cases hedit : r.edit? scope s with
    | none => exact .ok hnoted
    | some e =>
      rw [hedit] at hrecorded
      have hspan : (e.relabel l).span = l.span e.span := rfl
      simp only [Option.map_some, record_some, hnoted.before.text_eq, hnoted.behind.text_eq, hspan,
        hwithin e hedit]
      split
      · exact .ok hrecorded
      · exact .error (.edit _ _)

/-- **A walk goes the same way wherever its sites are.** -/
theorem visitAll_moves {ss : List Site} (hwv : w.Moves l r r' scope stem v)
    (h : ∀ s ∈ ss, ∀ x ∈ s.variableName?, r.Renames l r' x)
    (hwithin : ∀ s ∈ ss, ∀ e ∈ r.edit? scope s,
      ((l.span e.span).Within 0 r'.function.text.length ↔
        e.span.Within 0 r.function.text.length)) :
    Parallel (fun a b => a.1.Alike b.1) (fun w' v' => w'.Moves l r r' scope stem v')
      (visitAll r w ss) (visitAll r' v (ss.map (Site.relabel l))) := by
  induction ss generalizing w v with
  | nil => exact .ok hwv
  | cons s ss ih =>
    obtain ⟨hs, hss⟩ := List.forall_mem_cons.1 h
    obtain ⟨hwithins, hwithinss⟩ := List.forall_mem_cons.1 hwithin
    have hstep := visit_moves hwv hs hwithins
    rw [List.map_cons, visitAll, visitAll]
    generalize visit r w s = x at hstep ⊢
    generalize visit r' v (s.relabel l) = y at hstep ⊢
    cases hstep with
    | error he => exact .error he
    | ok hnext => exact ih hnext hss hwithinss

end Rewriter

namespace Routine

/-- Two routines that have the same tree, at other offsets and with other names for some variables.
`ends` are the offsets that keep their order, and `lost` are those of the code points that are not
in the other text, all of which are replaced. -/
structure Moves (l : Relabelling) (ends : Set Nat) (lost : Nat → Prop) (scope : Text)
    (r r' : Routine) : Prop where
  ordered : StrictMonoOn l.offset ends
  parameters : r'.parameterNames = r.parameterNames.map l.name
  evalParameter : Word.eval ∈ r'.parameterNames ↔ Word.eval ∈ r.parameterNames
  sites : r'.sites = r.sites.map (Site.relabel l)
  names : ∀ s ∈ r.sites, ∀ x ∈ s.variableName?, r.Renames l r' x
  editEnds : ∀ e ∈ r.replacements scope, e.span.start ∈ ends ∧ e.span.stop ∈ ends
  within : ∀ s ∈ r.sites, ∀ e ∈ r.edit? scope s,
    ((l.span e.span).Within 0 r'.function.text.length ↔ e.span.Within 0 r.function.text.length)
  bodySpan : r'.function.bodySpan = l.span r.function.bodySpan
  bodyEnds : r.function.bodySpan.start ∈ ends ∧ r.function.bodySpan.stop ∈ ends
  isExpressionBody : r'.function.isExpressionBody = r.function.isExpressionBody
  keeps : r.function.text.KeepsBetween l r'.function.text lost r.function.bodySpan.start
    r.function.bodySpan.stop
  replaced : ∀ k, r.function.bodySpan.start ≤ k → k < r.function.bodySpan.stop → lost k →
    ∃ e ∈ r.replacements scope, e.span.start ≤ k ∧ k < e.span.stop

end Routine

namespace Rewriter

/-- A function with a parameter called `eval` is refused. -/
theorem ofAnchored?_eval {f : AnchoredFunction} (h : Word.eval ∈ f.params.map Parameter.name)
    (namer : Namer) : ∃ span, ofAnchored? f namer = .error (.rejected .eval span) := by
  obtain ⟨p, hp, hname⟩ := List.mem_map.1 h
  have hfind : (f.params.find? fun p => p.name = Word.eval).isSome := by
    rw [List.find?_isSome]
    exact ⟨p, hp, decide_eq_true hname⟩
  obtain ⟨q, hq⟩ := Option.isSome_iff_exists.1 hfind
  rw [ofAnchored?, checkParameters_eq, hq]
  exact ⟨q.span, rfl⟩

/-- A rewriter begins the same way for both routines. -/
theorem ofAnchored?_moves {l : Relabelling} {ends : Set Nat} {lost : Nat → Prop} {scope : Text}
    {r r' : Routine} (h : r.Moves l ends lost scope r') (stem : Text) :
    Parallel Failure.Alike (Rewriter.Moves l r r' scope stem)
      (ofAnchored? r.function { scope, stem }) (ofAnchored? r'.function { scope, stem }) := by
  have hlength : r'.function.params.length = r.function.params.length := by
    simpa [Routine.parameterNames] using congrArg List.length h.parameters
  by_cases heval : Word.eval ∈ r.parameterNames
  · obtain ⟨span, hw⟩ := ofAnchored?_eval heval { scope, stem }
    obtain ⟨span', hv⟩ := ofAnchored?_eval (h.evalParameter.2 heval) { scope, stem }
    rw [hw, hv]
    exact .error (.rejected _ _ _)
  · obtain ⟨w, hw⟩ := ofAnchored?_eq_ok { scope, stem } heval
    obtain ⟨v, hv⟩ := ofAnchored?_eq_ok { scope, stem } (h.evalParameter.not.2 heval)
    rw [hw, hv]
    refine .ok ⟨ofAnchored?_consistent hw, ofAnchored?_consistent hv, ?_, ?_, ?_⟩
    · rw [ofAnchored?_edits hw, ofAnchored?_edits hv, List.map_nil]
    · rw [ofAnchored?_namer hw, ofAnchored?_namer hv]
    · rw [ofAnchored?, checkParameters_eq_ok heval] at hw
      rw [ofAnchored?, checkParameters_eq_ok (h.evalParameter.not.2 heval)] at hv
      obtain rfl := Except.ok.inj hw
      obtain rfl := Except.ok.inj hv
      exact congrArg (fun n => (List.range n).map _) hlength

/-- **The body becomes the same wherever it is**, or the edits cannot be put together in either
place. -/
theorem bodyText_moves {l : Relabelling} {ends : Set Nat} {lost : Nat → Prop} {scope stem : Text}
    {r r' : Routine} (h : r.Moves l ends lost scope r') {w v : Rewriter}
    (hwv : w.Moves l r r' scope stem v) (hedits : w.buffer.edits = r.replacements scope)
    (hforward : ∀ e ∈ r.replacements scope, e.span.start ≤ e.span.stop) :
    Parallel Failure.Alike (· = ·) (bodyText r w) (bodyText r' v) := by
  have hends : ∀ e ∈ w.buffer.edits, e.span.start ∈ ends ∧ e.span.stop ∈ ends := by
    rw [hedits]
    exact h.editEnds
  have hkeeps : Text.KeepsBetween l w.buffer.text v.buffer.text lost r.function.bodySpan.start
      r.function.bodySpan.stop := by
    rw [hwv.before.text_eq, hwv.behind.text_eq]
    exact h.keeps
  have happly := EditBuffer.apply_relabel h.ordered hwv.edits (by rwa [hedits]) hends
    h.bodyEnds.1 h.bodyEnds.2 hkeeps (by rw [hedits]; exact h.replaced)
  have hspan : l.span r.function.bodySpan =
    ⟨l.offset r.function.bodySpan.start, l.offset r.function.bodySpan.stop⟩ := rfl
  rw [bodyText, bodyText, h.bodySpan, h.isExpressionBody, hspan]
  generalize w.buffer.apply _ _ = x at happly ⊢
  generalize v.buffer.apply _ _ = y at happly ⊢
  cases happly with
  | error => exact .error (.edit _ _)
  | ok heq => exact .ok (by rw [heq])

/-- **A body is rewritten the same way wherever it is.**  The names and usages gathered on the way
are the same, too. -/
theorem rewrite_moves {l : Relabelling} {ends : Set Nat} {lost : Nat → Prop} {scope stem : Text}
    {r r' : Routine} (h : r.Moves l ends lost scope r') {w v : Rewriter}
    (hwv : w.Moves l r r' scope stem v) (hfresh : w.buffer.edits = []) :
    Parallel Failure.Alike (· = ·) (rewrite r w).1 (rewrite r' v).1 ∧
      ∀ body, (rewrite r w).1 = .ok body →
        (rewrite r w).2.Moves l r r' scope stem (rewrite r' v).2 := by
  have hwalk := visitAll_moves hwv h.names h.within
  rw [rewrite_eq, rewrite_eq, h.sites]
  cases hvisit : visitAll r w r.sites with
  | error e =>
    rw [hvisit] at hwalk
    generalize visitAll r' v _ = y at hwalk ⊢
    cases hwalk with
    | error he => exact ⟨.error he, fun _ h => by cases h⟩
  | ok w' =>
    obtain ⟨-, hwithin, hafter⟩ := (visitAll_eq_ok_iff hwv.before _).1 hvisit
    have hedits : w'.buffer.edits = r.replacements scope := by
      rw [hafter, after_edits, hfresh, List.nil_append, Routine.replacements]
    rw [hvisit] at hwalk
    generalize visitAll r' v _ = y at hwalk ⊢
    cases hwalk with
    | ok hwv' =>
      exact ⟨bodyText_moves h hwv' hedits fun e he => (hwithin e he).2.1, fun _ _ => hwv'⟩

end Rewriter

/-- **Two functions with the same tree become the same**, or both fail: the same construct is
refused in both, or the edits of both cannot be put together. -/
theorem Compiler.flatten_moves {c : Compiler} {l : Relabelling} {ends : Set Nat} {lost : Nat → Prop}
    {scope : Text} {f f' : AnchoredFunction}
    (h : Routine.Moves l ends lost scope ⟨f, c.isGlobal⟩ ⟨f', c.isGlobal⟩) :
    Parallel Failure.Alike (· = ·) (c.flatten scope f) (c.flatten scope f') := by
  have hbegin := Rewriter.ofAnchored?_moves h c.stem
  rw [flatten, flatten]
  dsimp only at hbegin ⊢
  cases hw : Rewriter.ofAnchored? f ⟨scope, c.stem, [], []⟩ with
  | error e =>
    rw [hw] at hbegin
    generalize Rewriter.ofAnchored? f' _ = y at hbegin ⊢
    cases hbegin with
    | error he => exact .error he
  | ok w =>
    rw [hw] at hbegin
    generalize Rewriter.ofAnchored? f' _ = y at hbegin ⊢
    cases hbegin with
    | @ok _ v hwv =>
      obtain ⟨hrewrite, hstate⟩ := Rewriter.rewrite_moves h hwv (Rewriter.ofAnchored?_edits hw)
      dsimp only
      generalize Rewriter.rewrite ⟨f, c.isGlobal⟩ w = p at hrewrite hstate ⊢
      generalize Rewriter.rewrite ⟨f', c.isGlobal⟩ v = p' at hrewrite hstate ⊢
      obtain ⟨result, w'⟩ := p
      obtain ⟨result', v'⟩ := p'
      cases hrewrite with
      | error he => exact .error he
      | ok hbody =>
        have hmoves := hstate _ rfl
        exact .ok (by rw [hbody, hmoves.arguments, hmoves.namer])

end
end Elementwise
