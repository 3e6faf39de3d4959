import Elementwise.Proofs.CompiledBody

/-!
# What the prefix has an influence on

A compilation is run twice, under two prefixes.  The prefix is looked at nowhere: what is refused,
which part of the text becomes an edit and what is counted depends on the routine alone, and the
prefix is only put in front of names.  So the two runs go the same way, and exchanging the one
prefix for the other in every name that begins with it turns what the first gives into what the
second gives.

## What is here

* `Text.Exchanges`, `Edit.Exchanges`, `Rewriter.Exchanges` — being the same but for the prefix.
* `Parallel` — two computations that fail for the same cause or succeed in like manner.
* `Rewriter.noted_exchanges`, `Rewriter.visit_parallel` — one site, treated under both prefixes.
* `Rewriter.after_exchanges`, `Rewriter.visitAll_parallel` — a whole walk.
* `EditBuffer.splice_parallel` — putting the new text together looks at the places of edits only.
* `Compiler.compile_exchanges_prefix` — two compilations of one routine.
-/

set_option autoImplicit false
namespace Elementwise

/-! ## The same but for the prefix -/

/-- Two names that are generated for the same thing under two prefixes. -/
def Text.Exchanges (s t : Text) (a b : Text) : Prop := ∃ k : CallName, a = k.text s ∧ b = k.text t

/-- Two edits of the same part of a text that write the same, but for the prefix of the one name of
a parameter, a local or a free variable that they write. -/
inductive Edit.Exchanges (s t : Text) : Edit → Edit → Prop
  | call (span : Span) (key : Option Text) (k : CallName) :
    Exchanges s t ⟨span, Rewriter.variableText key (k.text s)⟩
      ⟨span, Rewriter.variableText key (k.text t)⟩
  | property (span : Span) (name : Text) :
    Exchanges s t ⟨span, Namer.propertyName name⟩ ⟨span, Namer.propertyName name⟩
  | string (span : Span) (value : Text) :
    Exchanges s t ⟨span, escapeString value⟩ ⟨span, escapeString value⟩

/-- Two parameters that are used the same way and called the same but for the prefix. -/
structure ArgumentUsage.Exchanges (s t : Text) (a b : ArgumentUsage) : Prop where
  name : Text.Exchanges s t a.name b.name
  isWritten : a.isWritten = b.isWritten
  isRead : a.isRead = b.isRead
  count : a.count = b.count

/-- Two states of a rewriter that are the same but for the prefix. -/
structure Rewriter.Exchanges (s t : Text) (w v : Rewriter) : Prop where
  edits : List.Forall₂ (Edit.Exchanges s t) w.buffer.edits v.buffer.edits
  arguments : List.Forall₂ (ArgumentUsage.Exchanges s t) w.arguments v.arguments
  locals : List.Forall₂ (Text.Exchanges s t) w.namer.locals v.namer.locals
  properties : w.namer.properties = v.namer.properties

/-- Two results whose lists of names are the same but for the prefix, entry by entry. -/
structure CompiledRoutine.Exchanges (s t : Text) (a b : CompiledRoutine) : Prop where
  args : List.Forall₂ (ArgumentUsage.Exchanges s t) a.args b.args
  thisVars : a.thisVars = b.thisVars
  localVars : List.Forall₂ (Text.Exchanges s t) a.localVars b.localVars

/-- Two computations that both fail, for related causes, or both succeed, with related results. -/
inductive Parallel {ε ε' α β : Type} (E : ε → ε' → Prop) (R : α → β → Prop) :
    Except ε α → Except ε' β → Prop
  | error {e : ε} {e' : ε'} (h : E e e') : Parallel E R (.error e) (.error e')
  | ok {a : α} {b : β} (h : R a b) : Parallel E R (.ok a) (.ok b)

theorem Parallel.outcome {ε α β : Type} {R : α → β → Prop} {x : Except ε α} {y : Except ε β}
    (h : Parallel (· = ·) R x y) :
    (∃ e, x = .error e ∧ y = .error e) ∨ ∃ a b, x = .ok a ∧ y = .ok b := by
  cases h with
  | error he => exact .inl ⟨_, rfl, congrArg _ he.symm⟩
  | ok => exact .inr ⟨_, _, rfl, rfl⟩

section
variable {s t : Text}

theorem Edit.Exchanges.span_eq {e e' : Edit} (h : e.Exchanges s t e') : e.span = e'.span := by
  cases h <;> rfl

/-- Different names stay different when the prefix is exchanged. -/
theorem Text.Exchanges.biUnique : Relator.BiUnique (Text.Exchanges s t) := by
  constructor
  · rintro a a' b ⟨k, rfl, hb⟩ ⟨k', rfl, hb'⟩
    rw [CallName.text_injective t (hb.symm.trans hb')]
  · rintro a b b' ⟨k, ha, rfl⟩ ⟨k', ha', rfl⟩
    rw [CallName.text_injective s (ha.symm.trans ha')]

/-- Lists of names are cleared of repetitions in the same places. -/
theorem uniqueNames_exchanges {xs ys : List Text} (h : List.Forall₂ (Text.Exchanges s t) xs ys) :
    List.Forall₂ (Text.Exchanges s t) (uniqueNames xs) (uniqueNames ys) := by
  refine List.forall₂_reverse_iff.2 (List.rel_foldl ?_ .nil h)
  intro seen seen' hseen a b hab
  have hmem : a ∈ seen ↔ b ∈ seen' := List.rel_mem Text.Exchanges.biUnique hab hseen
  show List.Forall₂ _ (if a ∈ seen then seen else a :: seen)
    (if b ∈ seen' then seen' else b :: seen')
  by_cases ha : a ∈ seen
  · rw [if_pos ha, if_pos (hmem.1 ha)]
    exact hseen
  · rw [if_neg ha, if_neg (hmem.not.1 ha)]
    exact .cons hab hseen

/-- One more occurrence of a parameter is recorded in both lists. -/
theorem ArgumentUsage.exchanges_modify {as bs : List ArgumentUsage}
    (h : List.Forall₂ (ArgumentUsage.Exchanges s t) as bs) (i : Nat) (u : Usage) :
    List.Forall₂ (ArgumentUsage.Exchanges s t) (as.modify i fun a => a.record u)
      (bs.modify i fun b => b.record u) := by
  induction h generalizing i with
  | nil => cases i <;> exact .nil
  | @cons a b as bs hab habs ih =>
    cases i with
    | zero =>
      have hrecord : (a.record u).Exchanges s t (b.record u) :=
        ⟨hab.name, congrArg (· || u.isWrite) hab.isWritten, congrArg (· || u.isRead) hab.isRead,
          congrArg (· + 1) hab.count⟩
      exact .cons hrecord habs
    | succ i => exact .cons hab (ih i)

end

/-! ## One site -/

/-- What takes the place of a site is the same but for the prefix. -/
theorem Routine.edit?_exchanges (r : Routine) (s t : Text) (site : Site) :
    Option.Rel (Edit.Exchanges s t) (r.edit? s site) (r.edit? t site) := by
  match site with
  | .variable span x _ key =>
    rw [edit?, edit?]
    cases hresolve : r.resolve x with
    | parameter y => exact .some (.call span key (.argument _))
    | free y => exact .some (.call span key (.free y))
    | ambient y => exact .none
    | property p => exact absurd hresolve (r.resolve_ne_property x p)
  | .thisProperty span p => exact .some (.property span p)
  | .string span value => exact .some (.string span value)
  | .this .. | .withObject _ => exact .none

namespace Rewriter

variable {r : Routine} {s t stem : Text} {w v : Rewriter}

/-- The same is noted of a site. -/
theorem noted_exchanges {stem' : Text} (hw : w.Consistent r s stem) (hv : v.Consistent r t stem')
    (h : w.Exchanges s t v) (site : Site) : (w.noted r site).Exchanges s t (v.noted r site) := by
  match site with
  | .variable span x usage key =>
    rw [noted, noted]
    cases r.resolve x with
    | parameter y =>
      exact { h with arguments := ArgumentUsage.exchanges_modify h.arguments _ usage }
    | free y =>
      have hname : Text.Exchanges s t (w.namer.localName y) (v.namer.localName y) := by
        rw [CallName.localName_eq_text, CallName.localName_eq_text, hw.scope_eq, hv.scope_eq]
        exact ⟨.free y, rfl, rfl⟩
      exact { h with locals := List.rel_append h.locals (.cons hname .nil) }
    | ambient y => exact h
    | property p => exact h
  | .thisProperty span p => exact { h with properties := congrArg (· ++ _) h.properties }
  | .string .. | .this .. | .withObject _ => exact h

theorem recorded_exchanges (h : w.Exchanges s t v) {e? f? : Option Edit}
    (hef : Option.Rel (Edit.Exchanges s t) e? f?) :
    (w.recorded e?).Exchanges s t (v.recorded f?) := by
  refine { h with edits := List.rel_append h.edits ?_ }
  cases hef with
  | none => exact .nil
  | some h => exact .cons h .nil

/-- **One site is treated the same way under both prefixes**: it is refused for the same cause, or
the same is noted and recorded. -/
theorem visit_parallel (hw : w.Consistent r s stem) (hv : v.Consistent r t stem) (site : Site) :
    Parallel (fun a b => a.1 = b.1)
      (fun w' v' => w' = (w.noted r site).recorded (r.edit? s site) ∧
        v' = (v.noted r site).recorded (r.edit? t site))
      (visit r w site) (visit r v site) := by
  rw [visit_eq hw, visit_eq hv]
  cases r.rejection? stem site with
  | some e => exact .error rfl
  | none =>
    have hedit := r.edit?_exchanges s t site
    generalize r.edit? s site = e? at hedit ⊢
    generalize r.edit? t site = f? at hedit ⊢
    cases hedit with
    | none => exact .ok ⟨by simp [recorded], by simp [recorded]⟩
    | some hef =>
      -- whether an edit is recorded depends on its place, and that is the same
      simp only [record_some, (noted_consistent hw site).text_eq,
        (noted_consistent hv site).text_eq, hef.span_eq]
      split
      · exact .ok ⟨rfl, rfl⟩
      · exact .error rfl

/-! ## The whole walk -/

/-- Behind sites that are all accepted the states are the same but for the prefix, also if the
stems differ. -/
theorem after_exchanges {stem' : Text} (hw : w.Consistent r s stem) (hv : v.Consistent r t stem')
    (h : w.Exchanges s t v) (sites : List Site) :
    (w.after r s sites).Exchanges s t (v.after r t sites) := by
  induction sites generalizing w v with
  | nil => exact h
  | cons site sites ih =>
    exact ih (recorded_consistent (noted_consistent hw site) _)
      (recorded_consistent (noted_consistent hv site) _)
      (recorded_exchanges (noted_exchanges hw hv h site) (r.edit?_exchanges s t site))

/-- **A walk goes the same way under both prefixes.** -/
theorem visitAll_parallel (hw : w.Consistent r s stem) (hv : v.Consistent r t stem)
    (sites : List Site) :
    Parallel (fun a b => a.1 = b.1)
      (fun w' v' => w' = w.after r s sites ∧ v' = v.after r t sites)
      (visitAll r w sites) (visitAll r v sites) := by
  induction sites generalizing w v with
  | nil => exact .ok ⟨rfl, rfl⟩
  | cons site sites ih =>
    have hstep := visit_parallel hw hv site
    rw [visitAll, visitAll]
    generalize visit r w site = x at hstep ⊢
    generalize visit r v site = y at hstep ⊢
    cases hstep with
    | error he => exact .error he
    | ok h =>
      obtain ⟨rfl, rfl⟩ := h
      exact ih (recorded_consistent (noted_consistent hw site) _)
        (recorded_consistent (noted_consistent hv site) _)

end Rewriter

/-! ## The new text -/

/-- Edits are sorted by their places. -/
theorem Edit.sort_exchanges {s t : Text} {es fs : List Edit}
    (h : List.Forall₂ (Edit.Exchanges s t) es fs) :
    List.Forall₂ (Edit.Exchanges s t) (Edit.sort es) (Edit.sort fs) := by
  have hinsert {e f : Edit} {es fs : List Edit} (hef : e.Exchanges s t f)
      (h : List.Forall₂ (Edit.Exchanges s t) es fs) :
      List.Forall₂ (Edit.Exchanges s t) (Edit.insert e es) (Edit.insert f fs) := by
    induction h with
    | nil => exact .cons hef .nil
    | @cons a b as bs hab habs ih =>
      rw [insert, insert, precedes, precedes, hef.span_eq, hab.span_eq]
      split
      · exact .cons hef (.cons hab habs)
      · exact .cons hab ih
  induction h with
  | nil => exact .nil
  | cons hef _ ih => exact hinsert hef ih

/-- **Edits at the same places are applied or refused together.** -/
theorem EditBuffer.splice_parallel {s t : Text} {es fs : List Edit}
    (h : List.Forall₂ (Edit.Exchanges s t) es fs) (text : Text) (start stop position : Int)
    {e? f? : Option Edit} (hprevious : e?.map Edit.span = f?.map Edit.span) :
    Parallel (· = ·) (fun _ _ => True) (splice text start stop position e? es)
      (splice text start stop position f? fs) := by
  induction h generalizing e? f? position with
  | nil => exact .ok trivial
  | @cons a b as bs hab _ ih =>
    have hisIn : a.isIn start stop = b.isIn start stop := by
      rw [Edit.isIn, Edit.isIn, hab.span_eq]
    have hoverlap : (e?.filter fun e => a.span.start < e.span.stop).map Edit.span =
        (f?.filter fun f => b.span.start < f.span.stop).map Edit.span := by
      have hfilter (g? : Option Edit) :
        (g?.filter fun g => b.span.start < g.span.stop).map Edit.span
          = (g?.map Edit.span).filter fun span => b.span.start < span.stop := by
        cases g? with
        | none => rfl
        | some g => simp only [Option.filter_some, Option.map_some]; split <;> rfl
      rw [hab.span_eq, hfilter, hfilter, hprevious]
    rw [splice, splice, hisIn, hab.span_eq]
    rw [hab.span_eq] at hoverlap
    split
    · split
      · exact .error rfl
      · generalize (e?.filter fun e => b.span.start < e.span.stop) = g? at hoverlap ⊢
        generalize (f?.filter fun f => b.span.start < f.span.stop) = g'? at hoverlap ⊢
        have hrest := @ih b.span.stop (some a) (some b) (congrArg some hab.span_eq)
        cases g? with
        | some g =>
          obtain ⟨g', rfl, hspan⟩ := Option.map_eq_some_iff.1 hoverlap.symm
          exact .error (by rw [hspan])
        | none =>
          obtain rfl : g'? = none := Option.map_eq_none_iff.1 hoverlap.symm
          generalize splice text start stop b.span.stop (some a) as = x at hrest ⊢
          generalize splice text start stop b.span.stop (some b) bs = y at hrest ⊢
          cases hrest with
          | error he => exact .error he
          | ok => exact .ok trivial
    · exact ih position hprevious

namespace Rewriter

variable {r : Routine} {s t stem : Text} {w v : Rewriter}

/-- A body is put together under one prefix if it is under the other. -/
theorem bodyText_parallel (htext : w.buffer.text = v.buffer.text)
    (h : List.Forall₂ (Edit.Exchanges s t) w.buffer.edits v.buffer.edits) :
    Parallel (· = ·) (fun _ _ => True) (bodyText r w) (bodyText r v) := by
  have happly := EditBuffer.splice_parallel (Edit.sort_exchanges h) v.buffer.text
    r.function.bodySpan.start r.function.bodySpan.stop r.function.bodySpan.start
    (rfl : Option.map Edit.span none = Option.map Edit.span none)
  rw [bodyText, bodyText, EditBuffer.apply, EditBuffer.apply, EditBuffer.sorted, EditBuffer.sorted,
    htext]
  generalize EditBuffer.splice _ _ _ _ _ (Edit.sort w.buffer.edits) = x at happly ⊢
  generalize EditBuffer.splice _ _ _ _ _ (Edit.sort v.buffer.edits) = y at happly ⊢
  cases happly with
  | error he => exact .error (congrArg Failure.edit he)
  | ok => exact .ok trivial

/-- A body is rewritten under one prefix if it is under another one with the same stem. -/
theorem rewrite_parallel (hw : w.Consistent r s stem) (hv : v.Consistent r t stem)
    (h : w.Exchanges s t v) :
    Parallel (· = ·) (fun _ _ => True) (rewrite r w).1 (rewrite r v).1 := by
  have hwalk := visitAll_parallel hw hv r.sites
  rw [rewrite_eq, rewrite_eq]
  generalize visitAll r w r.sites = x at hwalk ⊢
  generalize visitAll r v r.sites = y at hwalk ⊢
  cases hwalk with
  | error he => exact .error he
  | ok hafter =>
    obtain ⟨rfl, rfl⟩ := hafter
    refine bodyText_parallel ?_ (after_exchanges hw hv h r.sites).edits
    rw [(after_consistent hw r.sites).text_eq, (after_consistent hv r.sites).text_eq]

/-- What a rewriter begins with is the same but for the prefix. -/
theorem ofAnchored?_parallel (f : AnchoredFunction) (s t stem stem' : Text) :
    Parallel (· = ·) (Rewriter.Exchanges s t) (ofAnchored? f ⟨s, stem, [], []⟩)
      (ofAnchored? f ⟨t, stem', [], []⟩) := by
  rw [ofAnchored?, ofAnchored?]
  cases checkParameters f.params with
  | error e => exact .error rfl
  | ok =>
    refine .ok ⟨.nil, ?_, .nil, rfl⟩
    have hargument (i : Nat) : ArgumentUsage.Exchanges s t
        { name := (Namer.mk s stem [] []).argument i }
        { name := (Namer.mk t stem' [] []).argument i } :=
      ⟨⟨.argument i, rfl, rfl⟩, rfl, rfl, rfl⟩
    exact List.forall₂_map_left_iff.2 (List.forall₂_map_right_iff.2
      (List.forall₂_same.2 fun i _ => hargument i))

end Rewriter

/-! ## Two compilations -/

/-- The names listed behind a walk are the same but for the prefix. -/
theorem CompiledRoutine.exchanges_of_rewriter {s t body body' : Text} {w v : Rewriter}
    (h : w.Exchanges s t v) :
    CompiledRoutine.Exchanges s t
      ⟨body, w.arguments, w.namer.propertyNames, w.namer.localNames⟩
      ⟨body', v.arguments, v.namer.propertyNames, v.namer.localNames⟩ :=
  ⟨h.arguments, congrArg uniqueNames h.properties, uniqueNames_exchanges h.locals⟩

namespace Compiler

/-- A function is flattened under one prefix if it is under another one with the same stem. -/
theorem flatten_parallel {c d : Compiler} (hstem : d.stem = c.stem)
    (hglobal : d.isGlobal = c.isGlobal) (s t : Text) (f : AnchoredFunction) :
    Parallel (· = ·) (fun _ _ => True) (c.flatten s f) (d.flatten t f) := by
  have hfresh := Rewriter.ofAnchored?_parallel f s t c.stem c.stem
  rw [flatten, flatten, hstem, hglobal]
  generalize hx : Rewriter.ofAnchored? f ⟨s, c.stem, [], []⟩ = x at hfresh ⊢
  generalize hy : Rewriter.ofAnchored? f ⟨t, c.stem, [], []⟩ = y at hfresh ⊢
  cases hfresh with
  | error he => exact .error he
  | @ok w v h =>
    have hrewrite := Rewriter.rewrite_parallel (r := ⟨f, c.isGlobal⟩)
      (Rewriter.ofAnchored?_consistent hx) (Rewriter.ofAnchored?_consistent hy) h
    dsimp only
    generalize Rewriter.rewrite ⟨f, c.isGlobal⟩ w = p at hrewrite ⊢
    generalize Rewriter.rewrite ⟨f, c.isGlobal⟩ v = p' at hrewrite ⊢
    obtain ⟨result, w'⟩ := p
    obtain ⟨result', v'⟩ := p'
    cases hrewrite with
    | error he => exact .error he
    | ok => exact .ok trivial

/-- **The prefix has no influence but on the names that begin with it.**  Let a routine be compiled
twice, with the same globals.  If the stems are the same, then either both compilations fail, for
the same cause, or both succeed, whatever the numbers are.  If both succeed, also with different
stems, then the edits recorded are the same but for the prefix, in the order of recording and in the
order in which the bodies consist of them, and so is all that is said about the bodies. -/
theorem compile_exchanges_prefix {c d : Compiler} (hglobals : d.config.globals = c.config.globals)
    (hfurther : d.isFurtherGlobal = c.isFurtherGlobal) (source : RoutineSource) (n m : Nat) :
    (d.stem = c.stem →
      (∃ e, (c.compile source ⟨n⟩).1 = .error e ∧ (d.compile source ⟨m⟩).1 = .error e) ∨
      ∃ a b, (c.compile source ⟨n⟩).1 = .ok a ∧ (d.compile source ⟨m⟩).1 = .ok b) ∧
    ∀ a b, (c.compile source ⟨n⟩).1 = .ok a → (d.compile source ⟨m⟩).1 = .ok b →
      let s := PrefixSequence.prefixFor c.stem n
      let t := PrefixSequence.prefixFor d.stem m
      ∃ f w w' v v' es fs, (source.text >>= anchor) = .ok f ∧
        Rewriter.ofAnchored? f ⟨s, c.stem, [], []⟩ = .ok w ∧
        Rewriter.rewrite ⟨f, c.isGlobal⟩ w = (.ok a.body, w') ∧
        Rewriter.ofAnchored? f ⟨t, d.stem, [], []⟩ = .ok v ∧
        Rewriter.rewrite ⟨f, d.isGlobal⟩ v = (.ok b.body, v') ∧
        List.Forall₂ (Edit.Exchanges s t) w'.buffer.edits v'.buffer.edits ∧
        es.Perm w'.buffer.edits ∧ fs.Perm v'.buffer.edits ∧
        List.Forall₂ (Edit.Exchanges s t) es fs ∧
        a.body = f.editedBody es ∧ b.body = f.editedBody fs ∧
        a.Exchanges s t b := by
  have hglobal : d.isGlobal = c.isGlobal := by
    funext x
    rw [isGlobal, isGlobal, hglobals, hfurther]
  refine ⟨fun hstem => ?_, fun a b ha hb => ?_⟩
  · rw [compile, compile]
    cases source.text >>= anchor with
    | error e => exact .inl ⟨e, rfl, rfl⟩
    | ok f => exact (flatten_parallel hstem hglobal _ _ f).outcome
  · obtain ⟨f, hf, hflattens⟩ := compile_flattens ha
    obtain ⟨f', hf', hflattens'⟩ := compile_flattens hb
    obtain rfl : f = f' := Except.ok.inj (hf.symm.trans hf')
    obtain ⟨w, w', hw, hrewrite, hafter, hedits, ha⟩ := hflattens.gathered
    obtain ⟨v, v', hv, hrewrite', hafter', hedits', hb⟩ := hflattens'.gathered
    have hfresh := Rewriter.ofAnchored?_parallel f (PrefixSequence.prefixFor c.stem n)
      (PrefixSequence.prefixFor d.stem m) c.stem d.stem
    rw [hw, hv] at hfresh
    obtain ⟨⟩ | ⟨hfresh⟩ := hfresh
    have hexchanges : w'.Exchanges (PrefixSequence.prefixFor c.stem n)
        (PrefixSequence.prefixFor d.stem m) v' := by
      rw [hafter, hafter', hglobal]
      exact Rewriter.after_exchanges (Rewriter.ofAnchored?_consistent hw)
        (Rewriter.ofAnchored?_consistent hv) hfresh _
    refine ⟨f, w, w', v, v', _, _, hf, hw, hrewrite, hv, hrewrite', hexchanges.edits,
      hedits ▸ Edit.sort_perm _, hedits' ▸ Edit.sort_perm _, Edit.sort_exchanges ?_,
      hflattens.body_eq, hflattens'.body_eq, ?_⟩
    · rw [← hedits, ← hedits']
      exact hexchanges.edits
    · rw [ha, hb]
      exact CompiledRoutine.exchanges_of_rewriter hexchanges

/-- The routine `x=>x+this.x+y` under `k_7_` and under `q_12_`: only the name of its parameter
differs. -/
theorem compile_exchanges_prefix_sample :
    ∃ a b, (sample.compile sampleSource ⟨7⟩).1 = .ok a ∧
      (Compiler.compile { sample with stem := .ofChars ['q', '_'] } sampleSource ⟨12⟩).1 = .ok b ∧
      a.Exchanges (.ofChars ['k', '_', '7', '_']) (.ofChars ['q', '_', '1', '2', '_']) b := by
  have hsome : (sample.compile sampleSource ⟨7⟩).1.toOption.isSome = true := by decide +kernel
  have hsome' : (Compiler.compile { sample with stem := .ofChars ['q', '_'] } sampleSource
      ⟨12⟩).1.toOption.isSome = true := by decide +kernel
  obtain ⟨a, ha⟩ := Option.isSome_iff_exists.1 hsome
  obtain ⟨b, hb⟩ := Option.isSome_iff_exists.1 hsome'
  have ha := congrArg Prod.fst (compile_eq_of_toOption ha rfl)
  have hb := congrArg Prod.fst (compile_eq_of_toOption hb rfl)
  obtain ⟨-, hexchanges⟩ := compile_exchanges_prefix (c := sample)
    (d := { sample with stem := .ofChars ['q', '_'] }) rfl rfl sampleSource 7 12
  obtain ⟨-, -, -, -, -, -, -, -, -, -, -, -, -, -, -, -, -, -, h⟩ := hexchanges a b ha hb
  exact ⟨a, b, ha, hb, h⟩

end Compiler
end Elementwise
