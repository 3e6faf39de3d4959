import Elementwise.Proofs.ListedNames
import Elementwise.Proofs.Spelling

/-!
# The text of a compiled body

A compiled body is the text of the function's body with the edits of its sites, applied in the order
of their places.  What a successful compilation gives is told here once by the routine and the
prefix alone, so that statements about compiled bodies need not open the rewriter again.

## What is here

* `Text.substitute_append_cons`, `Text.substitute_keeps` — parts of a text in which some parts are
  replaced.
* `AnchoredFunction.editedBody` — the body of a function with some edits applied.
* `AnchoredFunction.editedBody_eq_append` — such a body in two parts, divided where an offset of the
  text has moved; what begins the second part.
* `Routine.Flattens` — what a routine becomes under a prefix.
* `Compiler.compile_flattens` — a successful compilation gives what the routine becomes.
-/

set_option autoImplicit false
namespace Elementwise

namespace Text

/-- In front of an edit the text is what the edits before it make of it, and so it is behind. -/
theorem substitute_append_cons (t : Text) (es₁ : List Edit) (e : Edit) (es₂ : List Edit)
    (position stop : Nat) :
    t.substitute position stop (es₁ ++ e :: es₂) =
      t.substitute position e.span.start es₁ ++ e.replacement ++
        t.substitute e.span.stop stop es₂ := by
  induction es₁ generalizing position with
  | nil => rfl
  | cons f es₁ ih => simp only [List.cons_append, substitute, ih, List.append_assoc]

/-- A part of a text that no edit touches is kept. -/
theorem substitute_keeps (t : Text) {es : List Edit} {s : Span} {position stop : Nat}
    (hs : s.Within position stop) (hwithin : ∀ e ∈ es, e.span.Within position stop)
    (hbehind : es.Pairwise fun a b => a.span.stop ≤ b.span.start)
    (hapart : ∀ e ∈ es, e.span.Apart s) :
    ∃ before after, t.substitute position stop es = before ++ t.slice s ++ after := by
  have hslice {i j : Nat} (h : s.Within i j) :
      t.slice ⟨i, j⟩ = t.slice ⟨i, s.start⟩ ++ t.slice s ++ t.slice ⟨s.stop, j⟩ := by
    obtain ⟨h₁, h₂, h₃⟩ := h
    rw [slice_append t h₁ h₂, slice_append t (by omega) h₃]
  induction es generalizing position with
  | nil => exact ⟨_, _, hslice hs⟩
  | cons e es ih =>
    obtain ⟨hnext, hbehind⟩ := List.pairwise_cons.1 hbehind
    obtain ⟨h₁, h₂, h₃⟩ := hs
    rcases hapart e (by simp) with hbefore | hafter
    · have hrest : ∀ f ∈ es, f.span.Within e.span.stop stop := fun f hf =>
        ⟨hnext f hf, (hwithin f (by simp [hf])).2⟩
      obtain ⟨before, after, h⟩ := ih ⟨hbefore, h₂, h₃⟩ hrest hbehind fun f hf =>
        hapart f (by simp [hf])
      exact ⟨t.slice ⟨position, e.span.start⟩ ++ e.replacement ++ before, after, by
        rw [substitute, h]
        simp only [List.append_assoc]⟩
    · refine ⟨t.slice ⟨position, s.start⟩, t.slice ⟨s.stop, e.span.start⟩ ++ e.replacement ++
        t.substitute e.span.stop stop es, ?_⟩
      rw [substitute, hslice ⟨h₁, h₂, hafter⟩]
      simp only [List.append_assoc]

/-- Edits in front of an offset, and edits behind it. -/
theorem substitute_append (t : Text) {es₁ es₂ : List Edit} {position i stop : Nat}
    (hout : position ≤ i ∧ i ≤ stop) (hfront : ∀ e ∈ es₁, e.span.stop ≤ i)
    (hback : ∀ e ∈ es₂.head?, i ≤ e.span.start) :
    t.substitute position stop (es₁ ++ es₂) =
      t.substitute position i es₁ ++ t.substitute i stop es₂ := by
  induction es₁ generalizing position with
  | nil =>
    cases es₂ with
    | nil => exact (slice_append t hout.1 hout.2).symm
    | cons e es =>
      rw [List.nil_append, substitute, substitute, substitute,
        ← slice_append t hout.1 (hback e rfl)]
      simp only [List.append_assoc]
  | cons e es ih =>
    obtain ⟨he, hes⟩ := List.forall_mem_cons.1 hfront
    rw [List.cons_append, substitute, substitute, ih ⟨he, hout.2⟩ hes]
    simp only [List.append_assoc]

end Text

/-- The body of a function with edits that lie in it, each behind the one before.  An expression
becomes a block that returns it. -/
def AnchoredFunction.editedBody (f : AnchoredFunction) (es : List Edit) : Text :=
  let flat := f.text.substitute f.bodySpan.start f.bodySpan.stop es
  if f.isExpressionBody then
    .ofChars ['{', 'r', 'e', 't', 'u', 'r', 'n', ' '] ++ flat ++ .ofChars [';', '}']
  else flat

namespace AnchoredFunction

/-- The edited body in front of what was at an offset of the text. -/
def editedUpTo (f : AnchoredFunction) (es : List Edit) (i : Nat) : Text :=
  let flat := f.text.substitute f.bodySpan.start i (es.takeWhile fun e => e.span.stop ≤ i)
  if f.isExpressionBody then .ofChars ['{', 'r', 'e', 't', 'u', 'r', 'n', ' '] ++ flat else flat

/-- The edited body from what was at an offset of the text on. -/
def editedFrom (f : AnchoredFunction) (es : List Edit) (i : Nat) : Text :=
  let flat := f.text.substitute i f.bodySpan.stop (es.dropWhile fun e => e.span.stop ≤ i)
  if f.isExpressionBody then flat ++ .ofChars [';', '}'] else flat

variable {f : AnchoredFunction} {es : List Edit} {i j : Nat}

/-- What comes first of the edits that do not end in front of an offset begins behind it, if there
is no edit across the offset. -/
theorem start_of_mem_dropWhile (hapart : ∀ e ∈ es, e.span.stop ≤ i ∨ i ≤ e.span.start) :
    ∀ e ∈ (es.dropWhile fun e => e.span.stop ≤ i).head?, i ≤ e.span.start := by
  intro e he
  have hstop := List.head?_dropWhile_not (fun e : Edit => decide (e.span.stop ≤ i)) es
  rw [he] at hstop
  refine (hapart e ((List.dropWhile_suffix _).subset (List.mem_of_mem_head? he))).resolve_left ?_
  exact of_decide_eq_false hstop

/-- **An edited body in two parts**, divided where no edit lies across. -/
theorem editedBody_eq_append (hi : f.bodySpan.start ≤ i ∧ i ≤ f.bodySpan.stop)
    (hapart : ∀ e ∈ es, e.span.stop ≤ i ∨ i ≤ e.span.start) :
    f.editedBody es = f.editedUpTo es i ++ f.editedFrom es i := by
  have hflat : f.text.substitute f.bodySpan.start f.bodySpan.stop es =
      f.text.substitute f.bodySpan.start i (es.takeWhile fun e => e.span.stop ≤ i) ++
        f.text.substitute i f.bodySpan.stop (es.dropWhile fun e => e.span.stop ≤ i) := by
    rw [← f.text.substitute_append hi (fun e he => ?_) (start_of_mem_dropWhile hapart),
      List.takeWhile_append_dropWhile]
    simpa using List.mem_takeWhile_imp he
  rw [editedBody, editedUpTo, editedFrom, hflat]
  split <;> simp only [List.append_assoc]

/-- What no edit touches comes first in the second part. -/
theorem editedFrom_keeps (hij : i ≤ j ∧ j ≤ f.bodySpan.stop)
    (hnonempty : ∀ e ∈ es, e.span.start < e.span.stop)
    (hapart : ∀ e ∈ es, e.span.stop ≤ i ∨ j ≤ e.span.start) :
    f.editedFrom es i = f.text.slice ⟨i, j⟩ ++ f.editedFrom es j := by
  have hdrop : (es.dropWhile fun e => e.span.stop ≤ i) = es.dropWhile fun e => e.span.stop ≤ j := by
    induction es with
    | nil => rfl
    | cons e es ih =>
      obtain ⟨he, hnonempty⟩ := List.forall_mem_cons.1 hnonempty
      obtain ⟨hi, hapart⟩ := List.forall_mem_cons.1 hapart
      have hiff : e.span.stop ≤ i ↔ e.span.stop ≤ j := by omega
      simp only [List.dropWhile_cons, hiff, ih hnonempty hapart]
  have hstart : ∀ e ∈ (es.dropWhile fun e => e.span.stop ≤ j).head?, j ≤ e.span.start :=
    start_of_mem_dropWhile fun e he => (hapart e he).imp_left fun h => h.trans hij.1
  have hnone : ∀ e ∈ ([] : List Edit), e.span.stop ≤ j := nofun
  have hflat := f.text.substitute_append hij hnone hstart
  rw [editedFrom, editedFrom, hdrop]
  rw [List.nil_append] at hflat
  rw [hflat, Text.substitute]
  split <;> simp only [List.append_assoc]

/-- What an edit writes comes first in the second part. -/
theorem editedFrom_of_mem {e : Edit} (he : e ∈ es)
    (hnonempty : ∀ e ∈ es, e.span.start < e.span.stop)
    (hbehind : es.Pairwise fun a b => a.span.stop ≤ b.span.start) :
    f.editedFrom es e.span.start = e.replacement ++ f.editedFrom es e.span.stop := by
  obtain ⟨es₁, es₂, rfl⟩ := List.append_of_mem he
  obtain ⟨-, hbehind, hfront⟩ := List.pairwise_append.1 hbehind
  obtain ⟨hback, -⟩ := List.pairwise_cons.1 hbehind
  have he := hnonempty e he
  have hstart : ((es₁ ++ e :: es₂).dropWhile fun a => a.span.stop ≤ e.span.start) = e :: es₂ := by
    rw [List.dropWhile_append_of_pos fun a ha => decide_eq_true (hfront a ha e List.mem_cons_self),
      List.dropWhile_cons_of_neg (by simpa using he)]
  have hstop : ((es₁ ++ e :: es₂).dropWhile fun a => a.span.stop ≤ e.span.stop) = es₂ := by
    rw [List.dropWhile_append_of_pos fun a ha =>
      decide_eq_true ((hfront a ha e List.mem_cons_self).trans he.le),
      List.dropWhile_cons_of_pos (by simp)]
    cases es₂ with
    | nil => rfl
    | cons a es₂ =>
      have ha := hback a List.mem_cons_self
      have := hnonempty a (by simp)
      exact List.dropWhile_cons_of_neg (by simp; omega)
  have hnil : f.text.slice ⟨e.span.start, e.span.start⟩ = [] := by simp [Text.slice]
  rw [editedFrom, editedFrom, hstart, hstop, Text.substitute, hnil, List.nil_append]
  split <;> simp only [List.append_assoc]

end AnchoredFunction

/-- What a routine becomes under a prefix: nothing in it is refused, the edits of its sites lie in
the body, each behind the one before, and the body consists of them and of what is between them;
what else is said about it was gathered on the way. -/
structure Routine.Flattens (r : Routine) (stem scope : Text) (out : CompiledRoutine) : Prop where
  accepted : ∀ s ∈ r.sites, r.rejection? stem s = none
  within : ∀ e ∈ r.replacements scope,
    e.span.Within r.function.bodySpan.start r.function.bodySpan.stop
  behind : (Edit.sort (r.replacements scope)).Pairwise fun a b => a.span.stop ≤ b.span.start
  body_eq : out.body = r.function.editedBody (Edit.sort (r.replacements scope))
  gathered : ∃ w w', Rewriter.ofAnchored? r.function { scope, stem } = .ok w ∧
    Rewriter.rewrite r w = (.ok out.body, w') ∧
    w' = w.after r scope r.sites ∧ w'.buffer.edits = r.replacements scope ∧
    out = ⟨out.body, w'.arguments, w'.namer.propertyNames, w'.namer.localNames⟩

/-- **A successful compilation gives what the routine becomes** under the prefix made from the
number drawn. -/
theorem Compiler.compile_flattens {c : Compiler} {source : RoutineSource} {q : PrefixSequence}
    {out : CompiledRoutine} (h : (c.compile source q).1 = .ok out) :
    ∃ f, (source.text >>= anchor) = .ok f ∧
      Routine.Flattens ⟨f, c.isGlobal⟩ c.stem (PrefixSequence.prefixFor c.stem q.next) out := by
  obtain ⟨f, w, w', hf, -, hw, hrewrite, hout⟩ := compile_ok (Prod.ext h rfl)
  have hconsistent : w.Consistent ⟨f, c.isGlobal⟩ _ c.stem := Rewriter.ofAnchored?_consistent hw
  obtain ⟨haccepted, hafter⟩ := Rewriter.rewrite_ok hconsistent hrewrite
  have hedits : w'.buffer.edits = Routine.replacements ⟨f, c.isGlobal⟩
      (PrefixSequence.prefixFor c.stem q.next) := by
    rw [hafter, Rewriter.after_edits, Rewriter.ofAnchored?_edits hw, List.nil_append,
      Routine.replacements]
  have htext : w'.buffer.text = f.text := by
    rw [hafter, (Rewriter.after_consistent hconsistent _).text_eq]
  obtain ⟨t, hanchor⟩ := exists_anchor_eq_ok hf
  have hwithin := (Routine.replacements_fit (r := ⟨f, c.isGlobal⟩)
    (PrefixSequence.prefixFor c.stem q.next) (anchor_placed hanchor).2).1
  obtain ⟨hbehind, hbody⟩ := Rewriter.bodyText_eq_sort (by rwa [hedits])
    (Rewriter.bodyText_of_rewrite hrewrite)
  rw [hedits] at hbehind hbody
  rw [htext] at hbody
  exact ⟨f, hf, haccepted, hwithin, hbehind, hbody, w, w', hw, hrewrite, hafter, hedits, hout⟩

end Elementwise
