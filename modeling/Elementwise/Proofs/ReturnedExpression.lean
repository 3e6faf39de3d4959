import Elementwise.Proofs.RespelledParameter
import Elementwise.Proofs.UndoneEdit

/-!
# Expressions that are returned

A function whose body is an expression does the same as one with a block that returns the
expression, and it is flattened to the same body.  In the one the block is written around the new
text of the expression; in the other it is in the source already, so that the text that edits are
applied to begins earlier and ends later.  As nothing is replaced in what is written around the
expression, this makes no difference.

## What is here

* `AnchoredFunction.Returns` — a function returns from a block the expression that is the body of
  another one.
* `EditBuffer.apply_widen` — a window that is larger than what is edited in it.
* `Compiler.flatten_block` — a block around an expression is kept.
* `Compiler.flatten_returned` — both functions are flattened to the same body, or neither is.
-/

set_option autoImplicit false
namespace Elementwise

namespace Text

/-- What is written in front of an expression to return it from a block. -/
def returnFront : Text := .ofChars ['{', 'r', 'e', 't', 'u', 'r', 'n', ' ']

/-- What is written behind an expression to return it from a block. -/
def returnBack : Text := .ofChars [';', '}']

/-- A part of a part of a text. -/
theorem slice_slice (t : Text) {i j p q : Nat} (hq : i + q ≤ j) :
    (t.slice ⟨i, j⟩).slice ⟨p, q⟩ = t.slice ⟨i + p, i + q⟩ := by
  rw [slice, slice, slice, List.take_drop, List.drop_drop, List.take_take, Nat.min_eq_left hq]

/-- A part of what stands in the middle of a text. -/
theorem slice_append_middle (front middle back : Text) {p q : Nat} (hq : q ≤ middle.length) :
    (front ++ middle ++ back).slice ⟨front.length + p, front.length + q⟩ = middle.slice ⟨p, q⟩ := by
  rw [← slice_slice (j := front.length + middle.length) _ (Nat.add_le_add_left hq _), slice_middle]

end Text

/-! ## Windows that are larger than what is edited -/

namespace EditBuffer

section
variable {text : Text} {start start' stop' stop : Nat}

/-- What stands behind all edits of a window is kept. -/
theorem splice_widen (hstart : start ≤ start') (hstop : stop' ≤ stop) :
    ∀ {es : List Edit} {position : Nat} {previous : Option Edit}, position ≤ stop' →
      (∀ e ∈ es, e.span.Within start' stop') →
      splice text start stop position previous es =
        (splice text start' stop' position previous es).map (· ++ text.slice ⟨stop', stop⟩)
  | [], position, previous, hposition, _ => by
    rw [splice, splice, Text.between_ofNat, Text.between_ofNat,
      ← Text.slice_append text hposition hstop]
    rfl
  | e :: es, position, previous, hposition, hwithin => by
    obtain ⟨⟨h₁, h₂, h₃⟩, hwithin⟩ := List.forall_mem_cons.1 hwithin
    have hin : e.isIn start stop = true := Edit.isIn_of_within ⟨hstart.trans h₁, h₂, h₃.trans hstop⟩
    have hin' : e.isIn start' stop' = true := Edit.isIn_of_within ⟨h₁, h₂, h₃⟩
    rw [splice, splice, if_pos hin, if_pos hin', if_neg (by omega), if_neg (by omega)]
    split
    · rfl
    · rw [splice_widen hstart hstop h₃ hwithin]
      cases splice text start' stop' e.span.stop (some e) es with
      | error err => rfl
      | ok rest => exact congrArg Except.ok (List.append_assoc ..).symm

/-- What stands in front of all edits of a window is kept. -/
theorem splice_start (hstart : start ≤ start') (hle : start' ≤ stop) {es : List Edit}
    {previous : Option Edit} (hwithin : ∀ e ∈ es, e.span.Within start' stop) :
    splice text start stop start previous es =
      (splice text start stop start' previous es).map (text.slice ⟨start, start'⟩ ++ ·) := by
  cases es with
  | nil =>
    rw [splice, splice, Text.between_ofNat, Text.between_ofNat, ← Text.slice_append text hstart hle]
    rfl
  | cons e es =>
    obtain ⟨⟨h₁, h₂, h₃⟩, -⟩ := List.forall_mem_cons.1 hwithin
    have hin : e.isIn start stop = true := Edit.isIn_of_within ⟨hstart.trans h₁, h₂, h₃⟩
    rw [splice, splice, if_pos hin, if_pos hin, if_neg (by omega), if_neg (by omega)]
    split
    · rfl
    · cases splice text start stop e.span.stop (some e) es with
      | error err => rfl
      | ok rest =>
        refine congrArg Except.ok ?_
        rw [Text.between_ofNat, Text.between_ofNat, ← Text.slice_append text hstart h₁]
        simp only [List.append_assoc]

/-- **A window can be made larger** where nothing is edited: what stands there is kept, and the
window is refused for the same reason. -/
theorem apply_widen {b : EditBuffer} (hstart : start ≤ start') (hle : start' ≤ stop')
    (hstop : stop' ≤ stop) (hwithin : ∀ e ∈ b.edits, e.span.Within start' stop') :
    b.apply start stop = (b.apply start' stop').map fun out =>
      b.text.slice ⟨start, start'⟩ ++ out ++ b.text.slice ⟨stop', stop⟩ := by
  have hsorted : ∀ e ∈ b.sorted, e.span.Within start' stop' := fun e he =>
    hwithin e ((Edit.sort_perm _).mem_iff.1 he)
  rw [apply, apply, splice_start hstart (hle.trans hstop) fun e he =>
      ⟨(hsorted e he).1, (hsorted e he).2.1, (hsorted e he).2.2.trans hstop⟩,
    splice_widen hstart hstop hle hsorted]
  cases splice b.text start' stop' start' none b.sorted with
  | error err => rfl
  | ok out => exact congrArg Except.ok (List.append_assoc ..).symm

end

end EditBuffer

/-! ## A block around an expression -/

/-- The sites of a block that returns an expression are those of the expression. -/
theorem Node.filterMap_site?_block (s s' : Span) (e : Node) :
    (block s [returning s' (some e)]).occurrences.filterMap Occurrence.site? =
      e.occurrences.filterMap Occurrence.site? := by
  have hblock : Occurrence.inside ⟨.value .plain, block s [returning s' (some e)]⟩ =
      [⟨.value .plain, returning s' (some e)⟩] := rfl
  have hreturning : Occurrence.inside ⟨.value .plain, returning s' (some e)⟩ =
      [⟨.value .plain, e⟩] := rfl
  change Occurrence.sites ⟨.value .plain, block s [returning s' (some e)]⟩ =
    Occurrence.sites ⟨.value .plain, e⟩
  rw [Occurrence.sites_eq, hblock, List.flatMap_singleton, Occurrence.sites_eq, hreturning,
    List.flatMap_singleton]
  rfl

/-- A function with another body. -/
def AnchoredFunction.withBody (f : AnchoredFunction) (body : Node) (bodySpan : Span) :
    AnchoredFunction :=
  { f with body, bodySpan }

/-- The body of a function is a block that returns an expression, written without blanks around it,
in which the sites of the expression lie. -/
structure AnchoredFunction.ReturnsAt (f : AnchoredFunction) (e : Node) (span : Span) : Prop where
  body : ∃ s s', f.body = .block s [.returning s' (some e)]
  expression : (f.withBody e span).isExpressionBody = true
  forward : span.start ≤ span.stop
  inside : f.bodySpan.start ≤ span.start ∧ span.stop ≤ f.bodySpan.stop
  covers : ∀ s ∈ e.occurrences.filterMap Occurrence.site?,
    span.start ≤ s.span.start ∧ s.span.stop ≤ span.stop
  front : f.text.slice ⟨f.bodySpan.start, span.start⟩ = Text.returnFront
  back : f.text.slice ⟨span.stop, f.bodySpan.stop⟩ = Text.returnBack

namespace Rewriter

/-- What becomes of sites does not depend on the body in which they stand. -/
theorem visitAll_withBody (f : AnchoredFunction) (e : Node) (span : Span) (g : Text → Bool)
    (ss : List Site) (w : Rewriter) :
    visitAll ⟨f.withBody e span, g⟩ w ss = visitAll ⟨f, g⟩ w ss := by
  have hvisit (w : Rewriter) (s : Site) : visit ⟨f.withBody e span, g⟩ w s = visit ⟨f, g⟩ w s := by
    cases s <;> rfl
  induction ss generalizing w with
  | nil => rfl
  | cons s ss ih =>
    rw [visitAll, visitAll, hvisit]
    cases visit ⟨f, g⟩ w s with
    | error e => rfl
    | ok w' => exact ih w'

variable {f : AnchoredFunction} {e : Node} {span : Span} {g : Text → Bool} {w : Rewriter}

/-- A block that is in the text is kept, and else it is written. -/
theorem bodyText_block (h : f.ReturnsAt e span) (htext : w.buffer.text = f.text)
    (hedits : ∀ e ∈ w.buffer.edits, e.span.Within span.start span.stop) :
    bodyText ⟨f, g⟩ w = bodyText ⟨f.withBody e span, g⟩ w := by
  obtain ⟨s, s', hbody⟩ := h.body
  have hblock : f.isExpressionBody = false := by rw [AnchoredFunction.isExpressionBody, hbody]
  have hspan : (f.withBody e span).bodySpan = span := rfl
  rw [bodyText, bodyText, hblock, h.expression, hspan,
    EditBuffer.apply_widen h.inside.1 h.forward h.inside.2 hedits, htext, h.front, h.back]
  cases w.buffer.apply span.start span.stop <;> rfl

theorem rewrite_block (h : f.ReturnsAt e span) {scope stem : Text}
    (hw : w.Consistent ⟨f, g⟩ scope stem) (hfresh : w.buffer.edits = []) :
    rewrite ⟨f, g⟩ w = rewrite ⟨f.withBody e span, g⟩ w := by
  have hsites : Routine.sites ⟨f, g⟩ = Routine.sites ⟨f.withBody e span, g⟩ := by
    obtain ⟨s, s', hbody⟩ := h.body
    rw [Routine.sites, hbody]
    exact Node.filterMap_site?_block s s' e
  rw [rewrite_eq, rewrite_eq, visitAll_withBody, ← hsites]
  cases hvisit : visitAll ⟨f, g⟩ w (Routine.sites ⟨f, g⟩) with
  | error err => rfl
  | ok w' =>
    obtain ⟨-, hwithin, hafter⟩ := (visitAll_eq_ok_iff hw _).1 hvisit
    have htext : w'.buffer.text = f.text := by rw [hafter, (after_consistent hw _).text_eq]
    have hedits : ∀ e ∈ w'.buffer.edits, e.span.Within span.start span.stop := by
      rw [hafter, after_edits, hfresh, List.nil_append]
      intro edit hedit
      obtain ⟨s, hs, hsite⟩ := List.mem_filterMap.1 hedit
      rw [hsites] at hs
      obtain ⟨hstart, hstop⟩ := h.covers s hs
      rw [← Routine.span_of_edit? hsite] at hstart hstop
      exact ⟨hstart, (hwithin edit hedit).2.1, hstop⟩
    exact congrArg (·, w') (bodyText_block h htext hedits)

end Rewriter

/-- **A block around an expression is kept.**  A function with a block that returns an expression is
flattened as if its body were the expression. -/
theorem Compiler.flatten_block {c : Compiler} {scope : Text} {f : AnchoredFunction} {e : Node}
    {span : Span} (h : f.ReturnsAt e span) :
    c.flatten scope f = c.flatten scope (f.withBody e span) := by
  have hfresh : Rewriter.ofAnchored? (f.withBody e span) { scope, stem := c.stem } =
    Rewriter.ofAnchored? f { scope, stem := c.stem } := rfl
  rw [flatten, flatten, hfresh]
  cases hw : Rewriter.ofAnchored? f { scope, stem := c.stem } with
  | error err => rfl
  | ok w =>
    dsimp only
    rw [Rewriter.rewrite_block h (Rewriter.ofAnchored?_consistent hw)
      (Rewriter.ofAnchored?_edits hw)]

/-! ## The same expression in two functions -/

/-- Moves offsets, so that what began at one offset begins at another. -/
def Relabelling.shift (i j : Nat) : Relabelling where
  offset k := j + (k - i)
  name := id

/-- A function that returns from a block what is the body of another function, for the same
parameters.  The sites of the expression lie in its span. -/
structure AnchoredFunction.Returns (f f' : AnchoredFunction) : Prop where
  expression : f.isExpressionBody = true
  span : f.bodySpan.Within 0 f.text.length
  covers : ∀ s ∈ f.body.occurrences.filterMap Occurrence.site?,
    (f.bodySpan.start ≤ s.span.start ∧ s.span.start ≤ f.bodySpan.stop) ∧
      f.bodySpan.start ≤ s.span.stop ∧ s.span.stop ≤ f.bodySpan.stop
  params : f'.params.map Parameter.name = f.params.map Parameter.name
  body : ∃ s s', f'.body = .block s [.returning s' (some (f.body.relabel
    (.shift f.bodySpan.start (f'.bodySpan.start + Text.returnFront.length))))]
  blockSpan : f'.bodySpan.Within 0 f'.text.length
  text : f'.text.slice f'.bodySpan = Text.returnFront ++ f.text.slice f.bodySpan ++ Text.returnBack

namespace AnchoredFunction

theorem isExpressionBody_relabel (f f' : AnchoredFunction) (l : Relabelling) (span : Span) :
    (f'.withBody (f.body.relabel l) span).isExpressionBody = f.isExpressionBody := by
  have hbody : (f'.withBody (f.body.relabel l) span).body = f.body.relabel l := rfl
  rw [isExpressionBody, isExpressionBody, hbody]
  cases f.body <;> rfl

namespace Returns

variable {f f' : AnchoredFunction}

/-- How the offsets of the expression are moved. -/
def shift (f f' : AnchoredFunction) : Relabelling :=
  .shift f.bodySpan.start (f'.bodySpan.start + Text.returnFront.length)

variable (h : f.Returns f')
include h

/-- The span of the block has room for the expression and for what is written around it. -/
theorem stop_eq : f'.bodySpan.stop = f'.bodySpan.start + Text.returnFront.length +
    (f.bodySpan.stop - f.bodySpan.start) + Text.returnBack.length := by
  have hlength := congrArg List.length h.text
  rw [List.length_append, List.length_append, Text.length_slice h.blockSpan.2.2,
    Text.length_slice h.span.2.2] at hlength
  obtain ⟨-, hforward, -⟩ := h.blockSpan
  omega

/-- What stands in the block. -/
theorem slice_eq {p q : Nat} (hq : f'.bodySpan.start + q ≤ f'.bodySpan.stop) :
    f'.text.slice ⟨f'.bodySpan.start + p, f'.bodySpan.start + q⟩ =
      (Text.returnFront ++ f.text.slice f.bodySpan ++ Text.returnBack).slice ⟨p, q⟩ := by
  rw [← h.text]
  exact (Text.slice_slice f'.text hq).symm

/-- What stands in the expression stands in the block. -/
theorem slice_shift {p q : Nat} (hp : f.bodySpan.start ≤ p) (hpq : p ≤ q)
    (hq : q ≤ f.bodySpan.stop) :
    f'.text.slice ⟨(shift f f').offset p, (shift f f').offset q⟩ = f.text.slice ⟨p, q⟩ := by
  obtain ⟨p, rfl⟩ := Nat.exists_eq_add_of_le hp
  obtain ⟨q, rfl⟩ := Nat.exists_eq_add_of_le (hp.trans hpq)
  have hlength : (f.text.slice f.bodySpan).length = f.bodySpan.stop - f.bodySpan.start :=
    Text.length_slice h.span.2.2
  have hstop := h.stop_eq
  calc f'.text.slice ⟨(shift f f').offset (f.bodySpan.start + p),
        (shift f f').offset (f.bodySpan.start + q)⟩
      = f'.text.slice ⟨f'.bodySpan.start + (Text.returnFront.length + p),
          f'.bodySpan.start + (Text.returnFront.length + q)⟩ := by
        simp only [shift, Relabelling.shift, Nat.add_sub_cancel_left, Nat.add_assoc]
    _ = (f.text.slice f.bodySpan).slice ⟨p, q⟩ := by
        rw [h.slice_eq (by omega), Text.slice_append_middle _ _ _ (by omega)]
    _ = f.text.slice ⟨f.bodySpan.start + p, f.bodySpan.start + q⟩ := Text.slice_slice f.text hq

/-- **The other function returns the expression from a block.** -/
theorem returnsAt : f'.ReturnsAt (f.body.relabel (shift f f')) ((shift f f').span f.bodySpan) := by
  have hlength : (f.text.slice f.bodySpan).length = f.bodySpan.stop - f.bodySpan.start :=
    Text.length_slice h.span.2.2
  have hstop := h.stop_eq
  have hforward : f.bodySpan.start ≤ f.bodySpan.stop := h.span.2.1
  refine ⟨h.body, ?_, ?_, ⟨?_, ?_⟩, ?_, ?_, ?_⟩
  · rw [isExpressionBody_relabel, h.expression]
  · simp only [Relabelling.span, shift, Relabelling.shift]
    omega
  · simp only [Relabelling.span, shift, Relabelling.shift]
    omega
  · simp only [Relabelling.span, shift, Relabelling.shift]
    omega
  · rw [Node.filterMap_site?_relabel, List.forall_mem_map]
    intro s hs
    obtain ⟨⟨h₁, -⟩, -, h₂⟩ := h.covers s hs
    have hspan : (s.relabel (shift f f')).span = (shift f f').span s.span := by cases s <;> rfl
    rw [hspan]
    simp only [Relabelling.span, shift, Relabelling.shift]
    omega
  · have hzero :
        f'.bodySpan.start + Text.returnFront.length + (f.bodySpan.start - f.bodySpan.start) =
          f'.bodySpan.start + Text.returnFront.length := by omega
    change f'.text.slice ⟨f'.bodySpan.start + 0, _⟩ = _
    simp only [Relabelling.span, shift, Relabelling.shift, hzero]
    rw [h.slice_eq (by omega), List.append_assoc]
    exact Text.slice_middle [] Text.returnFront _
  · have hback := Text.slice_middle (Text.returnFront ++ f.text.slice f.bodySpan) Text.returnBack []
    rw [List.append_nil, List.length_append, hlength, ← h.slice_eq (by omega)] at hback
    have hend := hstop
    simp only [Nat.add_assoc] at hback hend
    simp only [Relabelling.span, shift, Relabelling.shift, Nat.add_assoc]
    rw [hend]
    exact hback

/-- **The expression is the same tree in both functions**, and its text is kept. -/
theorem moves (g : Text → Bool) (scope : Text) :
    Routine.Moves (shift f f') {k | f.bodySpan.start ≤ k ∧ k ≤ f.bodySpan.stop}
      (fun _ => False) scope
      ⟨f, g⟩ ⟨f'.withBody (f.body.relabel (shift f f')) ((shift f f').span f.bodySpan), g⟩ where
  ordered p hp q hq hpq := by
    obtain ⟨hp, -⟩ := hp
    simp only [shift, Relabelling.shift]
    omega
  parameters := h.params.trans (List.map_id _).symm
  evalParameter := iff_of_eq (congrArg (Word.eval ∈ ·) h.params)
  sites := Node.filterMap_site?_relabel _ _
  names s _ x _ := by
    have hparams : Routine.parameterNames ⟨f'.withBody (f.body.relabel (shift f f'))
        ((shift f f').span f.bodySpan), g⟩ = Routine.parameterNames ⟨f, g⟩ := h.params
    refine ⟨Iff.rfl, ?_⟩
    rw [hparams]
    by_cases hx : x ∈ Routine.parameterNames ⟨f, g⟩
    · exact .inl ⟨hx, hx, rfl⟩
    · exact .inr ⟨hx, hx, rfl, rfl⟩
  editEnds e he := by
    obtain ⟨s, hs, hedit⟩ := List.mem_filterMap.1 he
    rw [Routine.span_of_edit? hedit]
    exact h.covers s hs
  within s hs e he := by
    rw [Routine.span_of_edit? he]
    obtain ⟨⟨h₁, h₂⟩, h₃, h₄⟩ := h.covers s hs
    have hstop := h.stop_eq
    obtain ⟨-, -, hlength⟩ := h.span
    obtain ⟨-, -, hlength'⟩ := h.blockSpan
    change Span.Within 0 f'.text.length _ ↔ Span.Within 0 f.text.length _
    simp only [Span.Within, Relabelling.span, shift, Relabelling.shift]
    omega
  bodySpan := rfl
  bodyEnds := ⟨⟨Nat.le_refl _, h.span.2.1⟩, h.span.2.1, Nat.le_refl _⟩
  isExpressionBody := isExpressionBody_relabel f f' _ _
  keeps p q hp hpq hq _ := h.slice_shift hp hpq hq
  replaced _ _ _ hlost := hlost.elim

end Returns
end AnchoredFunction

/-- **It makes no difference whether an expression is the body of a function or is returned from a
block.**  Under every prefix the same construct is refused in both functions, or the same body comes
out, with the same parameters, locals and properties; or both fail because what is replaced in the
expression overlaps or ends before it begins. -/
theorem Compiler.flatten_returned {c : Compiler} {f f' : AnchoredFunction} (h : f.Returns f')
    (scope : Text) :
    (∃ construct s s', c.flatten scope f = .error (.rejected construct s) ∧
      c.flatten scope f' = .error (.rejected construct s')) ∨
    (∃ out, c.flatten scope f = .ok out ∧ c.flatten scope f' = .ok out) ∨
    ∃ e e', c.flatten scope f = .error (.edit e) ∧ c.flatten scope f' = .error (.edit e') ∧
      ¬Routine.EditsFit ⟨f, c.isGlobal⟩ scope := by
  have hboth := flatten_moves (c := c) (h.moves c.isGlobal scope)
  rw [← flatten_block h.returnsAt] at hboth
  generalize hx : c.flatten scope f = x at hboth ⊢
  generalize c.flatten scope f' = y at hboth ⊢
  cases hboth with
  | error hfail =>
    cases hfail with
    | rejected construct s s' => exact .inl ⟨construct, s, s', rfl, rfl⟩
    | edit e e' => exact .inr (.inr ⟨e, e', rfl, rfl, Routine.not_editsFit (newBody_of_flatten hx)⟩)
  | ok heq => exact .inr (.inl ⟨_, rfl, congrArg Except.ok heq.symm⟩)

/-- The routine `function(x) { return x + y; }`, written without blanks around the body. -/
def AnchoredFunction.returnedSum : AnchoredFunction where
  text := .ofChars ['(', 'f', 'u', 'n', 'c', 't', 'i', 'o', 'n', '(', 'x', ')', '\x7b',
    'r', 'e', 't', 'u', 'r', 'n', ' ', 'x', '+', 'y', ';', '\x7d', ')', '(', ')']
  isArrow := false
  span := ⟨1, 25⟩
  params := [⟨.ofChars ['x'], ⟨10, 11⟩⟩]
  body := .block ⟨12, 25⟩ [.returning ⟨13, 24⟩ (some (.binary ⟨20, 23⟩ .plus
    (.identifier ⟨20, 21⟩ (.ofChars ['x'])) (.identifier ⟨22, 23⟩ (.ofChars ['y']))))]
  bodySpan := ⟨12, 25⟩

/-- `x=>x+y` and `function(x){return x+y;}` become the same. -/
theorem Compiler.flatten_returned_sum :
    let f := Rewriter.sumRoutine.function
    let f' := AnchoredFunction.returnedSum
    f.Returns f' ∧
      ∃ out, sample.flatten (.ofChars ['k', '_', '7', '_']) f = .ok out ∧
        sample.flatten (.ofChars ['k', '_', '7', '_']) f' = .ok out := by
  intro f f'
  have hreturns : f.Returns f' :=
    ⟨by decide, by decide, by decide +kernel, by decide, ⟨⟨12, 25⟩, ⟨13, 24⟩, rfl⟩,
      by decide, by decide⟩
  have hsome : (sample.flatten (.ofChars ['k', '_', '7', '_']) f).toOption.isSome = true := by
    decide +kernel
  refine ⟨hreturns, ?_⟩
  rcases flatten_returned (c := sample) hreturns (.ofChars ['k', '_', '7', '_'])
    with ⟨construct, s, s', h, -⟩ | hok | ⟨e, e', h, -⟩
  · rw [h] at hsome
    cases hsome
  · exact hok
  · rw [h] at hsome
    cases hsome

/-! ### A shorthand property with its key in brackets -/

/-- The object `{async [-x]}` at an offset. -/
def negatedObject (i : Nat) : Node :=
  .object ⟨i, i + 12⟩ [.property ⟨i + 1, i + 11⟩ .value true false true
    (.unary ⟨i + 8, i + 10⟩ .minus (.identifier ⟨i + 9, i + 10⟩ (.ofChars ['x'])))
    (.identifier ⟨i + 1, i + 11⟩ (.ofChars ['a', 's', 'y', 'n', 'c']))]

/-- Whether a tree is the object `{async [-x]}` at an offset. -/
def isNegatedObject (i : Nat) : Node → Bool
  | .object s [.property s₁ kind computed method shorthand (.unary s₂ op (.identifier s₃ x))
      (.identifier s₄ y)] =>
    decide (s = ⟨i, i + 12⟩ ∧ s₁ = ⟨i + 1, i + 11⟩ ∧ kind = .value ∧ computed = true ∧
      method = false ∧
      shorthand = true ∧ s₂ = ⟨i + 8, i + 10⟩ ∧ op = .minus ∧ s₃ = ⟨i + 9, i + 10⟩ ∧
      x = .ofChars ['x'] ∧ s₄ = ⟨i + 1, i + 11⟩ ∧ y = .ofChars ['a', 's', 'y', 'n', 'c'])
  | _ => false

theorem eq_negatedObject {i : Nat} {n : Node} (h : isNegatedObject i n = true) :
    n = negatedObject i := by
  unfold isNegatedObject at h
  split at h
  · obtain ⟨rfl, rfl, rfl, rfl, rfl, rfl, rfl, rfl, rfl, rfl, rfl, rfl⟩ := of_decide_eq_true h
    rfl
  · cases h

/-- The expression that a block returns. -/
def returned? : Node → Option Node
  | .block _ [.returning _ e?] => e?
  | _ => none

theorem eq_block_of_returned? {n e : Node} (h : returned? n = some e) :
    ∃ s s', n = .block s [.returning s' (some e)] := by
  unfold returned? at h
  split at h
  · exact ⟨_, _, by rw [h]⟩
  · cases h

/-- The routine `x=>({async [-x]})`. -/
def negatedExpression : Text :=
  .ofChars ['x', '=', '>', '(', '\x7b', 'a', 's', 'y', 'n', 'c', ' ', '[', '-', 'x', ']',
    '\x7d', ')']

/-- The routine `function(x){return {async [-x]};}`. -/
def negatedBlock : Text :=
  .ofChars ['f', 'u', 'n', 'c', 't', 'i', 'o', 'n', '(', 'x', ')', '\x7b', 'r', 'e', 't', 'u', 'r',
    'n', ' ', '\x7b', 'a', 's', 'y', 'n', 'c', ' ', '[', '-', 'x', ']', '\x7d', ';', '\x7d']

/-- The edit of `async` covers that of the parameter in both functions.  So neither is anything
refused nor does a body come out. -/
theorem Compiler.flatten_negatedExpression :
    let scope := Text.ofChars ['_', '0', '_']
    let c : Compiler := ⟨Config.default, Config.defaultStem, fun _ => false⟩
    ∃ f f', anchor negatedExpression = .ok f ∧ anchor negatedBlock = .ok f' ∧ f.Returns f' ∧
      ¬((∃ construct s s', c.flatten scope f = .error (.rejected construct s) ∧
          c.flatten scope f' = .error (.rejected construct s')) ∨
        ∃ out, c.flatten scope f = .ok out ∧ c.flatten scope f' = .ok out) := by
  intro scope c
  have hany : (anchor negatedExpression).toOption.any (fun f =>
      decide (isNegatedObject 5 f.body ∧ f.bodySpan = ⟨5, 17⟩ ∧
        f.text = Anchor.wrap negatedExpression ∧
        f.params.map Parameter.name = [.ofChars ['x']] ∧
        failureKind? (c.flatten scope f) = some .edit)) = true := by decide +kernel
  have hany' : (anchor negatedBlock).toOption.any (fun f' =>
      decide ((returned? f'.body).any (isNegatedObject 20) ∧ f'.bodySpan = ⟨12, 34⟩ ∧
        f'.text = Anchor.wrap negatedBlock ∧
        f'.params.map Parameter.name = [.ofChars ['x']])) = true := by decide +kernel
  obtain ⟨f, hf, hall⟩ := (Option.any_eq_true _ _).1 hany
  obtain ⟨f', hf', hall'⟩ := (Option.any_eq_true _ _).1 hany'
  obtain ⟨hbody, hspan, htext, hparams, hkind⟩ := of_decide_eq_true hall
  obtain ⟨hreturned, hspan', htext', hparams'⟩ := of_decide_eq_true hall'
  obtain ⟨e, he, hobject⟩ := (Option.any_eq_true _ _).1 hreturned
  obtain ⟨s, s', hblock⟩ := eq_block_of_returned? he
  have hreturns : f.Returns f' := by
    rw [eq_negatedObject hobject] at hblock
    have hobject := eq_negatedObject hbody
    refine ⟨?_, ?_, ?_, hparams'.trans hparams.symm, ⟨s, s', ?_⟩, ?_, ?_⟩
    · rw [AnchoredFunction.isExpressionBody, hobject]
      rfl
    · rw [hspan, htext]
      decide
    · rw [hspan, hobject]
      decide +kernel
    · rw [hblock, hobject, hspan, hspan']
      rfl
    · rw [hspan', htext']
      decide
    · rw [hspan, hspan', htext, htext']
      decide
  refine ⟨f, f', eq_ok_of_toOption hf, eq_ok_of_toOption hf', hreturns, ?_⟩
  rintro (⟨construct, s, s', h, -⟩ | ⟨out, h, -⟩)
  · rw [h] at hkind
    cases hkind
  · rw [h] at hkind
    cases hkind

end Elementwise
