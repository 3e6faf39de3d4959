import Elementwise.Anchor
import Elementwise.Grammar.Script
import Elementwise.Proofs.Grammar.Statement

/-!
# The layout of routines

Ties the contracts of the grammar: every construct is laid out as far down as the grammar goes, so
whatever parses is.  For the function of a routine this means that its parameters and its body have
spans, and that the marks of the body lie in it and one behind the other.

## What is here

* `Parse.construct_lawful` — the contract of all recursive constructs.
* `parseScript_shaped` — what is known of the statements of a text.
* `anchor_spans`, `anchor_placed` — what is known of an anchored function.
-/

set_option autoImplicit false
namespace Elementwise

/-! ## Scripts -/

namespace Parse

variable {t : Text}

theorem construct_lawful (t : Text) : ∀ depth : Nat, Deeper.Lawful t ⟨depth, construct depth⟩
  | 0 => ⟨fun _ _ => .refuseHere, fun _ => .refuseHere, fun _ => .refuseHere, fun _ => .refuseHere⟩
  | depth + 1 => by
    have hd := construct_lawful t depth
    refine ⟨fun g x => ?_, fun _ => assignment_gives hd, fun _ => item_gives hd,
      fun _ => statement_gives hd⟩
    cases g with
    | assignment => exact (assignment_gives hd).read
    | unary => exact unary_gives hd
    | power => exact power_gives hd
    | callee => exact callee_gives hd
    | call => exact callOrMember_gives hd
    | item => exact (item_gives hd).mono fun _ _ _ hn => hn.toRead
    | statement => exact (statement_gives hd).mono fun _ _ _ hn => hn.toRead

theorem State.ofText_sound {s : State} (h : State.ofText t = .ok s) : s.Sound t := by
  unfold State.ofText at h
  dsimp only at h
  split at h
  · next s' hnext =>
    cases h
    obtain ⟨hs', -⟩ := State.next_sound hnext (.refl _ _) (fun _ _ hi => nomatch hi) rfl
    refine { hs' with gap := .of_le hs'.reader.le, newline := fun _ hkind => ?_ }
    obtain ⟨-, hindex⟩ := hs'.symbol (c := '(') hkind rfl nofun
    exact hindex ▸ Nat.succ_ne_self _
  · cases h

theorem script_gives {x : Spot} {d : Deeper} (hd : d.Lawful t) :
    Gives t x (script d) fun ns _ => ∀ n ∈ ns, n.IsShaped t := by
  refine (directives_gives hd).bind fun front y _ ⟨_, hfront⟩ => ?_
  refine (Gives.collect (I := fun _ _ ns => ∀ n ∈ ns, n.IsShaped t) fun z => ?_).bind
    fun ns z _ hns => .pure (List.forall_mem_append.2 ⟨hfront, hns⟩)
  refine .isAtEnd fun _ _ => .ite (.pure (by simp)) <| (hd.read _ z).bind fun n w _ hn => .pure ?_
  refine ⟨nofun, ?_⟩
  rintro _ ⟨⟩ ns v hns
  exact List.forall_mem_cons.2 ⟨hn.lies.shaped, hns⟩

end Parse

/-- **Where spans are needed in the statements of a text, there are spans.** -/
theorem parseScript_shaped {t : Text} {ns : List Node} (h : parseScript t = .ok ns) :
    ∀ n ∈ ns, n.IsShaped t := by
  unfold parseScript at h
  dsimp only at h
  split at h
  · next s hs =>
    split at h
    · next hrun =>
      cases h
      exact (Parse.script_gives (Parse.construct_lawful t _) s (Parse.State.ofText_sound hs) rfl _ _
        hrun).2.2
    · cases h
  · cases h

/-! ## Routines -/

namespace Anchor

variable {t text : Text} {ns params : List Node} {body c : Node} {f : AnchoredFunction}
  {e : Failure} {span : Span} {isArrow isAsync isGenerator : Bool}

/-- A callee is a part of a statement, so what is known of the statement holds for it as well. -/
theorem callee_shaped (h : callee ns = .ok c) (hns : ∀ n ∈ ns, n.IsShaped t) :
    c.IsShaped t := by
  unfold callee at h
  split at h
  · split at h
    · cases h
      have hstatement := hns _ List.mem_cons_self
      exact hstatement
    · cases h
  · cases h

theorem kind_of_callee (h : callee ns = .error e) : e.kind = .parsing := by
  unfold callee at h
  split at h
  · split at h
    · cases h
    · cases h
      rfl
  · cases h
    rfl

theorem kind_of_parameters (hparams : ∀ p ∈ params, p.span?.isSome)
    (h : parameters params = .error e) : e.kind = .unsupported := by
  fun_induction parameters params
  case case1 => cases h
  case case2 => cases h
  case case3 hrest ih =>
    cases h
    exact ih (fun p hp => hparams p (List.mem_cons_of_mem _ hp)) hrest
  case case4 =>
    cases h
    rfl
  case case5 node nodes _ e' hspan =>
    obtain ⟨s, hs⟩ := Option.isSome_iff_exists.1 (hparams node List.mem_cons_self)
    rw [Node.span, hs] at hspan
    cases hspan

theorem kind_of_function {stop : Nat} (hparams : ∀ p ∈ params, p.span?.isSome)
    (hbody : body.IsPlaced t stop)
    (h : function text isArrow isAsync isGenerator span params body = .error e) :
    e.kind = .unsupported := by
  unfold function at h
  split at h
  · cases h
    rfl
  · split at h
    · next hparameters =>
      cases h
      exact kind_of_parameters hparams hparameters
    · obtain ⟨s, hs, -⟩ := hbody
      rw [Node.span, hs] at h
      cases h

/-- The body of a function that is found is the body that was parsed. -/
theorem function_placed (hspan : span.stop ≤ t.length ∧ body.IsPlaced t span.stop)
    (h : function text isArrow isAsync isGenerator span params body = .ok f) :
    f.text = text ∧ f.span.stop ≤ t.length ∧ f.bodySpan.stop ≤ f.span.stop ∧
      Fits t f.bodySpan.start f.bodySpan.stop f.body.marks := by
  obtain ⟨hlength, s, hs, -, hstop, hfits⟩ := hspan
  unfold function at h
  split at h
  · cases h
  · split at h
    · cases h
    · rw [Node.span, hs] at h
      cases h
      exact ⟨rfl, hlength, hstop, hfits⟩

/-- The marks of the parameters tell where these are declared. -/
theorem mem_marks_of_parameters {ps : List Parameter} (h : parameters params = .ok ps) :
    ∀ a ∈ ps, ⟨a.span, .name, none⟩ ∈ Node.marksOfAll params := by
  fun_induction parameters params generalizing ps
  case case1 =>
    cases h
    exact List.forall_mem_nil _
  case case2 span name nodes later hlater ih =>
    cases h
    refine List.forall_mem_cons.2 ⟨List.mem_cons_self, fun a ha => ?_⟩
    exact List.mem_cons_of_mem _ (ih hlater a ha)
  case case3 => cases h
  case case4 => cases h
  case case5 => cases h

/-- The parameters of a function that is found are declared in front of its body. -/
theorem function_declares {stop : Nat}
    (hspan : Fits t span.start body.start (Node.marksOfAll params) ∧ span.stop ≤ t.length ∧
      body.IsPlaced t stop)
    (h : function text isArrow isAsync isGenerator span params body = .ok f) :
    (∀ a ∈ f.params, a.span.stop ≤ f.bodySpan.start) ∧ f.bodySpan.start ≤ f.bodySpan.stop := by
  obtain ⟨hfits, -, s, hs, hle, -⟩ := hspan
  have hstart : body.start = s.start := by
    rw [Node.start, hs]
    rfl
  unfold function at h
  split at h
  · cases h
  · split at h
    · cases h
    · next hparameters =>
      rw [Node.span, hs] at h
      cases h
      refine ⟨fun a ha => ?_, hle⟩
      exact hstart ▸ (hfits.within _ (mem_marks_of_parameters hparameters a ha)).2.2

theorem kind_of_locate (hns : ∀ n ∈ ns, n.IsShaped t) (h : locate text ns = .error e) :
    e.kind = .parsing ∨ e.kind = .unsupported := by
  unfold locate at h
  split at h
  · next hcallee =>
    cases h
    exact .inl (kind_of_callee hcallee)
  · next hcallee =>
    obtain ⟨hparams, -, -, hbody⟩ := callee_shaped hcallee hns
    exact .inr (kind_of_function hparams hbody h)
  · next hcallee =>
    obtain ⟨hparams, -, -, hbody⟩ := callee_shaped hcallee hns
    exact .inr (kind_of_function hparams hbody h)
  · cases h
    exact .inl rfl

theorem locate_placed (hns : ∀ n ∈ ns, n.IsShaped t) (h : locate text ns = .ok f) :
    f.text = text ∧ f.span.stop ≤ t.length ∧ f.bodySpan.stop ≤ f.span.stop ∧
      Fits t f.bodySpan.start f.bodySpan.stop f.body.marks := by
  unfold locate at h
  split at h
  · cases h
  · next hcallee => exact function_placed (callee_shaped hcallee hns).2.2 h
  · next hcallee => exact function_placed (callee_shaped hcallee hns).2.2 h
  · cases h

theorem locate_declares (hns : ∀ n ∈ ns, n.IsShaped t) (h : locate text ns = .ok f) :
    (∀ a ∈ f.params, a.span.stop ≤ f.bodySpan.start) ∧ f.bodySpan.start ≤ f.bodySpan.stop := by
  unfold locate at h
  split at h
  · cases h
  · next hcallee => exact function_declares (callee_shaped hcallee hns).2 h
  · next hcallee => exact function_declares (callee_shaped hcallee hns).2 h
  · cases h

end Anchor

/-- A function that is found lies in the text, its body in the function, and the marks in the
body. -/
theorem anchor_spans {source : Text} {f : AnchoredFunction} (h : anchor source = .ok f) :
    f.text = Anchor.wrap source ∧ f.span.stop ≤ f.text.length ∧ f.bodySpan.stop ≤ f.span.stop ∧
      Fits f.text f.bodySpan.start f.bodySpan.stop f.body.marks := by
  unfold anchor at h
  dsimp only at h
  split at h
  · next hparse =>
    obtain ⟨htext, hspans⟩ := Anchor.locate_placed (parseScript_shaped hparse) h
    exact ⟨htext, htext ▸ hspans⟩
  · cases h

/-- **The marks of a body lie in its span**, which lies in the text, and one behind the other as far
as they are not in one ambiguous property. -/
theorem anchor_placed {source : Text} {f : AnchoredFunction} (h : anchor source = .ok f) :
    f.bodySpan.stop ≤ f.text.length ∧
    Fits f.text f.bodySpan.start f.bodySpan.stop f.body.marks := by
  obtain ⟨-, hlength, hstop, hfits⟩ := anchor_spans h
  exact ⟨hstop.trans hlength, hfits⟩

/-- The parameters of a function that is found are declared in front of its body. -/
theorem anchor_declares {source : Text} {f : AnchoredFunction} (h : anchor source = .ok f) :
    (∀ a ∈ f.params, a.span.stop ≤ f.bodySpan.start) ∧ f.bodySpan.start ≤ f.bodySpan.stop := by
  unfold anchor at h
  dsimp only at h
  split at h
  · next hparse => exact Anchor.locate_declares (parseScript_shaped hparse) h
  · cases h

/-- **If no function is found, the text does not parse or the function is of the wrong form.**  A
part without a span is never what it fails for. -/
theorem kind_of_anchor {source : Text} {e : Failure} (h : anchor source = .error e) :
    e.kind = .parsing ∨ e.kind = .unsupported ∨ e = .unparsable .templateContinuation := by
  unfold anchor at h
  dsimp only at h
  split at h
  · next hparse =>
    exact (Anchor.kind_of_locate (parseScript_shaped hparse) h).imp_right .inl
  · next error _ =>
    cases h
    cases error with
    | fault => exact .inl rfl
    | templateContinuation => exact .inr (.inr rfl)

end Elementwise
