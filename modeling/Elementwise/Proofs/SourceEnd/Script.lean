import Elementwise.Proofs.SourceEnd.Call

/-!
# Scripts that call a source

The two parses of a called source begin at the parenthesis in front of it.  From there to the
statement that the script consists of, nothing stands around the call, so the second parse gives the
call as well if it has found the parenthesis behind the source.

## What is here

* `SourceEnd.Opens`, `SourceEnd.Finishes` — the states of the two parses at the beginning and at the
  end.
* `SourceEnd.Lost` — the parenthesis behind the source is found only in the first text.
* `SourceEnd.Carries` — a parser that gives the call in the first text gives it in the second one,
  unless the parenthesis is lost, and the rules for what stands around a call.
* `SourceEnd.parseScript_calls` — a source is called alike in both texts.
-/

set_option autoImplicit false
namespace Elementwise

open Anchor Parse

namespace SourceEnd

variable {x : SourceEnd} {d : Deeper} {s s' s₁ : State}

/-- Two parses look at the opening parenthesis in front of the source. -/
structure Opens (x : SourceEnd) (s s' : State) : Prop where
  before : x.Before s s'
  sound : s.Sound x.text
  kind : s.token.kind = .punctuator .leftParen
  first : s.spot.next = 0

/-- Two parses have come to the end of their texts in the same context. -/
structure Finishes (s s' : State) : Prop where
  left : s.AtEnd
  right : s'.AtEnd
  context : s.toContext = s'.toContext

/-- The source is a function, in any number of parentheses, between separators, and behind it the
parenthesis that closes the source is found only in the first text. -/
def Lost (x : SourceEnd) (c : Node) : Prop :=
  ∃ k i j, 0 < k ∧ x.text.Gap 1 k ∧ (∀ f ∈ c.functionSpan?, x.text.Encloses f k i) ∧
    i ≤ j ∧ x.text.Gap i j ∧ x.text.drop j = callSuffix ∧ ¬x.Lands i

/-- If a parser that begins with a parenthesis gives the call of a function at the end of the first
text, it gives the call of the same function in the second one. -/
def Carries (x : SourceEnd) (p : Parse Node) : Prop :=
  ∀ s s', x.Opens s s' → ∀ span c s₁, p.run s = .ok (.call span c [], s₁) →
    span.stop = x.text.length → c.functionSpan?.isSome →
      x.Lost c ∨ (∀ f ∈ c.functionSpan?, x.Holds f.stop) ∧
        ∃ span' s₁', p.run s' = .ok (.call span' c [], s₁') ∧ Finishes s₁ s₁'

/-! ## What stands in the parentheses -/

theorem Before.within (h : x.Before s s') (c : Context) : x.Before (s.within c) (s'.within c) := by
  obtain ⟨htoken, htokenRest, hrest, hplace, hreaches⟩ := h
  exact ⟨htoken, htokenRest, hrest, hplace, hreaches⟩

theorem Before.length_tokenRest (h : x.Before s s') : callSuffix.length < s.tokenRest.length := by
  obtain ⟨htoken, htokenRest, -, -, -⟩ := h
  rw [htoken, List.length_cons]
  exact Nat.lt_succ_of_le htokenRest.length_pos

theorem Before.drop_text (h : x.Before s s') : x.text.drop (x.text.length - 3) = callSuffix := by
  obtain ⟨-, -, ⟨u, hu, -⟩, -, hreaches⟩ := h
  obtain ⟨v, hv⟩ := hreaches.suffix
  rw [hu] at hv
  rw [← hv, ← List.append_assoc, ← List.append_assoc]
  exact List.drop_left' (by simp [callSuffix, Text.ofChars]; omega)

theorem inside_agrees (hd : d.Agrees x) : x.Agrees .reached .passed (inside d) :=
  (expect_agrees _).next fun _ => .isAt fun _ => .guard .refuseToken <| .isAt fun _ =>
    .guard .refuseToken <| .modifyContext hd.assignment.inherit

/-- A function or a call in parentheses stands between these. -/
theorem inside_ends {t : Text} {y : Spot} (hd : d.Writes t) :
    Gives t y (inside d) fun n z => z.done ≤ z.next ∧
      ∃ k, y.next < k ∧ t.Gap (y.next + 1) k ∧ ∀ s ∈ n.enclosable?, t.Encloses s k z.done := by
  refine (expect_symbol .leftParen '(' rfl nofun).bind fun _ z _ ⟨hz, _, hdone⟩ =>
    .gap fun hgap => ?_
  refine .isAt fun _ => .guard .refuseToken <| .isAt fun _ => .guard .refuseToken <|
    .modifyContext ?_
  refine (hd.written z).inherit.mono fun n w _ hn => ⟨hn.1.2, z.next, by omega, hdone ▸ hgap, ?_⟩
  exact hn.2.enclosed

/-- In front of the suffix only the parenthesis that closes the source closes anything. -/
theorem atSuffix_of_next {t : Text} {s s₁ : State} (hs : s.Sound t) (hnext : s.next = .ok s₁)
    (hkind : s.token.kind = .punctuator .rightParen) (hdrop : t.drop (t.length - 3) = callSuffix)
    (hdone : s₁.spot.done + 2 = t.length) : s.AtSuffix := by
  obtain ⟨-, hlast, -⟩ := State.next_sound hnext (hs.token.trans hs.reader) hs.parted_reader hs.line
  obtain ⟨-, hindex⟩ := hs.symbol (c := ')') hkind rfl nofun
  have hdone : s.reader.place.index + 2 = t.length := hlast ▸ hdone
  have hrest := hs.drop_token
  rw [show s.spot.next = t.length - 3 by omega, hdrop] at hrest
  refine ⟨hrest.symm, ?_, hkind⟩
  have htail := hs.drop_reader
  rw [show s.reader.place.index = t.length - 3 + 1 by omega, ← List.drop_drop, hdrop] at htail
  exact htail.symm

theorem callOrMember_carries (hd : d.Writes x.text) (hagrees : d.Agrees x) :
    x.Carries (callOrMember d) := by
  intro s s' hopens span c s₁ hrun hstop hc
  obtain ⟨e, s₄, hhead, hcase⟩ := callOrMember_run_ok hd hopens.sound hopens.kind hrun hc
  have he : e.enclosable?.isSome := by
    rcases hcase with rfl | ⟨rfl, -⟩
    · rfl
    · obtain ⟨f, hf⟩ := Option.isSome_iff_exists.1 hc
      rw [Node.enclosable?_of_functionSpan? hf]
      rfl
  obtain ⟨s₂, s₃, hinside, hclose, hnext, rfl⟩ := head_run_ok (by exact hopens.kind) hhead he
  obtain ⟨hs₂, -, hle, k, hk, hgap, hends⟩ :=
    inside_ends hd _ ((hopens.sound.within _).within _) rfl _ _ hinside
  change s.spot.next < k at hk
  change x.text.Gap (s.spot.next + 1) k at hgap
  rw [hopens.first] at hk hgap
  obtain ⟨hparen, -⟩ := hs₂.symbol (c := ')') hclose rfl nofun
  have hlt := (List.getElem?_eq_some_iff.1 hparen).1
  rcases hcase with rfl | ⟨rfl, hbound, hleft, hright⟩
  · -- the call would end in front of a parenthesis
    have := (hends span rfl).le
    omega
  have hdrop := hopens.before.drop_text
  have hleftEnd : ¬Separator.IsEnd (.scalar '(') := by unfold Separator.IsEnd; decide
  have hrightEnd : ¬Separator.IsEnd (.scalar ')') := by unfold Separator.IsEnd; decide
  have hcall : s₃.spot.done + 2 = x.text.length := by
    obtain ⟨n, hn⟩ : ∃ n, x.text.length = n + 3 := ⟨x.text.length - 3, by
      have hlength := congrArg List.length hdrop
      rw [List.length_drop] at hlength
      have : callSuffix.length = 3 := rfl
      omega⟩
    have hget (i : Nat) : x.text[n + i]? = callSuffix[i]? := by
      rw [← hdrop, List.getElem?_drop, hn, Nat.add_sub_cancel]
    rw [hstop, hn] at hright
    have heq := hright.eq_of_not_isEnd (hget 1) hleftEnd
    rw [heq] at hleft
    have hdone : s₃.spot.done = n + 1 := hleft.eq_of_not_isEnd (hget 0) hrightEnd
    omega
  have hsuffix := atSuffix_of_next hs₂ hnext hclose hdrop hcall
  rcases (inside_agrees hagrees _ _ _ hinside).2 (s'.within _)
    ((hopens.before.within _).within _) with
    hlost | ⟨s₂', hinside', hrelated⟩
  · left
    rcases hlost with hbehind | ⟨-, hlands⟩
    · have := hbehind.1
      rw [hsuffix.tokenRest] at this
      exact absurd this (by decide)
    · refine ⟨k, s₂.spot.done, s₂.spot.next, hk, hgap, fun f hf => hends f ?_, hle,
        hs₂.gap, ?_, hlands⟩
      · exact Node.enclosable?_of_functionSpan? hf
      · rw [hs₂.drop_token, hsuffix.tokenRest]
  right
  have hat : x.At s₂ s₂' := by
    refine hrelated.resolve_left fun hbefore => ?_
    have := hbefore.length_tokenRest
    rw [hsuffix.tokenRest] at this
    exact absurd this (by decide)
  obtain ⟨s₄, hnext₄, hcall₄, hcontext₄⟩ := next_of_atSuffix hsuffix
  obtain rfl : s₃ = s₄ := Except.ok.inj (hnext.symm.trans hnext₄)
  obtain ⟨s₃', hnext', hcall', hcontext'⟩ := next_of_atSuffix hat.right
  have hsame : s.toContext = s'.toContext := hopens.before.alike.context
  have hkind' : s'.token.kind = .punctuator .leftParen := hopens.before.alike.kind ▸ hopens.kind
  have harrow : s₃'.token.kind ≠ .punctuator .arrow := by simp [hcall'.kind]
  have hhead' := head_run (d := d) (s := s'.within { s'.toContext with allowIn := true }) hkind'
    (by rw [← hsame]; exact hinside') hat.right.kind hnext' harrow
  obtain ⟨span₁, r, hrun₁, hend, hcontext₁⟩ :=
    callOrMember_call hopens.kind hhead hbound hc { hcall₄ with }
  obtain ⟨span', r', hrun', hend', hcontext₁'⟩ :=
    callOrMember_call hkind' hhead' hbound hc { hcall' with }
  rw [hrun] at hrun₁
  cases hrun₁
  have hholds (f : Span) (hf : f ∈ e.functionSpan?) : x.Holds f.stop := by
    have hstop : f.stop ≤ s₂.last.index :=
      (hends f (Node.enclosable?_of_functionSpan? hf)).le.2.2
    exact (Nat.add_le_add_right hstop _).trans hat.consumed
  refine ⟨hholds, span', r', hrun', hend, hend', ?_⟩
  rw [hcontext₁, hcontext₁']
  simp only [State.within, hcontext₄, hcontext', hat.context, hsame]

/-! ## What stands around the call -/

theorem ne_call_of_enclosable? {n : Node} (h : n.enclosable? = none) (span : Span) (c : Node) :
    n ≠ .call span c [] := by
  rintro rfl
  cases h

theorem Opens.within (h : x.Opens s s') (c : Context) : x.Opens (s.within c) (s'.within c) :=
  ⟨h.before.within c, h.sound.within c, h.kind, h.first⟩

theorem Opens.context (h : x.Opens s s') : s.toContext = s'.toContext := h.before.alike.context

/-- What follows an expression leaves a call as it is at the end of the text, and it does not give
the call of a function itself. -/
structure Passes (f : Node → Parse Node) : Prop where
  returns : ∀ e, Returns (f e) fun n => n = e ∨ ∀ span c, n ≠ .call span c []
  idle : ∀ (s : State) span c, s.AtEnd → (f (.call span c [])).run s = .ok (.call span c [], s)

namespace Carries

variable {p : Parse Node}

theorem of_refuses (h : Refuses p) : x.Carries p := fun _ _ _ _ _ _ hrun => (h _ _ _ hrun).elim

theorem here {f : Nat → Parse Node} (hf : ∀ n, x.Carries (f n)) : x.Carries (here >>= f) := by
  intro s s' h span c s₁ hrun hstop hc
  have heq : (Parse.here >>= f).run s' = (f s.tokenPlace.index).run s' := by
    rw [run_here]
    cases h.before
    rfl
  rw [heq]
  exact hf _ s s' h span c s₁ hrun hstop hc

theorem get {f : State → Parse Node} (hsame : (fun s t u => f (s.withRest t u)) = fun s _ _ => f s)
    (hf : ∀ s : State, s.token.kind = .punctuator .leftParen → x.Carries (f s)) :
    x.Carries (get >>= f) := by
  intro s s' h span c s₁ hrun hstop hc
  have heq : (MonadState.get >>= f).run s' = (f s).run s' := by
    rw [run_get]
    cases h.before
    rw [congrFun₃ hsame]
  rw [heq]
  exact hf s h.kind s s' h span c s₁ hrun hstop hc

theorem token {f : Token → Parse Node}
    (hf : ∀ a : Token, a.kind = .punctuator .leftParen → x.Carries (f a)) :
    x.Carries (token >>= f) := get rfl fun s hs => hf s.token hs

/-- What is told by an opening parenthesis is the same in both texts. -/
theorem decides {β : Type} {q : Parse β} {b : β} {f : β → Parse Node} (hf : x.Carries (f b))
    (hq : ∀ s : State, s.token.kind = .punctuator .leftParen → q.run s = .ok (b, s)) :
    x.Carries (q >>= f) := by
  intro s s' h span c s₁ hrun hstop hc
  rw [run_bind_of_ok (hq s h.kind)] at hrun
  rw [run_bind_of_ok (hq s' (h.before.alike.kind ▸ h.kind))]
  exact hf s s' h span c s₁ hrun hstop hc

theorem isAtKeyword {k : Keyword} {f : Bool → Parse Node} (hf : x.Carries (f false)) :
    x.Carries (isAtKeyword k >>= f) := hf.decides fun s hs => by
  show (Except.ok (decide (s.token.kind = _), s) : Except ParseError (Bool × State)) = _
  rw [hs]
  rfl

theorem isAtName {name : Text} {f : Bool → Parse Node} (hf : x.Carries (f false)) :
    x.Carries (isAtName name >>= f) := hf.decides fun s hs => by
  show (Except.ok (s.token.isNamed name, s) : Except ParseError (Bool × State)) = _
  rw [Token.isNamed, hs]

theorem modifyContext {g : Context → Context} {f : Unit → Parse Node} (hf : x.Carries (f ())) :
    x.Carries (modifyContext g >>= f) := by
  intro s s' h span c s₁ hrun hstop hc
  rw [run_modifyContext] at hrun ⊢
  rw [← h.context]
  exact hf _ _ (h.within _) span c s₁ hrun hstop hc

theorem bind {f : Node → Parse Node} (h : x.Carries p) (hf : Passes f) : x.Carries (p >>= f) := by
  intro s s' hs span c s₂ hrun hstop hc
  obtain ⟨e, s₁, hp, hrun⟩ := run_bind_ok hrun
  rcases hf.returns e _ _ _ hrun with rfl | hne
  · refine (h s s' hs span c s₁ hp hstop hc).imp_right ?_
    refine fun ⟨hholds, span', s₁', hp', hend⟩ => ⟨hholds, ?_⟩
    rw [hf.idle _ _ _ hend.left] at hrun
    cases hrun
    refine ⟨span', s₁', ?_, hend⟩
    rw [run_bind_of_ok hp']
    exact hf.idle _ _ _ hend.right
  · exact (hne _ _ rfl).elim

theorem inherit (h : x.Carries p) : x.Carries (inherit p) := by
  intro s s' hs span c s₁ hrun hstop hc
  obtain ⟨s₂, hp, rfl⟩ := inherit_run_ok hrun
  refine (h _ _ (hs.within _) span c s₂ hp hstop hc).imp_right ?_
  rintro ⟨hholds, span', s₂', hp', hend⟩
  refine ⟨hholds, span', _, inherit_run (hs.context ▸ hp'), ⟨hend.left, hend.right, ?_⟩⟩
  simp only [State.within, hend.context, hs.context]

theorem isolate (h : x.Carries p) : x.Carries (isolate p) := by
  intro s s' hs span c s₁ hrun hstop hc
  obtain ⟨s₂, hp, hcover, rfl⟩ := isolate_run_ok hrun
  refine (h _ _ (hs.within _) span c s₂ hp hstop hc).imp_right ?_
  rintro ⟨hholds, span', s₂', hp', hend⟩
  refine ⟨hholds, span', _, isolate_run (hs.context ▸ hp') (hend.context ▸ hcover),
    ⟨hend.left, hend.right, ?_⟩⟩
  simp only [State.within, hend.context, hs.context]

end Carries

/-! ### Operators -/

/-- At the end of a text nothing can be accepted. -/
theorem accept_atEnd (h : s.AtEnd) (q : Punctuator) : (accept q).run s = .ok (false, s) := by
  rw [accept, run_isAt, if_neg (by simp [show s.token.kind = .endOfText from h])]
  rfl

theorem updateOp?_run (h : s.AtEnd ∨ s.token.kind = .punctuator .leftParen) :
    updateOp?.run s = .ok (none, s) := by
  rw [updateOp?, run_token]
  rcases h with h | h
  · simp only [show s.token.kind = .endOfText from h]
    rfl
  · simp only [h]
    rfl

theorem unaryOp?_run (h : s.token.kind = .punctuator .leftParen) :
    unaryOp?.run s = .ok (none, s) := by
  rw [unaryOp?, run_token]
  simp only [h]
  rfl

theorem binaryOp?_run (h : s.AtEnd) : binaryOp?.run s = .ok (none, s) := by
  rw [binaryOp?, run_get]
  simp only [show s.token.kind = .endOfText from h]
  rfl

theorem update_carries (hd : d.Writes x.text) (hagrees : d.Agrees x) : x.Carries (update d) := by
  refine .here fun start => .decides ((callOrMember_carries hd hagrees).inherit.bind ?_)
    fun s hs => updateOp?_run (.inr hs)
  refine ⟨fun e => .bind fun _ => .ite (.pure (.inl rfl)) <| .bind fun op? => ?_,
    fun s span c hs => ?_⟩
  · cases op? with
    | none => exact .pure (.inl rfl)
    | some op =>
      exact .bind fun _ => .bind fun _ => .bind fun _ => .bind fun _ => .pure (.inr nofun)
  · rw [run_get]
    split
    · rfl
    · rw [run_bind_of_ok (updateOp?_run (.inl hs))]
      rfl

theorem unary_carries (hd : d.Writes x.text) (hagrees : d.Agrees x) : x.Carries (unary d) := by
  refine .here fun start => .decides ?_ fun s hs => unaryOp?_run hs
  refine .get rfl fun s _ => .isAtName ?_
  rw [Bool.and_false]
  exact update_carries hd hagrees

theorem power_carries (hd : d.Writes x.text) (hagrees : d.Agrees x) : x.Carries (power d) := by
  refine .here fun start =>
    (unary_carries hd hagrees).inherit.bind ⟨fun e => ?_, fun s span c hs => ?_⟩
  · split
    · exact .pure (.inl rfl)
    · refine .bind fun _ =>
        .ite (.bind fun _ => .bind fun _ => .bind fun _ => .pure (.inr nofun)) ?_
      exact .pure (.inl rfl)
  · rw [run_bind_of_ok (accept_atEnd hs _)]
    rfl

theorem binary_carries (hd : d.Writes x.text) (hagrees : d.Agrees x) : x.Carries (binary d) := by
  refine .here fun start =>
    (power_carries hd hagrees).inherit.bind ⟨fun e => ?_, fun s span c hs => ?_⟩
  · refine .bind fun op? => ?_
    cases op? with
    | none => exact .pure (.inl rfl)
    | some op =>
      refine .bind fun _ => .bind fun _ => .bind fun _ => .bind fun _ => ?_
      refine .iterate (I := fun r => r.1 ≠ [])
        (fun ⟨waiting, next, operand⟩ hwaiting => ?_) (by simp)
      refine .bind fun _ => .bind fun op? => ?_
      cases op? with
      | none =>
        refine .pure (.inr ?_)
        obtain ⟨top, waiting, rfl⟩ := List.exists_cons_of_ne_nil hwaiting
        rw [reduce, if_pos (Nat.zero_le _)]
        exact ne_call_of_enclosable? (enclosable?_reduce rfl)
      | some op => exact .bind fun _ => .bind fun _ => .bind fun _ => .pure (by simp)
  · rw [run_bind_of_ok (binaryOp?_run hs)]
    rfl

theorem conditional_carries (hd : d.Writes x.text) (hagrees : d.Agrees x) :
    x.Carries (conditional d) := by
  refine .here fun start =>
    (binary_carries hd hagrees).inherit.bind ⟨fun e => ?_, fun s span c hs => ?_⟩
  · refine .bind fun _ => .ite (.bind fun _ => .bind fun _ => .bind fun _ => .bind fun _ => ?_) ?_
    · exact .bind fun _ => .bind fun _ => .bind fun _ => .bind fun _ => .pure (.inr nofun)
    · exact .pure (.inl rfl)
  · rw [run_bind_of_ok (accept_atEnd hs _)]
    rfl

/-! ### Assignments -/

theorem assignment_carries (hd : d.Writes x.text) (hagrees : d.Agrees x) :
    x.Carries (assignment d) := by
  refine .get rfl fun s _ => .isAtKeyword ?_
  rw [Bool.and_false]
  refine .token fun first hfirst => (conditional_carries hd hagrees).bind ?_
  have hasync (e : Node) : asyncParameter d first e = (do
      let _ ← token
      return e) := by
    have hnamed : first.isNamed Word.async = false := by rw [Token.isNamed, hfirst]
    simp only [asyncParameter, hnamed, Bool.false_and, Bool.false_eq_true, if_false]
  simp only [hasync, bind_assoc, pure_bind]
  refine ⟨fun e => .bind fun _ => .bind fun _ => .ite (.bind fun _ => .bind fun r => ?_) ?_,
    fun s span c hs => ?_⟩
  · cases r with
    | none => exact .pure (.inl rfl)
    | some r =>
      refine .bind fun _ => .ite (.bind fun _ => ?rest) ?rest
      exact .bind fun _ => .bind fun _ => .bind fun _ =>
        .bind fun _ => .bind fun _ => .bind fun _ =>
        .pure (.inr fun _ _ h => by cases h)
  · refine .bind fun _ => ?_
    split
    · exact fun s n s' h => .inr (ne_call_of_enclosable? (assignmentRest_plain d _ _ _ s n s' h).1)
    · exact .pure (.inl rfl)
  · rw [run_token, run_isAt, if_neg (by simp [show s.token.kind = .endOfText from hs]), run_token]
    simp only [show s.token.kind = .endOfText from hs]
    rfl

theorem construct_carries (depth : Nat) : x.Carries (construct depth .assignment) := by
  cases depth with
  | zero => exact .of_refuses .refuseHere
  | succ depth => exact assignment_carries (construct_writes x.text depth) (construct_agrees depth)

/-! ## Scripts -/

variable {span full : Span} {c : Node} {directive : Option Text} {depth : Nat}

theorem expression_carries (hd : x.Carries (d.parse .assignment)) : x.Carries (expression d) := by
  refine .here fun start => hd.isolate.bind ⟨fun e => ?_, fun s span c hs => ?_⟩
  · exact .bind fun _ => .ite (.bind fun _ => .bind fun _ => .pure (.inr nofun)) (.pure (.inl rfl))
  · rw [run_isAt, if_neg (by simp [show s.token.kind = .endOfText from hs])]
    rfl

/-- What begins with a parenthesis is a statement that consists of an expression. -/
theorem item_run (hkind : s.token.kind = .punctuator .leftParen) :
    (item d).run s = (expressionStatement d).run
      (s.within { s.toContext with isTarget := true, isBinding := true }) := by
  rw [item, run_modifyContext, run_token]
  simp only [hkind]
  rw [statement, run_token]
  simp only [hkind]
  rfl

theorem endStatement_run (h : s.AtEnd) : ∃ s₁, endStatement.run s = .ok ((), s₁) ∧ s₁.AtEnd := by
  rw [endStatement_eq, run_isAt, if_neg (by simp [show s.token.kind = .endOfText from h]), run_get]
  split
  · exact ⟨s, rfl, h⟩
  · rw [if_neg (by simp [show s.token.kind = .endOfText from h])]
    exact ⟨_, rfl, h⟩

theorem item_calls (hs : x.Opens s s')
    (h : (construct depth .item).run s = .ok (.expression full (.call span c []) directive, s₁))
    (hstop : span.stop = x.text.length) (hc : c.functionSpan?.isSome) :
    x.Lost c ∨ (∀ f ∈ c.functionSpan?, x.Holds f.stop) ∧
      ∃ full' span' s₁', (construct depth .item).run s' =
        .ok (.expression full' (.call span' c []) none, s₁') ∧ s₁'.AtEnd := by
  cases depth with
  | zero => cases h
  | succ depth =>
    change (item ⟨depth, construct depth⟩).run s = _ at h
    rw [item_run hs.kind, expressionStatement, run_here] at h
    obtain ⟨e, s₂, hexpression, h⟩ := run_bind_ok h
    obtain ⟨_, s₃, -, h⟩ := run_bind_ok h
    obtain rfl : e = .call span c [] := by
      cases h
      rfl
    refine (expression_carries (construct_carries depth) _ _ (hs.within _) span c s₂
      hexpression hstop
      hc).imp_right ?_
    rintro ⟨hholds, span', s₂', hexpression', hend⟩
    obtain ⟨s₁', hend', hatEnd⟩ := endStatement_run hend.right
    refine ⟨hholds, ⟨s'.tokenPlace.index, s₁'.last.index⟩, span', s₁', ?_, hatEnd⟩
    change (item ⟨depth, construct depth⟩).run s' = _
    rw [item_run (hs.before.alike.kind ▸ hs.kind), expressionStatement, run_here]
    rw [hs.context] at hexpression'
    rw [run_bind_of_ok hexpression', run_bind_of_ok hend']
    rfl

theorem directives_run (hkind : s.token.kind = .punctuator .leftParen) (hbound : 0 < d.bound) :
    (directives d).run s = .ok ([], s) := by
  obtain ⟨n, hn⟩ := Nat.exists_eq_add_of_lt hbound
  rw [directives, hn, iterate, bind_assoc, run_token]
  simp only [hkind]
  rfl

/-- The next statement of a script, if there is one more. -/
def nextItem (d : Deeper) : Parse (Option Node) := do
  if ← isAtEnd then return none else return some (← d.parse .item)

theorem script_calls (hs : x.Opens s s') (hdepth : 1 < depth)
    (h : (script ⟨depth, construct depth⟩).run s =
      .ok ([.expression full (.call span c []) directive], s₁))
    (hstop : span.stop = x.text.length) (hc : c.functionSpan?.isSome) :
    x.Lost c ∨ (∀ f ∈ c.functionSpan?, x.Holds f.stop) ∧
      ∃ full' span' s₁', (script ⟨depth, construct depth⟩).run s' =
        .ok ([.expression full' (.call span' c []) none], s₁') := by
  have hkind' : s'.token.kind = .punctuator .leftParen := hs.before.alike.kind ▸ hs.kind
  obtain ⟨n, rfl⟩ : ∃ n, depth = n + 1 + 1 := ⟨depth - 2, by omega⟩
  rw [script, run_bind_of_ok (directives_run hs.kind (Nat.lt_of_succ_lt hdepth))] at h
  obtain ⟨ns, s₂, hcollect, h⟩ := run_bind_ok h
  obtain rfl : ns = [.expression full (.call span c []) directive] := by
    cases h
    rfl
  rw [collect] at hcollect
  obtain ⟨o, s₃, hturn, hcollect⟩ := run_bind_ok hcollect
  rw [run_isAtEnd, if_neg (by simp [hs.kind])] at hturn
  obtain ⟨node, s₄, hitem, hturn⟩ := run_bind_ok hturn
  cases hturn
  obtain ⟨rest, s₅, hrest, hcollect⟩ := run_bind_ok hcollect
  cases hcollect
  refine (item_calls hs hitem hstop hc).imp_right ?_
  rintro ⟨hholds, full', span', s₁', hitem', hend⟩
  refine ⟨hholds, full', span', s₁', ?_⟩
  have hturn' : (nextItem ⟨n + 1 + 1, construct (n + 1 + 1)⟩).run s' =
      .ok (some (.expression full' (.call span' c []) none), s₁') := by
    rw [nextItem, run_isAtEnd, if_neg (by simp [hkind']), run_bind_of_ok hitem']
    rfl
  have hend' : (nextItem ⟨n + 1 + 1, construct (n + 1 + 1)⟩).run s₁' = .ok (none, s₁') := by
    rw [nextItem, run_isAtEnd, if_pos (by simp [show s₁'.token.kind = .endOfText from hend])]
    rfl
  have hcollect' : (collect (nextItem ⟨n + 1 + 1, construct (n + 1 + 1)⟩) (n + 1 + 1)).run s' =
      .ok ([.expression full' (.call span' c []) none], s₁') := by
    rw [collect, run_bind_of_ok hturn']
    show (collect _ (n + 1) >>= _ : Parse _).run s₁' = _
    rw [collect, bind_assoc, run_bind_of_ok hend']
    rfl
  rw [script, run_bind_of_ok (directives_run hkind' (Nat.lt_of_succ_lt hdepth))]
  exact run_bind_of_ok hcollect'

/-! ## Texts -/

/-- A parse of a text that begins with a parenthesis looks at this parenthesis. -/
theorem ofText_run (t : Text) : State.ofText (.scalar '(' :: t) = .ok
    { reader := ⟨⟨1, 1, 0⟩, t, []⟩
      token := ⟨.punctuator .leftParen, ⟨0, 1⟩, 1⟩
      tokenPlace := ⟨0, 1, 0⟩
      tokenRest := .scalar '(' :: t
      afterNewline := false
      last := ⟨1, 1, 0⟩ } := by
  unfold State.ofText
  dsimp only
  rw [next_eq (Reader.skipSeparators_parenthesis (.inl rfl) rfl) rfl]
  rfl

/-- Blanks and line terminators do not make a text deeper. -/
theorem depthFor_append_gap {u w v : Text} (hw : ∀ c ∈ w, c.IsGap) :
    depthFor (u ++ (w ++ v)) = depthFor (u ++ v) := by
  have hnone : w.countP (fun c => !c.isBlank && !c.isLineTerminator) = 0 := by
    refine List.countP_eq_zero.2 fun c hc => ?_
    rcases hw c hc with h | h <;> simp [h]
  simp only [depthFor, List.countP_append, hnone, Nat.zero_add]

/-- A source as it is called first. -/
def ofSource (e : Trailing) (source : Text) : SourceEnd := { e with text := wrap (source ++ e.old) }

/-- Both parses begin at the parenthesis in front of the source. -/
theorem ofText_opens (e : Trailing) (source : Text) : ∃ s s',
    State.ofText (wrap (source ++ e.old)) = .ok s ∧ State.ofText (wrap (source ++ e.new)) = .ok s' ∧
      (ofSource e source).Opens s s' := by
  have hrun (w : Text) : State.ofText (wrap (source ++ w)) = .ok _ :=
    ofText_run (source ++ w ++ callSuffix)
  have hsound := State.ofText_sound (hrun e.old)
  have hexchanges : e.Exchanges (source ++ e.old ++ callSuffix) (source ++ e.new ++ callSuffix) :=
    ⟨source, List.append_assoc .., List.append_assoc ..⟩
  refine ⟨_, _, hrun e.old, hrun e.new, ?_, hsound, rfl, rfl⟩
  exact .intro rfl hexchanges hexchanges (.refl _ _) hsound.reader

theorem parseScript_calls {e : Trailing} {source : Text}
    (h : parseScript (wrap (source ++ e.old)) = .ok [.expression full (.call span c []) directive])
    (hstop : span.stop = (wrap (source ++ e.old)).length) (hc : c.functionSpan?.isSome) :
    (ofSource e source).Lost c ∨ (∀ f ∈ c.functionSpan?, (ofSource e source).Holds f.stop) ∧
      ∃ full' span',
        parseScript (wrap (source ++ e.new)) = .ok [.expression full' (.call span' c []) none] := by
  obtain ⟨s, s', hs, hs', hopens⟩ := ofText_opens e source
  have hdepth : depthFor (wrap (source ++ e.new)) = depthFor (wrap (source ++ e.old)) := by
    rw [wrap_eq, wrap_eq, List.append_assoc, List.append_assoc]
    exact (depthFor_append_gap (u := .scalar '(' :: source) e.new_gap).trans
      (depthFor_append_gap (u := .scalar '(' :: source) e.old_gap).symm
  have hdepth' : 1 < depthFor (wrap (source ++ e.old)) := by
    unfold depthFor
    omega
  unfold parseScript at h ⊢
  simp only [hs, hs', hdepth] at h ⊢
  split at h
  · next hrun =>
    cases h
    refine (script_calls hopens hdepth' hrun hstop hc).imp_right ?_
    rintro ⟨hholds, full', span', s₁', hrun'⟩
    exact ⟨hholds, full', span', by rw [hrun']⟩
  · cases h

end SourceEnd
end Elementwise
