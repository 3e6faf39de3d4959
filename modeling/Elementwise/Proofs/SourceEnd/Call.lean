import Elementwise.Proofs.Grammar.Script
import Elementwise.Proofs.SourceEnd.Statement

/-!
# The call of a source

A source in parentheses is called by what stands behind it.  If the call of a function is given,
then either the function is all that the parentheses hold, or the call itself stands in the
parentheses.  And the other way round, a function that is read in the parentheses is called in the
end.

## What is here

* `Parse.run_bind_ok`, `Parse.inherit_run`, `Parse.isolate_run` … — runs of composed parsers.
* `Parse.group_run_ok`, `Parse.group_run` — parentheses that hold a function or a call.
* `Parse.callOrMember_run_ok`, `Parse.callOrMember_call` — what stands behind the parentheses.
-/

set_option autoImplicit false
namespace Elementwise

open Anchor

/-- Nothing is skipped in front of a parenthesis. -/
theorem Reader.skipSeparators_parenthesis {r : Reader} {c : CodePoint} {t : Text}
    (hc : c = '(' ∨ c = ')') (hrest : r.rest = c :: t) : r.skipSeparators = .ok r := by
  rw [skipSeparators, hrest, Place.skipSeparators, Separator.skip_parenthesis hc, ← hrest]

namespace Parse

/-! ## Contexts -/

namespace Context

/-- The context of what is parsed on its own. -/
def enter (c : Context) : Context :=
  { c with isBinding := true, isTarget := true, coverInit := none }

/-- The context behind what may turn out to be a part of a pattern, given the one in front of it and
the one at its end. -/
def join (c c' : Context) : Context :=
  { c' with
    isBinding := c'.isBinding && c.isBinding
    isTarget := c'.isTarget && c.isTarget
    coverInit := c.coverInit <|> c'.coverInit }

/-- The context behind what is no part of a pattern, given the one in front of it and the one at its
end. -/
def restore (c c' : Context) : Context :=
  { c' with isBinding := c.isBinding, isTarget := c.isTarget, coverInit := c.coverInit }

end Context

/-- The same state in another context. -/
def State.within (s : State) (c : Context) : State := { s with toContext := c }

theorem State.Sound.within {t : Text} {s : State} (hs : s.Sound t) (c : Context) :
    (s.within c).Sound t :=
  { hs with }

/-! ## Runs -/

section

variable {α β : Type} {p : Parse α} {f : α → Parse β} {s s₁ : State} {a : α} {b : β}

theorem run_bind_ok (h : (p >>= f).run s = .ok (b, s₁)) :
    ∃ a s', p.run s = .ok (a, s') ∧ (f a).run s' = .ok (b, s₁) := by
  rw [StateT.run_bind] at h
  cases hp : p.run s with
  | error e =>
    rw [hp] at h
    cases h
  | ok r =>
    rw [hp] at h
    exact ⟨r.1, r.2, rfl, h⟩

theorem run_bind_of_ok (h : p.run s = .ok (a, s₁)) : (p >>= f).run s = (f a).run s₁ := by
  rw [StateT.run_bind, h]
  rfl

/-! ### Reading the state -/

theorem run_get {f : State → Parse β} : (get >>= f).run s = (f s).run s := rfl

theorem run_here {f : Nat → Parse β} : (here >>= f).run s = (f s.tokenPlace.index).run s := rfl

theorem run_token {f : Token → Parse β} : (token >>= f).run s = (f s.token).run s := rfl

theorem run_isAt {q : Punctuator} {f : Bool → Parse β} :
    (isAt q >>= f).run s = (f (s.token.kind = .punctuator q)).run s := rfl

theorem run_isAtEnd {f : Bool → Parse β} :
    (isAtEnd >>= f).run s = (f (s.token.kind = .endOfText)).run s := rfl

theorem run_isAtKeyword {k : Keyword} {f : Bool → Parse β} :
    (isAtKeyword k >>= f).run s = (f (s.token.kind = .keyword k)).run s := rfl

theorem run_modifyContext {g : Context → Context} {f : Unit → Parse β} :
    (modifyContext g >>= f).run s = (f ()).run { s with toContext := g s.toContext } := rfl

/-! ### Nesting -/

theorem inherit_run_ok (h : (inherit p).run s = .ok (a, s₁)) :
    ∃ s₂, p.run (s.within s.toContext.enter) = .ok (a, s₂) ∧
      s₁ = s₂.within (s.toContext.join s₂.toContext) := by
  rw [inherit, run_get, run_modifyContext] at h
  obtain ⟨_, s₂, hp, h⟩ := run_bind_ok h
  cases h
  exact ⟨s₂, hp, rfl⟩

theorem inherit_run (h : p.run (s.within s.toContext.enter) = .ok (a, s₁)) :
    (inherit p).run s = .ok (a, s₁.within (s.toContext.join s₁.toContext)) := by
  rw [inherit, run_get, run_modifyContext]
  exact run_bind_of_ok h

theorem isolate_run_ok (h : (isolate p).run s = .ok (a, s₁)) :
    ∃ s₂, p.run (s.within s.toContext.enter) = .ok (a, s₂) ∧ s₂.coverInit = none ∧
      s₁ = s₂.within (s.toContext.restore s₂.toContext) := by
  rw [isolate, run_get, run_modifyContext] at h
  obtain ⟨_, s₂, hp, h⟩ := run_bind_ok h
  rw [run_get] at h
  cases hcover : s₂.coverInit with
  | some t =>
    rw [hcover] at h
    cases h
  | none =>
    rw [hcover] at h
    cases h
    exact ⟨s₂, hp, hcover, rfl⟩

theorem isolate_run (h : p.run (s.within s.toContext.enter) = .ok (a, s₁))
    (hcover : s₁.coverInit = none) :
    (isolate p).run s = .ok (a, s₁.within (s.toContext.restore s₁.toContext)) := by
  rw [isolate, run_get, run_modifyContext]
  refine (run_bind_of_ok h).trans ?_
  rw [run_get, hcover]
  rfl

end

variable {d : Deeper} {s s₁ : State} {a : Node}

theorem expect_run_ok {q : Punctuator} (h : (expect q).run s = .ok ((), s₁)) :
    s.token.kind = .punctuator q ∧ s.next = .ok s₁ := by
  obtain ⟨t, s', hadvance, h⟩ := run_bind_ok h
  rw [advance_run] at hadvance
  cases hnext : s.next with
  | error e =>
    rw [hnext] at hadvance
    cases hadvance
  | ok s₂ =>
    rw [hnext] at hadvance
    cases hadvance
    split at h
    · cases h
    · next hkind =>
      cases h
      exact ⟨Classical.not_not.1 hkind, rfl⟩

theorem expect_run {q : Punctuator} (hkind : s.token.kind = .punctuator q)
    (hnext : s.next = .ok s₁) :
    (expect q).run s = .ok ((), s₁) := by
  have hadvance : advance.run s = .ok (s.token, s₁) := by
    rw [advance_run, hnext]
    rfl
  rw [expect, run_bind_of_ok hadvance, if_neg (not_not_intro hkind)]
  rfl

theorem accept_run_ok {q : Punctuator} {b : Bool} (h : (accept q).run s = .ok (b, s₁)) :
    b = decide (s.token.kind = .punctuator q) := by
  change (if decide (s.token.kind = .punctuator q) = true then _ else _ : Parse Bool).run s = _ at h
  split at h
  · next hkind =>
    obtain ⟨_, _, -, h⟩ := run_bind_ok h
    cases h
    exact hkind.symm
  · next hkind =>
    cases h
    exact (Bool.eq_false_of_not_eq_true hkind).symm

/-- A loop runs as its first turn, and goes on if that gives no result. -/
theorem iterate_run_ok {σ β : Type} {step : σ → Parse (σ ⊕ β)} {n : Nat} {r : σ} {b : β}
    (h : (iterate step n r).run s = .ok (b, s₁)) :
    ∃ m o s', n = m + 1 ∧ (step r).run s = .ok (o, s') ∧
      (o.elim (iterate step m) pure).run s' = .ok (b, s₁) := by
  cases n with
  | zero => cases h
  | succ m =>
    obtain ⟨o, s', hstep, h⟩ := run_bind_ok h
    refine ⟨m, o, s', rfl, hstep, ?_⟩
    cases o <;> exact h

/-- What a loop gives is what one of its turns gives. -/
theorem Returns.iterate {σ β : Type} {step : σ → Parse (σ ⊕ β)} {I : σ → Prop} {P : β → Prop}
    (hstep : ∀ r, I r → Returns (step r) (Sum.elim I P)) {n : Nat} {r : σ} (hr : I r) :
    Returns (Parse.iterate step n r) P := by
  induction n generalizing r with
  | zero => rintro _ _ _ ⟨⟩
  | succ n ih =>
    intro s b s₁ hrun
    obtain ⟨_, o, s', ⟨⟩, hstep', hrun⟩ := iterate_run_ok hrun
    have ho := hstep r hr _ _ _ hstep'
    cases o with
    | inl r' => exact ih ho _ _ _ hrun
    | inr b' =>
      cases hrun
      exact ho

/-- What follows a comma in parentheses, given the expressions in front of it. -/
def groupItem (d : Deeper) (nodes : List Node) : Parse (List Node ⊕ List Node × Bool) := do
  if ← accept .rightParen then return .inr (nodes.reverse.map Node.asPattern, true)
  else if ← isAt .ellipsis then
    if !(← get).isBinding then refuseToken
    let (last, _) ← restParameter d
    closeParameters
    modifyContext fun c => { c with isBinding := false }
    return .inr ((last :: nodes).reverse.map Node.asPattern, true)
  else
    return .inl ((← inherit (d.parse .assignment)) :: nodes)

/-- A list that is not closed as parameters has become longer. -/
theorem groupItem_returns {nodes : List Node} (hnodes : nodes ≠ []) : Returns (groupItem d nodes)
    (Sum.elim (2 ≤ ·.length) fun r => r.2 = false → r.1.length ≠ 1) := by
  refine .bind fun _ => .ite (.pure fun h => by cases h) <|
    .bind fun _ => .ite (.bind fun _ => ?_) ?_
  · refine .ite (.bind fun _ => ?rest) ?rest
    exact .bind fun _ => .bind fun _ => .bind fun _ => .pure fun h => by cases h
  · exact .bind fun _ => .pure (Nat.succ_le_succ (List.length_pos_iff.2 hnodes))

/-- What follows the first expression in parentheses and a comma is a list, and none of a single
element unless it holds parameters. -/
theorem groupRest_many {first : Node} {r : List Node × Bool}
    (hkind : s.token.kind = .punctuator .comma)
    (h : (groupRest d first).run s = .ok (r, s₁)) (hlist : r.2 = false) : r.1.length ≠ 1 := by
  obtain ⟨m, o, s', -, hstep, h⟩ := iterate_run_ok h
  obtain ⟨b, s'', haccept, hstep⟩ := run_bind_ok hstep
  obtain rfl : b = true := (accept_run_ok haccept).trans (decide_eq_true hkind)
  have ho := groupItem_returns (List.cons_ne_nil first []) _ _ _ hstep
  cases o with
  | inr r' =>
    cases h
    exact ho hlist
  | inl nodes =>
    refine Returns.iterate (I := (2 ≤ ·.length)) (P := fun r => r.2 = false → r.1.length ≠ 1)
      (fun nodes hnodes => .bind fun b => ?_) ho _ _ _ h hlist
    cases b with
    | true =>
      exact groupItem_returns (List.ne_nil_of_length_pos (Nat.lt_of_lt_of_le Nat.two_pos hnodes))
    | false =>
      refine .pure fun _ => ?_
      rw [List.length_reverse]
      exact Nat.ne_of_gt hnodes

/-- An expression that stands in parentheses alone. -/
def inside (d : Deeper) : Parse Node := do
  expect .leftParen
  if ← isAt .rightParen then refuseToken
  if ← isAt .ellipsis then refuseToken
  modifyContext fun c => { c with isBinding := true }
  inherit (d.parse .assignment)

/-- A function or a call in parentheses is the only expression in them. -/
theorem group_run_ok (h : (group d).run s = .ok (a, s₁)) (ha : a.enclosable?.isSome) :
    ∃ s₂ s₃, (inside d).run s = .ok (a, s₂) ∧ s₂.token.kind = .punctuator .rightParen ∧
      s₂.next = .ok s₃ ∧ s₃.token.kind ≠ .punctuator .arrow ∧
      s₁ = { s₃ with isBinding := false } := by
  have hplain {p : Parse Node} {s : State} (hp : Returns p fun n => n.enclosable? = none)
      (h : p.run s = .ok (a, s₁)) : False := by
    rw [hp _ _ _ h] at ha
    cases ha
  unfold group at h
  obtain ⟨_, s₀, hopen, h⟩ := run_bind_ok h
  rw [run_isAt] at h
  split at h
  · exact (hplain (.bind fun _ => .pure rfl) h).elim
  next hright =>
  rw [run_here, run_isAt] at h
  split at h
  · exact (hplain (.bind fun _ => .bind fun _ => .pure rfl) h).elim
  next hellipsis =>
  rw [run_modifyContext] at h
  obtain ⟨first, s₂, hfirst, h⟩ := run_bind_ok h
  have hinside : (inside d).run s = .ok (first, s₂) := by
    rw [inside, run_bind_of_ok hopen, run_isAt, if_neg hright, run_isAt, if_neg hellipsis]
    exact hfirst
  rw [run_isAt] at h
  extract_lets close rest at h
  have hclose {e : Node} {s : State} (h : (close e).run s = .ok (a, s₁)) :
      e = a ∧ ∃ s₃, s.token.kind = .punctuator .rightParen ∧ s.next = .ok s₃ ∧
        s₃.token.kind ≠ .punctuator .arrow ∧ s₁ = { s₃ with isBinding := false } := by
    obtain ⟨_, s₃, hexpect, h⟩ := run_bind_ok h
    obtain ⟨hkind, hnext⟩ := expect_run_ok hexpect
    rw [run_isAt] at h
    split at h
    · refine (hplain (.ite (.bind fun _ => .pure rfl) <| .bind fun _ => ?_) h).elim
      exact .ite (.bind fun _ => .bind fun _ => .pure rfl) (.bind fun _ => .pure rfl)
    · next harrow =>
      cases h
      exact ⟨rfl, s₃, hkind, hnext, by simpa using harrow, rfl⟩
  have hrest {nodes : List Node} {isList : Bool} {s : State}
      (h : (rest (nodes, isList)).run s = .ok (a, s₁)) :
      isList = false ∧ nodes.length = 1 ∧ (close first).run s = .ok (a, s₁) := by
    dsimp -zeta only [rest] at h
    split at h
    · exact (hplain (.pure rfl) h).elim
    next hlist =>
    split at h
    · next hlength => exact ⟨by simpa using hlist, hlength, h⟩
    · obtain ⟨_, _, -, h⟩ := run_bind_ok h
      obtain ⟨rfl, -⟩ := hclose h
      cases ha
  clear_value close rest
  split at h
  · next hcomma =>
    rw [run_modifyContext] at h
    obtain ⟨⟨nodes, isList⟩, _, hmany, h⟩ := run_bind_ok h
    obtain ⟨hlist, hlength, -⟩ := hrest h
    refine (groupRest_many ?_ hmany hlist hlength).elim
    exact of_decide_eq_true hcomma
  · obtain ⟨-, -, h⟩ := hrest h
    obtain ⟨rfl, s₃, hs₃⟩ := hclose h
    exact ⟨s₂, s₃, hinside, hs₃⟩

/-- An expression in parentheses is read if nothing makes it a list of parameters. -/
theorem group_run {s₂ s₃ : State} (hinside : (inside d).run s = .ok (a, s₂))
    (hkind : s₂.token.kind = .punctuator .rightParen) (hnext : s₂.next = .ok s₃)
    (harrow : s₃.token.kind ≠ .punctuator .arrow) :
    (group d).run s = .ok (a, { s₃ with isBinding := false }) := by
  unfold inside at hinside
  obtain ⟨_, s₀, hopen, h⟩ := run_bind_ok hinside
  rw [run_isAt] at h
  split at h
  · cases h
  next hright =>
  rw [run_isAt] at h
  split at h
  · cases h
  next hellipsis =>
  rw [run_modifyContext] at h
  rw [group, run_bind_of_ok hopen, run_isAt, if_neg hright, run_here, run_isAt, if_neg hellipsis,
    run_modifyContext, run_bind_of_ok h, run_isAt, if_neg (by simp [hkind])]
  simp only [pure_bind, Bool.false_eq_true, if_false, List.length_singleton, if_true]
  rw [run_bind_of_ok (expect_run hkind hnext), run_isAt, if_neg (by simpa using harrow)]
  rfl

/-! ## What stands behind the source -/

/-- The parse looks at the parenthesis that opens behind the source. -/
structure State.AtCall (s : State) : Prop where
  rest : s.reader.rest = callSuffix.tail.tail
  kind : s.token.kind = .punctuator .leftParen

/-- The parse looks at the end of its text. -/
def State.AtEnd (s : State) : Prop := s.token.kind = .endOfText

variable {d : Deeper} {s s₁ : State}

theorem next_of_parenthesis {c : CodePoint} {t : Text} {q : Punctuator} (hc : c = '(' ∨ c = ')')
    (hrest : s.reader.rest = c :: t)
    (htoken : ∀ (p : Place) braces, Reader.token ⟨p, c :: t, braces⟩ =
      .ok (⟨.punctuator q, ⟨p.index, p.index + 1⟩, p.line⟩, ⟨p.step 1, t, braces⟩)) :
    ∃ s₁, s.next = .ok s₁ ∧ s₁.token.kind = .punctuator q ∧ s₁.reader.rest = t ∧
      s₁.toContext = s.toContext := by
  have hskip := Reader.skipSeparators_parenthesis hc hrest
  have htoken' := htoken s.reader.place s.reader.braces
  rw [← hrest] at htoken'
  refine ⟨_, SourceEnd.next_eq hskip htoken', ?_, rfl, rfl⟩
  show (if s.strict then _ else _ : Token).kind = _
  cases s.strict <;> rfl

theorem next_of_atSuffix (h : s.AtSuffix) :
    ∃ s₁, s.next = .ok s₁ ∧ s₁.AtCall ∧ s₁.toContext = s.toContext := by
  obtain ⟨s₁, hnext, hkind, hrest, hcontext⟩ :=
    next_of_parenthesis (q := .leftParen) (.inl rfl) h.rest fun _ _ => rfl
  exact ⟨s₁, hnext, ⟨hrest, hkind⟩, hcontext⟩

theorem next_of_nil (hrest : s.reader.rest = []) :
    ∃ s₁, s.next = .ok s₁ ∧ s₁.AtEnd ∧ s₁.toContext = s.toContext := by
  have hskip : s.reader.skipSeparators = .ok { s.reader with rest := [] } := by
    rw [Reader.skipSeparators, hrest]
    rfl
  refine ⟨_, SourceEnd.next_eq hskip rfl, ?_, rfl⟩
  show (if s.strict then _ else _ : Token).kind = _
  cases s.strict <;> rfl

/-- The call of a source is read to the end of the text. -/
theorem callArguments_run (h : s.AtCall) :
    ∃ s₁, (callArguments d).run s = .ok ([], s₁) ∧ s₁.AtEnd ∧ s₁.toContext = s.toContext := by
  obtain ⟨s₂, hnext, hkind, hrest, hcontext⟩ :=
    next_of_parenthesis (q := .rightParen) (.inr rfl) h.rest fun _ _ => rfl
  obtain ⟨s₃, hnext', hend, hcontext'⟩ := next_of_nil hrest
  refine ⟨s₃, ?_, hend, hcontext'.trans hcontext⟩
  rw [callArguments, argumentsOf, run_bind_of_ok (expect_run h.kind hnext)]
  change (if decide (s₂.token.kind = .punctuator .rightParen) = true then _
    else _ : Parse _).run s₂ = _
  rw [if_pos (by simp [hkind]), pure_bind, run_bind_of_ok (expect_run hkind hnext')]
  rfl

/-- Behind a function the call of the source is all that is read. -/
theorem call_run (start : Nat) {e : Node} (he : e.functionSpan?.isSome) (h : s.AtCall) :
    ∃ span s₁, (call d start false e).run s = .ok (.call span e [], s₁) ∧ s₁.AtEnd ∧
      s₁.toContext = { s.toContext with isTarget := false, isBinding := false } := by
  obtain ⟨s₁, hrun, hend, hcontext⟩ := callArguments_run (d := d) (s := { s with
    isTarget := false, isBinding := false }) { h with }
  refine ⟨⟨start, s₁.last.index⟩, s₁, ?_, hend, hcontext⟩
  have hmark : markValue.run s = .ok ((), { s with isTarget := false, isBinding := false }) := rfl
  rw [call, run_bind_of_ok hmark, if_neg Bool.false_ne_true, run_bind_of_ok hrun]
  cases e with
  | function | arrow => rfl
  | _ => cases he

/-! ## Parentheses -/

/-- What stands in front of a group is in the context of what is parsed on its own. -/
theorem primary_run (hkind : s.token.kind = .punctuator .leftParen) :
    (primary d).run s =
      (inherit (group d)).run (s.within { s.toContext with isBinding := false }) := by
  rw [primary, run_here, run_get]
  simp only [hkind]
  rfl

/-- A function or a call that begins with a parenthesis stands in parentheses. -/
theorem head_run_ok {e : Node} (hkind : s.token.kind = .punctuator .leftParen)
    (h : (head d).run s = .ok (e, s₁)) (he : e.enclosable?.isSome) :
    ∃ s₂ s₃, (inside d).run (s.within s.toContext.enter) = .ok (e, s₂) ∧
      s₂.token.kind = .punctuator .rightParen ∧ s₂.next = .ok s₃ ∧
        s₁ = s₃.within { s.toContext.join s₃.toContext with isBinding := false } := by
  rw [head, run_isAtKeyword, if_neg (by simp [hkind])] at h
  obtain ⟨_, hprimary, rfl⟩ := inherit_run_ok h
  rw [primary_run (by exact hkind)] at hprimary
  obtain ⟨_, hgroup, rfl⟩ := inherit_run_ok hprimary
  obtain ⟨s₂, s₃, hinside, hclose, hnext, -, rfl⟩ := group_run_ok hgroup he
  refine ⟨s₂, s₃, hinside, hclose, hnext, ?_⟩
  simp [State.within, Context.join, Context.enter]

theorem head_run {e : Node} {s₂ s₃ : State} (hkind : s.token.kind = .punctuator .leftParen)
    (hinside : (inside d).run (s.within s.toContext.enter) = .ok (e, s₂))
    (hclose : s₂.token.kind = .punctuator .rightParen) (hnext : s₂.next = .ok s₃)
    (harrow : s₃.token.kind ≠ .punctuator .arrow) :
    (head d).run s =
      .ok (e, s₃.within { s.toContext.join s₃.toContext with isBinding := false }) := by
  rw [head, run_isAtKeyword, if_neg (by simp [hkind])]
  have hgroup := group_run hinside hclose hnext harrow
  have hprimary := (primary_run (by exact hkind)).trans
    (inherit_run (s := (s.within s.toContext.enter).within
      { s.toContext.enter with isBinding := false }) hgroup)
  rw [inherit_run hprimary]
  simp [State.within, Context.join, Context.enter]

variable {t : Text}

/-- What follows an expression: a call, a member or a template, or none of them. -/
def turn (d : Deeper) (first : Token) (start : Nat) (e : Node) : Parse (Node ⊕ Node) := do
  if ← isAt .leftParen then
    let mayBeAsync := first.isNamed Word.async && first.line = (← token).line
    return .inl (← call d start mayBeAsync e)
  else
    match ← suffix? d start e with
    | some e => return .inl e
    | none => return .inr e

theorem callOrMember_run (hkind : s.token.kind = .punctuator .leftParen) :
    (callOrMember d).run s = (do
      let e ← iterate (turn d s.token s.spot.next) d.bound (← head d)
      modifyContext fun c => { c with allowIn := s.allowIn }
      return e : Parse Node).run (s.within { s.toContext with allowIn := true }) := by
  rw [callOrMember, run_here, run_get, run_modifyContext, if_neg (by simp [hkind])]
  rfl

theorem turn_gives {x : Spot} (hd : d.Lawful t) (first : Token) (start : Nat) (e : Node)
    (hx : x.done ≤ x.next) :
    Gives t x (turn d first start e) fun r y => r = .inr e ∧ y = x ∨ y.done ≤ y.next ∧
      ∃ n, r = .inl n ∧ (n.enclosable? = none ∨
        n = .call ⟨start, y.done⟩ e [] ∧ t.Symbol '(' x.done (x.next + 1) ∧
          t.Symbol ')' (x.next + 1) y.done) := by
  refine .isAt fun _ => .ite (.token fun _ _ => ?_) ((suffix?_writes hd).bind fun r y hy hr => ?_)
  · exact (call_reads hd _ _ _ hx).bind fun n y hy hn => .pure (.inr ⟨by omega, n, rfl, hn⟩)
  · cases r with
    | none => exact .pure (.inl ⟨rfl, hr.1 rfl⟩)
    | some n => exact .pure (.inr ⟨by omega, n, rfl, .inl (hr.2 n rfl)⟩)

theorem functionSpan?_of_enclosable? {n : Node} (h : n.enclosable? = none) :
    n.functionSpan? = none :=
  Option.eq_none_iff_forall_not_mem.2 fun f hf => by
    rw [Node.enclosable?_of_functionSpan? hf] at h
    cases h

/-- **A function is called where it has been read**, or its call is in parentheses itself. -/
theorem callOrMember_run_ok {span : Span} {c : Node} (hd : d.Writes t) (hs : s.Sound t)
    (hkind : s.token.kind = .punctuator .leftParen)
    (h : (callOrMember d).run s = .ok (.call span c [], s₁)) (hc : c.functionSpan?.isSome) :
    ∃ e s', (head d).run (s.within { s.toContext with allowIn := true }) = .ok (e, s') ∧
      (e = .call span c [] ∨ e = c ∧ 2 ≤ d.bound ∧ t.Symbol '(' s'.spot.done (s'.spot.next + 1) ∧
        t.Symbol ')' (s'.spot.next + 1) span.stop) := by
  have hlawful := hd.toLawful
  rw [callOrMember_run hkind] at h
  obtain ⟨e, s', hhead, h⟩ := run_bind_ok h
  refine ⟨e, s', hhead, ?_⟩
  obtain ⟨hs', -, hread⟩ := head_gives hlawful _ (hs.within _) rfl _ _ hhead
  obtain ⟨r, s₂, hloop, h⟩ := run_bind_ok h
  obtain rfl : r = .call span c [] := by
    rw [run_modifyContext] at h
    exact (Prod.mk.inj (Except.ok.inj h)).1
  obtain ⟨m, o, s₃, hbound, hturn, hloop⟩ := iterate_run_ok hloop
  obtain ⟨hs₃, -, ⟨rfl, -⟩ | ⟨hle, n, rfl, hn⟩⟩ :=
    turn_gives hlawful _ _ _ hread.past.2 _ hs' rfl _ _ hturn
  · cases hloop
    exact .inl rfl
  right
  obtain ⟨m', o', s₄, rfl, -⟩ := iterate_run_ok hloop
  have hfunction : n.functionSpan? = none := by
    rcases hn with hn | ⟨rfl, -⟩
    · exact functionSpan?_of_enclosable? hn
    · rfl
  -- what is called later on is no function
  have hlater := Gives.iterate (t := t)
    (I := fun e y => y.done ≤ y.next ∧ e.functionSpan? = none ∧
      (e = n ∨ ∀ s c, e = .call s c [] → c.functionSpan? = none))
    (R := fun e _ => e = n ∨ ∀ s c, e = .call s c [] → c.functionSpan? = none)
    (fun e y ⟨hy, he, hcalled⟩ => (turn_gives hlawful _ _ e hy).mono ?_)
    ⟨hle, hfunction, .inl rfl⟩ s₃ hs₃ rfl _ _ hloop
  · rcases hlater.2.2 with rfl | hcalled
    · rcases hn with hn | ⟨heq, hopen, hclose⟩
      · cases hn
      · cases heq
        exact ⟨rfl, by omega, hopen, hclose⟩
    · rw [hcalled span c rfl] at hc
      cases hc
  · rintro _ z - (⟨rfl, -⟩ | ⟨hz, n', rfl, hn' | ⟨rfl, -⟩⟩)
    · exact hcalled
    · refine ⟨hz, functionSpan?_of_enclosable? hn', .inr ?_⟩
      rintro _ _ rfl
      cases hn'
    · refine ⟨hz, rfl, .inr ?_⟩
      rintro _ _ ⟨⟩
      exact he

/-- A function is called by what follows the source, and this is all. -/
theorem callOrMember_call {c : Node} {s' : State} (hkind : s.token.kind = .punctuator .leftParen)
    (hhead : (head d).run (s.within { s.toContext with allowIn := true }) = .ok (c, s'))
    (hbound : 2 ≤ d.bound) (hc : c.functionSpan?.isSome) (hcall : s'.AtCall) :
    ∃ span s₁, (callOrMember d).run s = .ok (.call span c [], s₁) ∧ s₁.AtEnd ∧
      s₁.toContext = { s'.toContext with
        isTarget := false, isBinding := false, allowIn := s.allowIn } := by
  obtain ⟨n, hn⟩ : ∃ n, d.bound = n + 1 + 1 := ⟨d.bound - 2, by omega⟩
  obtain ⟨span, s₂, hrun, hend, hcontext⟩ := call_run (d := d) s.spot.next hc hcall
  have hasync : s.token.isNamed Word.async = false := by rw [Token.isNamed, hkind]
  have hturn : (turn d s.token s.spot.next c).run s' = .ok (.inl (.call span c []), s₂) := by
    rw [turn, run_isAt, if_pos (by simp [hcall.kind]), run_token]
    simp only [hasync, Bool.false_and]
    rw [run_bind_of_ok hrun]
    rfl
  have hstop :
      (turn d s.token s.spot.next (.call span c [])).run s₂ = .ok (.inr (.call span c []), s₂) := by
    have htemplate : isAtTemplate.run s₂ = .ok (false, s₂) := by
      rw [isAtTemplate, run_token]
      simp only [show s₂.token.kind = .endOfText from hend]
      rfl
    have hnone : (suffix? d s.spot.next (.call span c [])).run s₂ = .ok (none, s₂) := by
      rw [suffix?, run_isAt, if_neg (by simp [show s₂.token.kind = .endOfText from hend]), run_isAt,
        if_neg (by simp [show s₂.token.kind = .endOfText from hend]), run_bind_of_ok htemplate]
      rfl
    rw [turn, run_isAt, if_neg (by simp [show s₂.token.kind = .endOfText from hend]),
      run_bind_of_ok hnone]
    rfl
  refine ⟨span, s₂.within { s₂.toContext with allowIn := s.allowIn }, ?_, hend, ?_⟩
  rotate_left
  · rw [State.within, hcontext]
  rw [callOrMember_run hkind, run_bind_of_ok hhead, hn]
  have hloop : (iterate (turn d s.token s.spot.next) (n + 1 + 1) c).run s' =
      .ok (.call span c [], s₂) := by
    rw [iterate, run_bind_of_ok hturn]
    show (iterate _ (n + 1) _).run s₂ = _
    rw [iterate, run_bind_of_ok hstop]
    rfl
  rw [run_bind_of_ok hloop]
  rfl

end Parse
end Elementwise
