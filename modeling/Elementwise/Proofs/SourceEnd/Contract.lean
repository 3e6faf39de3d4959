import Elementwise.Grammar.State
import Elementwise.Proofs.Contract
import Elementwise.Proofs.SourceEnd.Reading

/-!
# Parsing in front of the end of a source

A source is called twice, with other blanks behind it.  Up to the parenthesis that closes the source
the two parses go through the same states, but for what they have not read yet; in front of it they
may differ in the line on which it stands.  So what a parser gives in the first parse it gives in
the second one, unless the first has gone beyond this parenthesis.

## What is here

* `SourceEnd` — the two texts; `SourceEnd.Lands` says from where the end of the source is found in
  both.
* `SourceEnd.Before`, `SourceEnd.At` — the states of the two parses, while they are in the source
  and when they have come to its end.
* `SourceEnd.Agrees` — the contract, from one of two limits to one of two limits, and the rules for
  sequences, choices, loops and refusals.
* `SourceEnd.advance_agrees`, `SourceEnd.expect_agrees` … — the contracts of what every parser is
  made of.
-/

set_option autoImplicit false
namespace Elementwise

open Anchor Parse

/-! ## The states of the two parses -/

/-- Two called sources that are the same but for the blanks behind them. -/
structure SourceEnd extends Trailing where
  /-- The source in parentheses, as it is called first. -/
  text : Text

/-- From an offset at which nothing is left of the source but separators, the parenthesis behind it
is found also when the source is called again. -/
def SourceEnd.Lands (x : SourceEnd) (i : Nat) : Prop :=
  ∀ (p : Place) (u : Text), p.index = i → x.text.drop i = u ++ (x.old ++ callSuffix) →
    ∃ q, p.skipSeparators (u ++ (x.new ++ callSuffix)) = .ok (q, callSuffix)

namespace Parse.State

/-- The parse has consumed the parenthesis behind the source. -/
def Behind (s : State) : Prop :=
  s.tokenRest.length < callSuffix.length ∧ s.reader.rest.length < callSuffix.length

/-- The parse looks at the parenthesis behind the source. -/
structure AtSuffix (s : State) : Prop where
  tokenRest : s.tokenRest = callSuffix
  rest : s.reader.rest = callSuffix.tail
  kind : s.token.kind = .punctuator .rightParen

/-- A state with something else left to read. -/
def withRest (s : State) (t u : Text) : State :=
  { s with tokenRest := t, reader := { s.reader with rest := u } }

/-- The context, end of the last consumed token and kind of the token looked at of one state, in
another one. -/
def onto (s s' : State) : State :=
  { s' with
    toContext := s.toContext, last := s.last, token := { s'.token with kind := s.token.kind } }

theorem eq_of_kind {s : State} {kind : TokenKind} (h : s.token.kind = kind) :
    s = { s with token := { s.token with kind } } := by
  rw [← h]

/-- The same context, end of the last consumed token and kind of the token looked at. -/
structure Alike (s s' : State) : Prop where
  context : s.toContext = s'.toContext
  last : s.last = s'.last
  kind : s.token.kind = s'.token.kind

theorem Alike.onto_eq {s s' : State} (h : s.Alike s') : s.onto s' = s' := by
  rw [onto, h.context, h.last, h.kind]

end Parse.State

namespace SourceEnd

/-- How far a parse is followed: until it comes to the end of the source, or as long as it has not
gone beyond that. -/
inductive Limit where
  | reached
  | passed

/-- A parse has come to the limit.  It counts as beyond the end of the source also if it has come to
the parenthesis from where the parenthesis is not found when the source is called again. -/
def Ends (x : SourceEnd) : Limit → State → Prop
  | .reached, s => s.Behind ∨ s.AtSuffix
  | .passed, s => s.Behind ∨ s.AtSuffix ∧ ¬x.Lands s.last.index

/-- In the source the states of the two parses differ in what is left to read. -/
inductive Before (x : SourceEnd) (s : State) : State → Prop
  | intro {c : CodePoint} {t t' u' : Text} (token : s.tokenRest = c :: t)
    (tokenRest : x.Exchanges t t')
    (rest : x.Exchanges s.reader.rest u')
    (place : (Place.beginning x.text).Reaches x.text s.tokenPlace s.tokenRest)
    (reaches : (Place.beginning x.text).Reaches x.text s.reader.place s.reader.rest) :
    Before x s (s.withRest (c :: t') u')

/-- An offset is not behind the source. -/
def Holds (x : SourceEnd) (i : Nat) : Prop := i + (x.old ++ callSuffix).length ≤ x.text.length

/-- Both parses have come to the end of the source, and what they consumed is in it. -/
structure At (x : SourceEnd) (s s' : State) : Prop extends s.Alike s' where
  left : s.AtSuffix
  right : s'.AtSuffix
  consumed : x.Holds s.last.index

/-- The states of the two parses, short of the limit. -/
def Related (x : SourceEnd) : Limit → State → State → Prop
  | .reached, s, s' => x.Before s s'
  | .passed, s, s' => x.Before s s' ∨ x.At s s'

/-- Short of one limit, a parser that succeeds gives the same in the second parse, or it has come to
the other limit. -/
def Agrees {α : Type} (x : SourceEnd) (i o : Limit) (p : Parse α) : Prop :=
  ∀ s a s₁, p.run s = .ok (a, s₁) → (x.Ends i s → x.Ends o s₁) ∧
    ∀ s', x.Related i s s' → x.Ends o s₁ ∨ ∃ s₁', p.run s' = .ok (a, s₁') ∧ x.Related o s₁ s₁'

variable {x : SourceEnd} {i m o : Limit} {s s' : State}

theorem Before.alike (h : x.Before s s') : s.Alike s' := by
  cases h
  exact ⟨rfl, rfl, rfl⟩

theorem Related.alike (h : x.Related i s s') : s.Alike s' := by
  cases i with
  | reached => exact Before.alike h
  | passed => exact h.elim Before.alike At.toAlike

theorem Ends.reached (h : x.Ends i s) : x.Ends .reached s := by
  cases i with
  | reached => exact h
  | passed => exact h.imp_right And.left

theorem Ends.of_passed (h : x.Ends .passed s) : x.Ends o s := by
  cases o with
  | reached => exact h.reached
  | passed => exact h

/-! ## Refusals -/

/-- A parser that refuses every text. -/
def Refuses {α : Type} (p : Parse α) : Prop := ∀ s a s', p.run s ≠ .ok (a, s')

namespace Refuses

variable {α β : Type} {p : Parse α} {f : α → Parse β}

theorem throw {e : ParseError} : Refuses (throw e : Parse α) := by
  rintro s a s' ⟨⟩

theorem bind (h : Refuses p) : Refuses (p >>= f) := by
  intro s b s' hrun
  rw [StateT.run_bind] at hrun
  cases hp : p.run s with
  | error e =>
    rw [hp] at hrun
    cases hrun
  | ok r => exact h _ _ _ hp

theorem refuseFor {a : Token} {cause : Fault} : Refuses (refuseFor a cause : Parse α) := by
  rintro s b s' ⟨⟩

theorem refuse {a : Token} : Refuses (refuse a : Parse α) := by
  rintro s b s' ⟨⟩

theorem refuseToken : Refuses (refuseToken : Parse α) := by
  rintro s b s' ⟨⟩

theorem refuseHere {cause : Fault} : Refuses (refuseHere cause : Parse α) := by
  rintro s b s' ⟨⟩

theorem refuseLine {cause : Fault} : Refuses (refuseLine cause : Parse α) := by
  rintro s b s' ⟨⟩

end Refuses

/-! ## Contracts -/

namespace Agrees

variable {α β σ : Type} {p q : Parse α} {f : α → Parse β}

/-- What consumes a token in front of the end of the source does not stop there. -/
theorem eats (h : x.Agrees .reached .passed p) : x.Agrees i o p := by
  intro s a s₁ hrun
  obtain ⟨hends, hrelated⟩ := h s a s₁ hrun
  refine ⟨fun hs => (hends hs.reached).of_passed, fun s' hs => ?_⟩
  have hbefore (hs : x.Before s s') :
      x.Ends o s₁ ∨ ∃ s₁', p.run s' = .ok (a, s₁') ∧ x.Related o s₁ s₁' := by
    rcases hrelated s' hs with h | ⟨s₁', hrun', h⟩
    · exact .inl h.of_passed
    cases o with
    | passed => exact .inr ⟨s₁', hrun', h⟩
    | reached =>
      rcases h with h | h
      · exact .inr ⟨s₁', hrun', h⟩
      · exact .inl (.inr h.left)
  cases i with
  | reached => exact hbefore hs
  | passed =>
    rcases hs with hs | hs
    · exact hbefore hs
    · exact .inl (hends (.inr hs.left)).of_passed

theorem pure {a : α} : x.Agrees i i (pure a) := by
  rintro s _ _ ⟨⟩
  exact ⟨id, fun s' hs => .inr ⟨s', rfl, hs⟩⟩

theorem bind (h : x.Agrees i m p) (hf : ∀ a, x.Agrees m o (f a)) : x.Agrees i o (p >>= f) := by
  intro s b s₂ hrun
  rw [StateT.run_bind] at hrun
  cases hp : p.run s with
  | error e =>
    rw [hp] at hrun
    cases hrun
  | ok r =>
    obtain ⟨a, s₁⟩ := r
    rw [hp] at hrun
    obtain ⟨hends, hrelated⟩ := h s a s₁ hp
    obtain ⟨hends', hrelated'⟩ := hf a s₁ b s₂ hrun
    refine ⟨fun hs => hends' (hends hs), fun s' hs => ?_⟩
    rcases hrelated s' hs with hs₁ | ⟨s₁', hp', hs₁⟩
    · exact .inl (hends' hs₁)
    rcases hrelated' s₁' hs₁ with hs₂ | ⟨s₂', hrun', hs₂⟩
    · exact .inl hs₂
    · refine .inr ⟨s₂', ?_, hs₂⟩
      rw [StateT.run_bind, hp']
      exact hrun'

/-- Going on as before. -/
theorem next (h : x.Agrees i i p) (hf : ∀ a, x.Agrees i o (f a)) : x.Agrees i o (p >>= f) :=
  h.bind hf

/-- Going on behind a token that has been consumed. -/
theorem after (h : x.Agrees .reached .passed p) (hf : ∀ a, x.Agrees .passed o (f a)) :
    x.Agrees .reached o (p >>= f) := h.bind hf

/-- Going on behind a token that has been consumed as in front of it. -/
theorem anew (h : x.Agrees .reached .passed p) (hf : ∀ a, x.Agrees .reached o (f a)) :
    x.Agrees i o (p >>= f) := h.eats.bind hf

theorem pure_bind {a : α} (h : x.Agrees i o (f a)) : x.Agrees i o (Pure.pure a >>= f) := h

theorem ite {c : Prop} [Decidable c] (hp : x.Agrees i o p) (hq : x.Agrees i o q) :
    x.Agrees i o (if c then p else q) := by
  split
  · exact hp
  · exact hq

/-! ### Reading the state -/

/-- What depends on the context, the last consumed token and the kind of the token looked at is the
same also at the end of the source. -/
theorem consult {f : State → Parse β} (hsame : (fun s s' : State => f (s.onto s')) = fun s _ => f s)
    (hf : ∀ s, x.Agrees i o (f s)) : x.Agrees i o (get >>= f) := by
  intro s b s₁ hrun
  obtain ⟨hends, hrelated⟩ := hf s s b s₁ hrun
  refine ⟨hends, fun s' hs => ?_⟩
  have heq : f s' = f s := hs.alike.onto_eq ▸ congrFun₂ hsame s s'
  show _ ∨ ∃ s₁', (f s').run s' = _ ∧ _
  rw [heq]
  exact hrelated s' hs

/-- In the source everything is the same but what is left to read. -/
theorem get {f : State → Parse β} (hsame : (fun s t u => f (s.withRest t u)) = fun s _ _ => f s)
    (hf : ∀ s, x.Agrees .reached o (f s)) : x.Agrees .reached o (get >>= f) := by
  intro s b s₁ hrun
  obtain ⟨hends, hrelated⟩ := hf s s b s₁ hrun
  refine ⟨hends, fun s' hs => ?_⟩
  have heq : f s' = f s := by
    cases (hs : x.Before s s')
    exact congrFun₃ hsame _ _ _
  show _ ∨ ∃ s₁', (f s').run s' = _ ∧ _
  rw [heq]
  exact hrelated s' hs

theorem here {f : Nat → Parse β} (hf : ∀ n, x.Agrees .reached o (f n)) :
    x.Agrees .reached o (here >>= f) := get rfl fun _ => hf _

theorem spanFrom {start : Nat} {f : Span → Parse β} (hf : ∀ span, x.Agrees i o (f span)) :
    x.Agrees i o (spanFrom start >>= f) := consult rfl fun _ => hf _

theorem token {f : Token → Parse β} (hf : ∀ a, x.Agrees .reached o (f a)) :
    x.Agrees .reached o (token >>= f) := get rfl fun _ => hf _

theorem kind {f : Token → Parse β}
    (hsame : (fun a b : Token => f { b with kind := a.kind }) = fun a _ => f a)
    (hf : ∀ a, x.Agrees i o (f a)) : x.Agrees i o (Parse.token >>= f) :=
  consult (funext₂ fun s s' => congrFun₂ hsame s.token s'.token) fun _ => hf _

theorem isAt {q : Punctuator} {f : Bool → Parse β} (hf : ∀ b, x.Agrees i o (f b)) :
    x.Agrees i o (isAt q >>= f) := consult rfl fun _ => hf _

/-- At the end of the source only a closing parenthesis is looked at. -/
theorem isAtOther {q : Punctuator} (hq : q ≠ .rightParen) {f : Bool → Parse β}
    (htrue : x.Agrees .reached o (f true)) (hfalse : x.Agrees i o (f false)) :
    x.Agrees i o (Parse.isAt q >>= f) := by
  intro s b s₁ hrun
  by_cases hkind : s.token.kind = .punctuator q
  · have hrun' {s : State} (hkind : s.token.kind = .punctuator q) :
        (Parse.isAt q >>= f).run s = (f true).run s := by
      show (f (decide (s.token.kind = _))).run s = _
      rw [decide_eq_true hkind]
    rw [hrun' hkind] at hrun
    obtain ⟨hends, hrelated⟩ := htrue s b s₁ hrun
    refine ⟨fun hs => hends hs.reached, fun s' hs => ?_⟩
    rw [hrun' (hs.alike.kind ▸ hkind)]
    refine hrelated s' ?_
    cases i with
    | reached => exact hs
    | passed =>
      refine hs.resolve_right fun hs => hq ?_
      simpa [hs.left.kind] using hkind.symm
  · have hrun' {s : State} (hkind : s.token.kind ≠ .punctuator q) :
        (Parse.isAt q >>= f).run s = (f false).run s := by
      show (f (decide (s.token.kind = _))).run s = _
      rw [decide_eq_false hkind]
    rw [hrun' hkind] at hrun
    obtain ⟨hends, hrelated⟩ := hfalse s b s₁ hrun
    refine ⟨hends, fun s' hs => ?_⟩
    rw [hrun' (hs.alike.kind ▸ hkind)]
    exact hrelated s' hs

/-- What does nothing in front of a closing parenthesis is the same also at the end of the
source. -/
theorem stays {f : State → Parse β} {b : State → β}
    (hsame : (fun s t u => f (s.withRest t u)) = fun s _ _ => f s)
    (hb : (fun s s' : State => b (s.onto s')) = fun s _ => b s) (hf : ∀ s, x.Agrees i i (f s))
    (hclosing : ∀ s, s.token.kind = .punctuator .rightParen → (f s).run s = .ok (b s, s)) :
    x.Agrees i i (MonadState.get >>= f) := by
  intro s c s₁ hrun
  obtain ⟨hends, hrelated⟩ := hf s s c s₁ hrun
  refine ⟨hends, fun s' hs => ?_⟩
  have hbefore (hs' : x.Before s s') :
      x.Ends i s₁ ∨ ∃ s₁', (f s').run s' = .ok (c, s₁') ∧ x.Related i s₁ s₁' := by
    have heq : f s' = f s := by
      cases hs'
      exact congrFun₃ hsame _ _ _
    rw [heq]
    exact hrelated s' hs
  cases i with
  | reached => exact hbefore hs
  | passed =>
    rcases hs with hs | hs
    · exact hbefore hs
    · have hrun : (f s).run s = .ok (c, s₁) := hrun
      rw [hclosing s hs.left.kind] at hrun
      cases hrun
      have heq : b s' = b s := hs.onto_eq ▸ congrFun₂ hb s s'
      exact .inr ⟨s', heq ▸ hclosing s' hs.right.kind, .inr hs⟩

theorem isAtKeyword {k : Keyword} {f : Bool → Parse β} (hf : ∀ b, x.Agrees i o (f b)) :
    x.Agrees i o (isAtKeyword k >>= f) := consult rfl fun _ => hf _

theorem isAtName {name : Text} {f : Bool → Parse β} (hf : ∀ b, x.Agrees i o (f b)) :
    x.Agrees i o (isAtName name >>= f) :=
  consult rfl fun _ => hf _

theorem isAtEnd {f : Bool → Parse β} (hf : ∀ b, x.Agrees i o (f b)) :
    x.Agrees i o (isAtEnd >>= f) :=
  consult rfl fun _ => hf _

/-! ### Contexts and refusals -/

theorem modifyContext {g : Context → Context} {f : Unit → Parse β} (hf : x.Agrees i o (f ())) :
    x.Agrees i o (modifyContext g >>= f) := by
  have hends {s : State} : x.Ends i s → x.Ends i { s with toContext := g s.toContext } := by
    cases i with
    | reached => exact Or.imp_right fun h => { h with }
    | passed => exact Or.imp_right fun h => ⟨{ h.1 with }, h.2⟩
  have hrelated {s s' : State} (hs : x.Related i s s') :
      x.Related i { s with toContext := g s.toContext }
        { s' with toContext := g s'.toContext } := by
    have hbefore (hs : x.Before s s') :
        x.Before { s with toContext := g s.toContext } { s' with toContext := g s'.toContext } := by
      obtain ⟨htoken, htokenRest, hrest, hplace, hreaches⟩ := hs
      exact ⟨htoken, htokenRest, hrest, hplace, hreaches⟩
    cases i with
    | reached => exact hbefore hs
    | passed =>
      exact hs.imp hbefore fun h =>
        ⟨{ h with context := congrArg g h.context }, { h.left with }, { h.right with }, h.consumed⟩
  refine bind (m := i) ?_ fun _ => hf
  rintro s _ _ ⟨⟩
  exact ⟨hends, fun s' hs => .inr ⟨_, rfl, hrelated hs⟩⟩

theorem markValue {f : Unit → Parse β} (hf : x.Agrees i o (f ())) :
    x.Agrees i o (markValue >>= f) := modifyContext hf

theorem markMember {f : Unit → Parse β} (hf : x.Agrees i o (f ())) :
    x.Agrees i o (markMember >>= f) := modifyContext hf

theorem of_refuses (h : Refuses p) : x.Agrees i o p := fun _ _ _ hrun => (h _ _ _ hrun).elim

theorem refuse {a : Token} : x.Agrees i o (refuse a : Parse α) := of_refuses .refuse

theorem refuseFor {a : Token} {cause : Fault} : x.Agrees i o (refuseFor a cause : Parse α) :=
  of_refuses .refuseFor

theorem refuseToken : x.Agrees i o (refuseToken : Parse α) := of_refuses .refuseToken

theorem refuseHere {cause : Fault} : x.Agrees i o (refuseHere cause : Parse α) :=
  of_refuses .refuseHere

theorem refuseLine {cause : Fault} : x.Agrees i o (refuseLine cause : Parse α) :=
  of_refuses .refuseLine

/-- What comes behind a refusal plays no part. -/
theorem absurd (h : Refuses p) : x.Agrees i o (p >>= f) := of_refuses h.bind

/-- A check that refuses. -/
theorem guard {c : Prop} [Decidable c] {q : Parse β} (h : Refuses p) (hq : x.Agrees i o q) :
    x.Agrees i o (if c then p >>= f else q) := ite (absurd h) hq

/-! ### Nesting and loops -/

theorem isolate (h : x.Agrees i o p) : x.Agrees i o (isolate p) := by
  refine consult rfl fun _ => modifyContext (h.bind fun _ => consult rfl fun _ => ?_)
  split
  · exact absurd .refuse
  · exact modifyContext pure

theorem inherit (h : x.Agrees i o p) : x.Agrees i o (inherit p) :=
  consult rfl fun _ => modifyContext (h.bind fun _ => modifyContext pure)

theorem iterate {step : σ → Parse (σ ⊕ β)} (hstep : ∀ a, x.Agrees i i (step a)) {n : Nat} {a : σ} :
    x.Agrees i i (iterate step n a) := by
  induction n generalizing a with
  | zero => exact refuseHere
  | succ n ih =>
    refine (hstep a).bind fun r => ?_
    cases r with
    | inl => exact ih
    | inr => exact pure

theorem collect {step : Parse (Option α)} (hstep : x.Agrees i i step) {n : Nat} :
    x.Agrees i i (collect step n) := by
  induction n with
  | zero => exact refuseHere
  | succ n ih =>
    refine hstep.bind fun r => ?_
    cases r with
    | none => exact pure
    | some a => exact ih.bind fun _ => pure

end Agrees

/-! ## Tokens -/

/-- Behind the end of the source a parse goes on behind it. -/
theorem behind_next (h : x.Ends .reached s) {s₁ : State} (hnext : s.next = .ok s₁) : s₁.Behind := by
  have hrest : s.reader.rest.length < callSuffix.length := by
    rcases h with h | h
    · exact h.2
    · rw [h.rest]
      decide
  unfold State.next at hnext
  split at hnext
  · cases hnext
  · next r hskip =>
    have hle := (Reader.reaches_skipSeparators hskip).suffix.length_le
    split at hnext
    · cases hnext
    · next htoken =>
      have hle' := (Reader.reaches_token htoken).1.suffix.length_le
      cases hnext
      exact ⟨Nat.lt_of_le_of_lt hle hrest, Nat.lt_of_le_of_lt (hle'.trans hle) hrest⟩

theorem next_eq {r r₁ : Reader} {b : Token} (hskip : s.reader.skipSeparators = .ok r)
    (htoken : r.token = .ok (b, r₁)) :
    s.next = .ok { s with
      last := s.reader.place, tokenPlace := r.place, tokenRest := r.rest
      token := if s.strict then strictToken b else b
      afterNewline := s.token.line != b.line, reader := r₁ } := by
  simp only [State.next, hskip, htoken]

/-- The parenthesis behind the source is read as such. -/
theorem next_of_landing {r : Reader} (hskip : s.reader.skipSeparators = .ok r)
    (hrest : r.rest = callSuffix) :
    ∃ s₁, s.next = .ok s₁ ∧ s₁.AtSuffix ∧ s₁.toContext = s.toContext ∧
      s₁.last = s.reader.place := by
  obtain ⟨p, t, braces⟩ := r
  obtain rfl : t = callSuffix := hrest
  have htoken : Reader.token ⟨p, callSuffix, braces⟩ =
      .ok (⟨.punctuator .rightParen, ⟨p.index, p.index + 1⟩, p.line⟩,
        ⟨p.step 1, callSuffix.tail, braces⟩) := rfl
  refine ⟨_, next_eq hskip htoken, ⟨rfl, rfl, ?_⟩, rfl, rfl⟩
  show (if s.strict then _ else _ : Token).kind = _
  cases s.strict <;> rfl

/-- **Up to the end of the source the next token is the same.** -/
theorem related_next (h : x.Before s s') {s₁ : State} (hnext : s.next = .ok s₁) :
    x.Ends .passed s₁ ∨ ∃ s₁', s'.next = .ok s₁' ∧ x.Related .passed s₁ s₁' := by
  obtain @⟨c₀, _, t₀, _, -, -, hrest, -, hreaches⟩ := h
  cases hskip : s.reader.skipSeparators with
  | error e =>
    rw [State.next, hskip] at hnext
    cases hnext
  | ok r =>
    have hreaches' := hreaches.trans (Reader.reaches_skipSeparators hskip)
    rcases Reader.skipSeparators_exchanges hskip hrest with
      ⟨c, v, v', hv, hskip', hexchanges⟩ | ⟨hend | hend, -⟩
    · obtain ⟨p, t, braces⟩ := r
      obtain rfl : t = c :: v := hv
      cases htoken : Reader.token ⟨p, c :: v, braces⟩ with
      | error e =>
        simp only [State.next, hskip, htoken] at hnext
        cases hnext
      | ok b =>
        obtain ⟨b, r₁⟩ := b
        rw [next_eq hskip htoken] at hnext
        cases hnext
        obtain ⟨u', htoken', hu⟩ := Reader.token_exchanges htoken hexchanges
        refine .inr ⟨_, next_eq (s := s.withRest _ _) hskip' htoken', .inl ?_⟩
        exact .intro rfl hexchanges hu hreaches' (hreaches'.trans (Reader.reaches_token htoken).1)
    · obtain ⟨s₂, hnext₂, hsuffix, hcontext, hlast⟩ := next_of_landing hskip hend
      rw [hnext] at hnext₂
      cases hnext₂
      by_cases hlands : x.Lands s.reader.place.index
      · obtain ⟨u, hu, rfl⟩ := hrest
        obtain ⟨q, hlands⟩ := hlands s.reader.place u rfl (by rw [hreaches.drop_index, hu])
        obtain ⟨s₁', hnext', hsuffix', hcontext', hlast'⟩ :=
          next_of_landing (s := s.withRest (c₀ :: t₀) (u ++ (x.new ++ callSuffix)))
            (r := ⟨q, callSuffix, s.reader.braces⟩)
            (by simp only [State.withRest, Reader.skipSeparators, hlands]) rfl
        refine .inr ⟨s₁', hnext', .inr ⟨⟨?_, ?_, ?_⟩, hsuffix, hsuffix', ?_⟩⟩
        · exact hcontext.trans hcontext'.symm
        · exact hlast.trans hlast'.symm
        · exact hsuffix.kind.trans hsuffix'.kind.symm
        · have hlength := congrArg List.length (hreaches.drop_index.trans hu)
          have hpos : 0 < callSuffix.length := by decide
          simp only [List.length_drop, List.length_append] at hlength
          simp only [hlast, Holds, List.length_append]
          omega
      · exact .inl (.inr ⟨hsuffix, by rwa [hlast]⟩)
    · obtain ⟨p, t, braces⟩ := r
      obtain rfl : t = [] := hend
      have htoken : Reader.token ⟨p, [], braces⟩ =
          .ok (⟨.endOfText, ⟨p.index, p.index⟩, p.line⟩, ⟨p, [], braces⟩) := rfl
      rw [next_eq hskip htoken] at hnext
      cases hnext
      have hpos : 0 < callSuffix.length := by decide
      exact .inl (.inl ⟨hpos, hpos⟩)

theorem advance_agrees : x.Agrees i o advance := by
  refine .eats fun s a s₁ hrun => ?_
  rw [advance_run] at hrun
  cases hnext : s.next with
  | error e =>
    rw [hnext] at hrun
    cases hrun
  | ok s₂ =>
    rw [hnext] at hrun
    cases hrun
    refine ⟨fun hs => .inl (behind_next hs hnext), fun s' hs => ?_⟩
    refine (related_next hs hnext).imp_right ?_
    rintro ⟨s₁', hnext', hs₁⟩
    refine ⟨s₁', ?_, hs₁⟩
    rw [advance_run, hnext']
    cases (hs : x.Before s s')
    rfl

/-- Looking at the next token does not tell what stands behind the source. -/
theorem Agrees.peek {β : Type} {f : Token → Parse β} (hf : ∀ a, x.Agrees .reached o (f a))
    (hclosing : ∀ a b : Token, a.kind.IsClosing → b.kind.IsClosing → f a = f b) :
    x.Agrees .reached o (peek >>= f) := by
  intro s b s₂ hrun
  rw [StateT.run_bind, peek_run] at hrun
  cases hpeek : s.reader.peek with
  | error e =>
    rw [hpeek] at hrun
    cases hrun
  | ok r =>
    obtain ⟨a, braces⟩ := r
    rw [hpeek] at hrun
    obtain ⟨hends, hrelated⟩ := hf a _ b s₂ hrun
    refine ⟨fun hs => hends (hs.imp_right fun h => { h with }), fun s' hs => ?_⟩
    cases (hs : x.Before s s') with
    | @intro c _ t' u' htoken htokenRest hrest hplace hreaches =>
      have hbefore : x.Before { s with reader := { s.reader with braces } }
          { s.withRest (c :: t') u' with reader := { s.reader with rest := u', braces } } :=
        .intro htoken htokenRest hrest hplace hreaches
      refine (hrelated _ hbefore).imp_right fun ⟨s₂', hrun', hs₂⟩ => ⟨s₂', ?_, hs₂⟩
      rw [StateT.run_bind, peek_run]
      rcases Reader.peek_exchanges hpeek hrest with hpeek' | ⟨hkind, -, a', hpeek', hkind'⟩
      · rw [show (s.withRest (c :: t') u').reader.peek = _ from hpeek']
        exact hrun'
      · rw [show (s.withRest (c :: t') u').reader.peek = _ from hpeek']
        rw [hclosing a a' hkind hkind'] at hrun'
        exact hrun'

theorem expect_agrees (q : Punctuator) : x.Agrees i o (expect q) :=
  .eats <| advance_agrees.bind fun _ => .ite .refuse .pure

theorem expectKeyword_agrees (k : Keyword) : x.Agrees i o (expectKeyword k) :=
  .eats <| advance_agrees.bind fun _ => .ite .refuse .pure

theorem accept_agrees (q : Punctuator) : x.Agrees i i (accept q) :=
  .isAt fun _ => .ite (advance_agrees.next fun _ => .pure) .pure

theorem acceptKeyword_agrees (k : Keyword) : x.Agrees i i (acceptKeyword k) :=
  .isAtKeyword fun _ => .ite (advance_agrees.next fun _ => .pure) .pure

/-- The end of a statement may be moved to the token looked at. -/
theorem endStatement_eq : endStatement = (do
    if ← isAt .semicolon then
      let _ ← advance
    else
      let s ← get
      if s.afterNewline then return
      else if s.token.kind ≠ .endOfText ∧ s.token.kind ≠ .punctuator .rightBrace then refuse s.token
      else modify fun s => { s with last := s.tokenPlace }) := by
  unfold endStatement
  refine congrArg (isAt .semicolon >>= ·) (funext fun b => ?_)
  refine congrArg (ite (b = true) _) (funext fun s => ?_)
  show (if s.afterNewline = true then _ else _ : Parse Unit) s =
    (if s.afterNewline = true then _ else _ : Parse Unit) s
  split
  · rfl
  dsimp only
  split <;> rfl

/-- In the source a statement ends alike in both texts. -/
theorem endStatement_agrees : x.Agrees .reached .reached endStatement := by
  have hmove : x.Agrees .reached .reached
      (modify fun s => { s with last := s.tokenPlace } : Parse Unit) := by
    rintro s _ _ ⟨⟩
    refine ⟨Or.imp_right fun h => { h with }, fun s' hs => .inr ?_⟩
    obtain ⟨htoken, htokenRest, hrest, hplace, hreaches⟩ : x.Before s s' := hs
    exact ⟨_, rfl,
      .intro (s := { s with last := s.tokenPlace }) htoken htokenRest hrest hplace hreaches⟩
  rw [endStatement_eq]
  refine .isAt fun _ => .ite (advance_agrees.next fun _ => .pure) ?_
  exact .get rfl fun s => .ite .pure <| .ite .refuse hmove

/-! ## Recursion -/

end SourceEnd

/-- How to parse what lies deeper agrees: an expression consumes a token. -/
structure Parse.Deeper.Agrees (x : SourceEnd) (d : Deeper) : Prop where
  assignment : x.Agrees .reached .passed (d.parse .assignment)
  unary : x.Agrees .reached .passed (d.parse .unary)
  power : x.Agrees .reached .passed (d.parse .power)
  callee : x.Agrees .reached .passed (d.parse .callee)
  call : x.Agrees .reached .passed (d.parse .call)
  item : x.Agrees .reached .reached (d.parse .item)
  statement : x.Agrees .reached .reached (d.parse .statement)

namespace SourceEnd

variable {x : SourceEnd} {i o : Limit} {d : Deeper}

theorem expression_agrees (hd : d.Agrees x) : x.Agrees i o (expression d) := by
  refine .eats <| .here fun _ => hd.assignment.isolate.after fun _ => .isAt fun _ => .ite ?_ .pure
  refine (Agrees.collect ?_).next fun _ => .spanFrom fun _ => .pure
  exact (accept_agrees _).next fun _ => .ite (hd.assignment.isolate.eats.next fun _ => .pure) .pure

theorem identifierName_agrees : x.Agrees i o identifierName :=
  .eats <| .here fun _ => advance_agrees.after fun _ => .guard .refuse <| .spanFrom fun _ => .pure

end SourceEnd
end Elementwise
