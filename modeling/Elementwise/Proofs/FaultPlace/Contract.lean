import Elementwise.Proofs.Contract
import Elementwise.Proofs.FaultPlace.Reading

/-!
# Parsers that stay in their text

A parser refuses a text for a token or at a place, and both come from the state it is in: the token
looked at, the last consumed one, or one that was kept for later.  So a parser that begins where all
of these lie in a text refuses that text at a place in it, and leaves such a state behind if it does
not.  `Parse.Stays` says so, with a condition on the result for parsers that give tokens.

## What is here

* `Token.LiesIn`, `Parse.State.LiesIn` — tokens and states that lie in a text.
* `Parse.Stays` — the contract, and the rules for sequences, choices, loops and refusals.
* `Parse.advance_stays`, `Parse.expect_stays`, `Parse.endStatement_stays` … — the contracts of what
  every parser is made of.
-/

set_option autoImplicit false
namespace Elementwise

namespace Parse

/-- A context lies in a text if the token it keeps does. -/
def Context.LiesIn (w : Text) (c : Context) : Prop := ∀ a ∈ c.coverInit, Token.LiesIn w a

/-- A state lies in a text if all the places and tokens it holds do.  The token looked at begins on
its line and does not end before it begins, and the last one does not end on a later line. -/
structure State.LiesIn (w : Text) (s : State) : Prop where
  closed : w.getLast? ≠ some (.scalar '\\')
  place : s.tokenPlace.Fronts s.tokenRest w
  reader : s.reader.place.Fronts s.reader.rest w
  token : s.token.LiesIn w
  ending : s.tokenRest = [] → s.token.kind = .endOfText
  inLine : ∀ c ∈ s.tokenRest.head?, c.isLineTerminator = false
  ahead : s.tokenPlace.index ≤ s.reader.place.index
  level : ∀ q, s.token.kind = .punctuator q → s.reader.place.line = s.tokenPlace.line
  last : s.last.LiesIn w
  order : s.last.line ≤ s.reader.place.line
  context : s.toContext.LiesIn w

/-- Begun in a given state, a parser refuses the text at a place in it, or ends in a state that lies
in the text with a result of which a condition holds. -/
def StaysFrom {α : Type} (w : Text) (s : State) (p : Parse α) (P : α → Prop := fun _ => True) :
    Prop :=
  (∀ a s', p.run s = .ok (a, s') → P a ∧ s'.LiesIn w) ∧ ∀ e, p.run s = .error e → e.LiesIn w

/-- A parser stays in a text if it does so from every state that lies in it. -/
def Stays {α : Type} (w : Text) (p : Parse α) (P : α → Prop := fun _ => True) : Prop :=
  ∀ s, s.LiesIn w → StaysFrom w s p P

namespace StaysFrom

variable {β : Type} {w : Text} {s : State} {R : β → Prop}

theorem get {f : State → Parse β} (h : StaysFrom w s (f s) R) : StaysFrom w s (get >>= f) R := h

theorem modify {g : State → State} {f : Unit → Parse β} (h : StaysFrom w (g s) (f ()) R) :
    StaysFrom w s (modify g >>= f) R := h

end StaysFrom

namespace Stays

variable {α β σ : Type} {w : Text} {p q : Parse α} {P Q : α → Prop} {f : α → Parse β}
  {R : β → Prop}

theorem pure {a : α} (h : P a) : Stays w (pure a) P := by
  refine fun s hs => ⟨?_, ?_⟩
  · rintro _ _ ⟨⟩
    exact ⟨h, hs⟩
  · rintro _ ⟨⟩

theorem throw {e : ParseError} (he : e.LiesIn w) : Stays w (throw e : Parse α) P := by
  refine fun s _ => ⟨?_, ?_⟩
  · rintro _ _ ⟨⟩
  · rintro _ ⟨⟩
    exact he

theorem bind (h : Stays w p P) (hf : ∀ a, P a → Stays w (f a) R) : Stays w (p >>= f) R := by
  intro s hs
  rw [StaysFrom, StateT.run_bind]
  cases hp : p.run s with
  | error e =>
    refine ⟨?_, ?_⟩
    · rintro _ _ ⟨⟩
    · rintro _ ⟨⟩
      exact (h s hs).2 e hp
  | ok r =>
    obtain ⟨ha, hs'⟩ := (h s hs).1 _ _ hp
    exact hf r.1 ha r.2 hs'

theorem mono (h : Stays w p P) (hP : ∀ a, P a → Q a) : Stays w p Q := by
  refine fun s hs => ⟨fun a s' hrun => ?_, (h s hs).2⟩
  obtain ⟨ha, hs'⟩ := (h s hs).1 a s' hrun
  exact ⟨hP a ha, hs'⟩

theorem pure_bind {a : α} (h : Stays w (f a) R) : Stays w (Pure.pure a >>= f) R := h

theorem ite {c : Prop} [Decidable c] (hp : Stays w p P) (hq : Stays w q P) :
    Stays w (if c then p else q) P := by
  split
  · exact hp
  · exact hq

/-! ### Reading the state -/

theorem getFrom {f : State → Parse β} (hf : ∀ s : State, s.LiesIn w → StaysFrom w s (f s) R) :
    Stays w (get >>= f) R := hf

theorem get {f : State → Parse β} (hf : ∀ s : State, s.LiesIn w → Stays w (f s) R) :
    Stays w (get >>= f) R := fun s hs => hf s hs s hs

theorem here {f : Nat → Parse β} (hf : ∀ n, Stays w (f n) R) : Stays w (here >>= f) R :=
  get fun _ _ => hf _

theorem spanFrom {start : Nat} {f : Span → Parse β} (hf : ∀ span, Stays w (f span) R) :
    Stays w (spanFrom start >>= f) R := get fun _ _ => hf _

theorem token {f : Token → Parse β} (hf : ∀ a, a.LiesIn w → Stays w (f a) R) :
    Stays w (token >>= f) R := get fun _ hs => hf _ hs.token

theorem isAt {p : Punctuator} {f : Bool → Parse β} (hf : ∀ b, Stays w (f b) R) :
    Stays w (isAt p >>= f) R := get fun _ _ => hf _

theorem isAtKeyword {k : Keyword} {f : Bool → Parse β} (hf : ∀ b, Stays w (f b) R) :
    Stays w (isAtKeyword k >>= f) R := get fun _ _ => hf _

theorem isAtName {name : Text} {f : Bool → Parse β} (hf : ∀ b, Stays w (f b) R) :
    Stays w (isAtName name >>= f) R := get fun _ _ => hf _

theorem isAtEnd {f : Bool → Parse β} (hf : ∀ b, Stays w (f b) R) : Stays w (isAtEnd >>= f) R :=
  get fun _ _ => hf _

/-! ### Contexts and refusals -/

/-- A change of the context, which may drop the token it keeps but not bring in another one. -/
theorem alterContext {g : Context → Context} {f : Unit → Parse β} (hf : Stays w (f ()) R)
    (hg : ∀ c : Context, c.LiesIn w → (g c).LiesIn w) : Stays w (modifyContext g >>= f) R := by
  intro s hs
  exact hf { s with toContext := g s.toContext } { hs with context := hg _ hs.context }

/-- A change of the context that leaves the token it keeps. -/
theorem modifyContext {g : Context → Context} {f : Unit → Parse β}
    (hg : Context.coverInit ∘ g = Context.coverInit) (hf : Stays w (f ()) R) :
    Stays w (modifyContext g >>= f) R :=
  alterContext hf fun c hc b hb => hc b (congrFun hg c ▸ hb)

theorem markValue {f : Unit → Parse β} (hf : Stays w (f ()) R) : Stays w (markValue >>= f) R :=
  modifyContext rfl hf

theorem markMember {f : Unit → Parse β} (hf : Stays w (f ()) R) : Stays w (markMember >>= f) R :=
  modifyContext rfl hf

/-- The column counts from the line of the last consumed token, also where another one is blamed. -/
theorem refuseFor {a : Token} {cause : Fault} (ha : a.LiesIn w) :
    Stays w (refuseFor a cause : Parse α) P :=
  get fun _ hs => throw (ha.fault hs.last cause)

theorem refuse {a : Token} (ha : a.LiesIn w) : Stays w (refuse a : Parse α) P :=
  get fun _ _ => refuseFor ha

theorem refuseToken : Stays w (refuseToken : Parse α) P := get fun _ hs => refuse hs.token

theorem refuseHere {cause : Fault} : Stays w (refuseHere cause : Parse α) P :=
  get fun _ hs => throw (hs.last.fault cause)

/-- The line is that of the token looked at. -/
theorem refuseLine {cause : Fault} : Stays w (refuseLine cause : Parse α) P :=
  get fun _ hs => throw (hs.last.fault_later hs.reader.liesIn hs.order cause)

/-- What comes behind a refusal plays no part. -/
theorem absurd (h : Stays w p fun _ => False) : Stays w (p >>= f) R :=
  h.bind fun _ hfalse => hfalse.elim

/-- A check that refuses. -/
theorem guard {c : Prop} [Decidable c] {q : Parse β} (h : Stays w p fun _ => False)
    (hq : Stays w q R) : Stays w (if c then p >>= f else q) R := ite (absurd h) hq

/-! ### Nesting and loops -/

theorem isolate (h : Stays w p P) : Stays w (isolate p) P := by
  have hnone (c : Context) (_ : c.LiesIn w) :
      Context.LiesIn w { c with isBinding := true, isTarget := true, coverInit := none } :=
    fun _ hb => by cases hb
  refine get fun s hs => alterContext (h.bind fun a ha => get fun s' hs' => ?_) hnone
  split
  · next b hb => exact absurd (refuse (hs'.context b hb))
  · exact alterContext (pure ha) fun _ _ => hs.context

theorem inherit (h : Stays w p P) : Stays w (inherit p) P := by
  have hnone (c : Context) (_ : c.LiesIn w) :
      Context.LiesIn w { c with isBinding := true, isTarget := true, coverInit := none } :=
    fun _ hb => by cases hb
  refine get fun s hs => alterContext (h.bind fun a ha => alterContext (pure ha) ?_) hnone
  intro c hc b hb
  cases hcover : s.coverInit with
  | none => exact hc b (by simpa [hcover] using hb)
  | some b' => exact hs.context b (by simpa [hcover] using hb)

/-- A loop keeps what each of its turns keeps. -/
theorem iterate {step : σ → Parse (σ ⊕ β)} {I : σ → Prop}
    (hstep : ∀ a, I a → Stays w (step a) (Sum.elim I R)) {n : Nat} {a : σ} (ha : I a) :
    Stays w (iterate step n a) R := by
  induction n generalizing a with
  | zero => exact refuseHere
  | succ n ih =>
    refine (hstep a ha).bind fun r hr => ?_
    cases r with
    | inl => exact ih hr
    | inr => exact pure hr

/-- A loop of which nothing is kept. -/
theorem loop {step : σ → Parse (σ ⊕ β)} (hstep : ∀ a, Stays w (step a)) {n : Nat} {a : σ} :
    Stays w (Parse.iterate step n a) := by
  refine iterate (I := fun _ => True) (fun a _ => (hstep a).mono fun r _ => ?_) trivial
  cases r <;> trivial

theorem collect {step : Parse (Option α)} (hstep : Stays w step) {n : Nat} :
    Stays w (collect step n) := by
  induction n with
  | zero => exact refuseHere
  | succ n ih =>
    refine hstep.bind fun r _ => ?_
    cases r with
    | none => exact pure trivial
    | some a => exact ih.bind fun _ _ => pure trivial

end Stays

/-! ## Tokens -/

section

variable {w : Text}

theorem strictToken_liesIn {a : Token} (h : a.LiesIn w) : (strictToken a).LiesIn w := by
  rwa [Token.LiesIn, strictToken_span, strictToken_line]

/-- The state behind a token lies in the text, if the reader stands in it. -/
theorem State.liesIn_next {s s' : State} (hw : w.getLast? ≠ some (.scalar '\\'))
    (hs : s.reader.place.Fronts s.reader.rest w) (hcontext : s.toContext.LiesIn w)
    (h : s.next = .ok s') : s'.LiesIn w := by
  unfold State.next at h
  split at h
  case h_1 => cases h
  case h_2 r hskip =>
    have hr := Reader.fronts_skipSeparators hs hskip
    split at h
    case h_1 => cases h
    case h_2 a r' htoken =>
      cases h
      have ha := Reader.liesIn_token hr htoken
      have hr' := Reader.fronts_token hr htoken
      have hahead := (Reader.reaches_token htoken).1.le
      refine
        { closed := hw
          place := hr
          reader := hr'
          token := ?token
          ending := fun hrest => ?ending
          inLine := Reader.inLine_skipSeparators hskip
          ahead := hahead
          level := fun q hkind => ?level
          last := hs.liesIn
          order := ?order
          context := hcontext }
      case token =>
        cases s.strict
        · exact ha
        · exact strictToken_liesIn ha
      case ending =>
        have hending := Reader.kind_of_rest_nil hrest htoken
        cases s.strict <;> simp [strictToken_endOfText hending, hending]
      case level =>
        refine (Reader.line_token htoken).2 q ?_
        cases hstrict : s.strict <;> rw [hstrict] at hkind
        · exact hkind
        · exact strictToken_punctuator hkind
      case order =>
        rw [hs.lineAt, hr'.lineAt]
        exact w.lineAt_mono (Nat.le_trans (Reader.reaches_skipSeparators hskip).le hahead)

/-- What cannot be read is refused at a place in the text. -/
theorem State.fault_next {s : State} {e : ParseError} (hw : w.getLast? ≠ some (.scalar '\\'))
    (hs : s.reader.place.Fronts s.reader.rest w) (h : s.next = .error e) : e.LiesIn w := by
  unfold State.next at h
  split at h
  case h_1 hskip =>
    cases h
    exact Reader.fault_skipSeparators hs hskip
  case h_2 r hskip =>
    have hr := Reader.fronts_skipSeparators hs hskip
    split at h
    case h_1 htoken =>
      cases h
      exact Reader.fault_token hw hr htoken
    case h_2 => cases h

theorem advance_stays : Stays w advance (Token.LiesIn w) := by
  intro s hs
  rw [StaysFrom, advance_run]
  cases hnext : s.next with
  | error e =>
    refine ⟨?_, ?_⟩
    · rintro _ _ ⟨⟩
    · rintro _ ⟨⟩
      exact State.fault_next hs.closed hs.reader hnext
  | ok s' =>
    refine ⟨?_, ?_⟩
    · rintro _ _ ⟨⟩
      exact ⟨hs.token, State.liesIn_next hs.closed hs.reader hs.context hnext⟩
    · rintro _ ⟨⟩

theorem peek_stays : Stays w peek := by
  intro s hs
  rw [StaysFrom, peek_run]
  cases hpeek : s.reader.peek with
  | error e =>
    refine ⟨?_, ?_⟩
    · rintro _ _ ⟨⟩
    · rintro _ ⟨⟩
      unfold Reader.peek at hpeek
      split at hpeek
      case h_1 r hskip =>
        split at hpeek
        case h_1 => cases hpeek
        case h_2 htoken =>
          cases hpeek
          exact Reader.fault_token hs.closed (Reader.fronts_skipSeparators hs.reader hskip) htoken
      case h_2 hskip =>
        cases hpeek
        exact Reader.fault_skipSeparators hs.reader hskip
  | ok r =>
    refine ⟨?_, ?_⟩
    · rintro _ _ ⟨⟩
      exact ⟨trivial, { hs with }⟩
    · rintro _ ⟨⟩

theorem expect_stays (p : Punctuator) : Stays w (expect p) :=
  advance_stays.bind fun _ ha => .ite (.refuse ha) (.pure trivial)

theorem expectKeyword_stays (k : Keyword) : Stays w (expectKeyword k) :=
  advance_stays.bind fun _ ha => .ite (.refuse ha) (.pure trivial)

theorem accept_stays (p : Punctuator) : Stays w (accept p) :=
  .isAt fun _ => .ite (advance_stays.bind fun _ _ => .pure trivial) (.pure trivial)

theorem acceptKeyword_stays (k : Keyword) : Stays w (acceptKeyword k) :=
  .isAtKeyword fun _ => .ite (advance_stays.bind fun _ _ => .pure trivial) (.pure trivial)

/-- The end of a statement may be moved to the token looked at. -/
theorem endStatement_stays : Stays w endStatement := by
  refine .isAt fun _ => .ite (advance_stays.bind fun _ _ => .pure trivial) <| .get fun s hs => ?_
  have hmove : Stays w (set { s with last := s.tokenPlace } : Parse Unit) := by
    refine fun _ _ => ⟨?_, ?_⟩
    · rintro _ _ ⟨⟩
      have horder : s.tokenPlace.line ≤ s.reader.place.line := by
        rw [hs.place.lineAt, hs.reader.lineAt]
        exact w.lineAt_mono hs.ahead
      exact ⟨trivial, { hs with last := hs.place.liesIn, order := horder }⟩
    · rintro _ ⟨⟩
  exact .ite (.pure trivial) <| .guard (.refuse hs.token) hmove

end

/-! ## Recursion -/

/-- How to parse what lies deeper stays in the text. -/
def Deeper.Stays (w : Text) (d : Deeper) : Prop := ∀ g, Parse.Stays w (d.parse g)

section

variable {w : Text} {d : Deeper}

theorem expression_stays (hd : d.Stays w) : Stays w (expression d) := by
  refine .here fun _ => (hd _).isolate.bind fun _ _ => .isAt fun _ => .ite ?_ (.pure trivial)
  refine (Stays.collect ?_).bind fun _ _ => .spanFrom fun _ => .pure trivial
  exact (accept_stays _).bind fun _ _ =>
    .ite ((hd _).isolate.bind fun _ _ => .pure trivial) (.pure trivial)

theorem identifierName_stays : Stays w identifierName :=
  .here fun _ => advance_stays.bind fun _ ha => .guard (.refuse ha) <|
    .spanFrom fun _ => .pure trivial

end

end Parse
end Elementwise
