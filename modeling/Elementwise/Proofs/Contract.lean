import Elementwise.Grammar.State
import Elementwise.Proofs.Spelling

/-!
# Contracts of parsers

What a parser gives can be told from where it begins and where it ends: the offset of the token it
looks at, and the end of the last consumed one.  `Parse.Gives` is a contract in these terms.  The
context plays no part in it, so a parser is gone through from front to back with one rule for each
kind of step.

## What is here

* `Parse.Spot` — the two offsets; `Spot.Past` says that a token has been consumed between them.
* `Parse.State.Sound` — the places of a state are places of the text.
* `Parse.Gives` — contracts, and the rules for sequences, choices, loops and refusals.
* `Parse.advance_gives`, `Parse.expect_gives`, `Parse.endStatement_gives` … — the contracts of what
  every parser is made of.
-/

set_option autoImplicit false
namespace Elementwise

/-- What is known of the part of a text that a token covers: it is not empty, unless the text ends
there, and it is no part of a longer name. -/
structure TokenKind.Occupies (kind : TokenKind) (t : Text) (s : Span) : Prop where
  inside : kind ≠ .endOfText → s.start < t.length
  nonempty : s.start < t.length → s.start < s.stop
  word : kind.IsWord ↔ t.StartsName s.start
  named : t.StartsName s.start → t.StandsAlone s
  string : ∀ value spelling octal, kind = .string value spelling octal → t.Quotes s value spelling
  quote : t.StartsString s.start → ∃ value spelling octal, kind = .string value spelling octal
  spelled : ∀ name ∈ kind.word?, Name.Begins name (t.drop s.start) (t.drop s.stop)

/-- What a token covers is not empty, or the text ends there. -/
theorem TokenKind.Occupies.clears {kind : TokenKind} {t : Text} {i j : Nat}
    (h : kind.Occupies t ⟨i, j⟩) (hij : i ≤ j) : t.Clears i j := by
  rcases Nat.lt_or_ge i t.length with hlt | hge
  · exact .of_lt (h.nonempty hlt)
  · refine ⟨hij, fun _ hc => ?_⟩
    obtain ⟨hj, -⟩ := List.getElem?_eq_some_iff.1 hc
    omega

/-- A token that is neither a word nor a string is something else. -/
theorem TokenKind.Occupies.startsElse {kind : TokenKind} {t : Text} {s : Span}
    (h : kind.Occupies t s) (hend : kind ≠ .endOfText) (hword : ¬kind.IsWord)
    (hstring : ∀ value spelling octal, kind ≠ .string value spelling octal) :
    t.StartsElse s.start := by
  refine ⟨h.inside hend, fun hstarts => hword (h.word.2 hstarts), fun hstarts => ?_⟩
  obtain ⟨value, spelling, octal, heq⟩ := h.quote hstarts
  exact hstring value spelling octal heq

theorem Token.isWord_kind {a : Token} (h : a.isWord = true) : a.kind.IsWord := by
  unfold isWord at h
  split at h <;> simp_all [TokenKind.IsWord]

namespace Parse

/-! ## Where a parse stands -/

/-- Where a parse stands: the offset of the token looked at, and the end of the last consumed
token. -/
structure Spot where
  next : Nat
  done : Nat

namespace Spot

/-- One or more tokens have been consumed between two spots. -/
abbrev Past (x y : Spot) : Prop := x.next ≤ y.done ∧ y.done ≤ y.next

/-- One or more tokens have been consumed between two spots, and what ends in front of them does not
touch a parenthesis behind them. -/
abbrev Consumes (t : Text) (x y : Spot) : Prop := x.Past y ∧ t.Clears x.next y.done

/-- A spot is the same as another one or past it. -/
abbrev Later (x y : Spot) : Prop := (y.next = x.next ∧ y.done = x.done) ∨ x.Past y

theorem Later.refl (x : Spot) : x.Later x := .inl ⟨rfl, rfl⟩

theorem Later.trans {x y z : Spot} (h : x.Later y) (h' : y.Later z) : x.Later z := by
  omega

end Spot

/-- Where a state stands. -/
def State.spot (s : State) : Spot := ⟨s.tokenPlace.index, s.last.index⟩

/-- The places of a state are places of a text, and the token looked at is the one there. -/
structure State.Sound (t : Text) (s : State) : Prop where
  token : (Place.beginning t).Reaches t s.tokenPlace s.tokenRest
  reader : s.tokenPlace.Reaches s.tokenRest s.reader.place s.reader.rest
  start : s.token.span.start = s.tokenPlace.index
  ending : s.tokenRest = [] → s.token.kind = .endOfText
  gap : t.Gap s.last.index s.tokenPlace.index
  spelled : s.token.kind.Spells s.tokenRest s.reader.rest
  parted : t.Parted s.tokenPlace.index
  line : s.token.line = s.reader.place.line
  /-- A symbol lies on one line. -/
  level : ∀ p, s.token.kind = .punctuator p → s.reader.place.line = s.tokenPlace.line
  /-- In front of a parenthesis on a new line there is something else. -/
  newline : s.afterNewline = true → s.token.kind = .punctuator .leftParen →
    s.last.index ≠ s.tokenPlace.index

namespace State.Sound

variable {t : Text} {s : State}

theorem next_le (h : s.Sound t) : s.spot.next ≤ t.length := by
  simpa [Place.beginning, State.spot] using h.token.le_length

theorem head?_tokenRest (h : s.Sound t) : s.tokenRest.head? = t[s.spot.next]? := by
  rw [← h.token.drop_index, List.head?_drop]
  rfl

/-- A symbol of one character is what is written where it was read. -/
theorem symbol {p : Punctuator} {c : CodePoint} (h : s.Sound t)
    (hkind : s.token.kind = .punctuator p) (hp : p.text = [c])
    (hdivide : p ≠ .operator .divide) :
    t[s.spot.next]? = some c ∧ s.reader.place.index = s.spot.next + 1 := by
  have hrest : s.tokenRest = c :: s.reader.rest := by
    simpa [hp] using h.spelled.symbol p hkind hdivide
  have htotal := h.reader.total
  rw [hrest, List.length_cons] at htotal
  refine ⟨?_, ?_⟩
  · rw [← h.head?_tokenRest, hrest]
    rfl
  · show s.reader.place.index = s.tokenPlace.index + 1
    omega

theorem drop_token (h : s.Sound t) : t.drop s.spot.next = s.tokenRest := h.token.drop_index

theorem drop_reader (h : s.Sound t) : t.drop s.reader.place.index = s.reader.rest :=
  (h.token.trans h.reader).drop_index

theorem occupies (h : s.Sound t) :
    s.token.kind.Occupies t ⟨s.spot.next, s.reader.place.index⟩ := by
  have htoken := h.token.total
  have hreader := h.reader.total
  rw [Place.beginning, Nat.zero_add] at htoken
  refine ⟨fun hkind => ?_, fun hlt => ?_, ?_, fun hstarts => ?_, ?_, fun hstarts => ?_, ?_⟩
  · have := List.length_pos_iff.2 fun hrest => hkind (h.ending hrest)
    show s.tokenPlace.index < t.length
    omega
  · have hne : s.tokenRest ≠ [] := by
      rintro hrest
      rw [hrest] at htoken
      exact Nat.ne_of_lt hlt htoken
    have := h.spelled.progress hne
    show s.tokenPlace.index < s.reader.place.index
    omega
  · rw [Text.startsName_iff, h.drop_token]
    exact h.spelled.word
  · refine ⟨h.parted hstarts, Text.noName_of_head?_drop ?_⟩
    rw [Text.startsName_iff, h.drop_token] at hstarts
    rw [h.drop_reader]
    exact h.spelled.ends hstarts
  · intro value spelling octal hkind
    show StringLiteral.Begins value spelling (t.drop s.spot.next) (t.drop s.reader.place.index)
    rw [h.drop_token, h.drop_reader]
    exact h.spelled.string value spelling octal hkind
  · rw [Text.StartsString, ← h.head?_tokenRest] at hstarts
    exact h.spelled.quote hstarts
  · intro name hname
    rw [h.drop_token, h.drop_reader]
    exact h.spelled.named name hname

/-- Behind the token looked at a name can only start anew. -/
theorem parted_reader (h : s.Sound t) : t.Parted s.reader.place.index := by
  rintro hstarts i hi
  rw [Text.startsName_iff, h.drop_reader] at hstarts
  obtain ⟨d, hd, hstart⟩ := hstarts
  obtain ⟨c, hc, hpart⟩ := h.spelled.parted d hd hstart
  have hreach := h.token.trans h.reader
  have hle : i + 1 ≤ t.length := by
    have := hreach.le_length
    simpa [Place.beginning, hi] using this
  have hsuffix : c :: t.drop (i + 1) <:+ t := by
    rw [hi, h.drop_reader]
    exact hc.trans h.token.suffix
  rintro e he
  rw [Text.getElem?_of_cons_drop_suffix hsuffix hle] at he
  cases he
  exact hpart

/-- In front of a symbol no name goes on. -/
theorem noName_done {p : Punctuator} {c : CodePoint} (h : s.Sound t)
    (hkind : s.token.kind = .punctuator p) (hp : p.text = [c]) (hc : c.isNamePart = false)
    (hdivide : p ≠ .operator .divide) (hle : s.spot.done ≤ s.spot.next) :
    t.NoName s.spot.done := by
  obtain ⟨hnext, -⟩ := h.symbol hkind hp hdivide
  rcases Nat.eq_or_lt_of_le hle with heq | hlt
  · intro d hd
    rw [heq, hnext] at hd
    cases hd
    exact hc
  · exact Text.Gap.noName_start h.gap hlt h.next_le

/-- Where a closing brace is written, one is read, or a piece of a template. -/
theorem kind_of_rightBrace (h : s.Sound t) (hc : t[s.spot.next]? = some '}') :
    s.token.kind = .punctuator .rightBrace ∨
      ∃ raw cooked isHead isTail, s.token.kind = .template raw cooked isHead isTail :=
  h.spelled.closing (h.head?_tokenRest.trans hc)

/-- Where a parenthesis is written, one is read. -/
theorem kind_of_leftParen (h : s.Sound t) (hc : t[s.spot.next]? = some (.scalar '(')) :
    s.token.kind = .punctuator .leftParen := h.spelled.opening (h.head?_tokenRest.trans hc)

end State.Sound

/-! ## Contracts -/

/-- Begun in a given state, a parser ends at a later spot, if it succeeds, and a condition holds for
its result and this spot. -/
def GivesFrom {α : Type} (t : Text) (s : State) (p : Parse α) (post : α → Spot → Prop) : Prop :=
  ∀ a s', p.run s = .ok (a, s') → s'.Sound t ∧ s.spot.Later s'.spot ∧ post a s'.spot

/-- Begun at a given spot of a text, a parser gives the same from every state. -/
def Gives {α : Type} (t : Text) (x : Spot) (p : Parse α) (post : α → Spot → Prop) : Prop :=
  ∀ s : State, s.Sound t → s.spot = x → GivesFrom t s p post

namespace GivesFrom

variable {α β : Type} {t : Text} {s : State} {p : Parse α} {Q : α → Spot → Prop}
  {R : β → Spot → Prop}

theorem here {f : Nat → Parse β} (h : GivesFrom t s (f s.spot.next) R) :
    GivesFrom t s (here >>= f) R := h

theorem get {f : State → Parse β} (h : GivesFrom t s (f s) R) : GivesFrom t s (get >>= f) R := h

/-- A change of the state by which the parse stands where it stood. -/
theorem modify {g : State → State} {f : Unit → Parse β} (hspot : (g s).spot = s.spot)
    (h : GivesFrom t (g s) (f ()) R) : GivesFrom t s (modify g >>= f) R := by
  intro b s' hrun
  rw [← hspot]
  exact h b s' hrun

theorem token {f : Token → Parse β} (h : GivesFrom t s (f s.token) R) :
    GivesFrom t s (token >>= f) R := h

theorem isAt {q : Punctuator} {f : Bool → Parse β}
    (h : GivesFrom t s (f (s.token.kind = .punctuator q)) R) : GivesFrom t s (isAt q >>= f) R := h

theorem dite {c : Prop} [Decidable c] {q : Parse α} (hp : c → GivesFrom t s p Q)
    (hq : ¬c → GivesFrom t s q Q) : GivesFrom t s (if c then p else q) Q := by
  split
  · exact hp ‹_›
  · exact hq ‹_›

theorem mono {Q' : α → Spot → Prop} (h : GivesFrom t s p Q) (hpost : ∀ a y, Q a y → Q' a y) :
    GivesFrom t s p Q' := by
  intro a s' hrun
  obtain ⟨h₁, h₂, h₃⟩ := h a s' hrun
  exact ⟨h₁, h₂, hpost _ _ h₃⟩

theorem bind {f : α → Parse β} (h : GivesFrom t s p Q)
    (hf : ∀ a y, s.spot.Later y → Q a y → Gives t y (f a) R) : GivesFrom t s (p >>= f) R := by
  intro b s'' hrun
  rw [StateT.run_bind] at hrun
  cases hp : p.run s with
  | error e =>
    rw [hp] at hrun
    cases hrun
  | ok r =>
    obtain ⟨a, s'⟩ := r
    rw [hp] at hrun
    obtain ⟨hs', hlater, hpost⟩ := h a s' hp
    obtain ⟨hs'', hlater', hQ'⟩ := hf a _ hlater hpost s' hs' rfl b s'' hrun
    exact ⟨hs'', hlater.trans hlater', hQ'⟩

end GivesFrom

namespace Gives

variable {α β σ : Type} {t : Text} {x : Spot} {p q : Parse α} {Q Q' : α → Spot → Prop}
  {f : α → Parse β} {R : β → Spot → Prop}

theorem mono (h : Gives t x p Q) (hpost : ∀ a y, x.Later y → Q a y → Q' a y) :
    Gives t x p Q' := by
  rintro s hs rfl a s' hrun
  obtain ⟨h₁, h₂, h₃⟩ := h s hs rfl a s' hrun
  exact ⟨h₁, h₂, hpost a _ h₂ h₃⟩

theorem and (h : Gives t x p Q) (h' : Gives t x p Q') :
    Gives t x p fun a y => Q a y ∧ Q' a y := by
  intro s hs hx a s' hrun
  obtain ⟨hs', hlater, hpost⟩ := h s hs hx a s' hrun
  exact ⟨hs', hlater, hpost, (h' s hs hx a s' hrun).2.2⟩

theorem pure {a : α} (h : Q a x) : Gives t x (pure a) Q := by
  rintro s hs rfl _ _ ⟨⟩
  exact ⟨hs, .refl _, h⟩

theorem bind (h : Gives t x p Q) (hf : ∀ a y, x.Later y → Q a y → Gives t y (f a) R) :
    Gives t x (p >>= f) R := by
  rintro s hs rfl
  exact (h s hs rfl).bind hf

theorem pure_bind {a : α} (h : Gives t x (f a) R) : Gives t x (Pure.pure a >>= f) R := h

theorem dite {c : Prop} [Decidable c] (hp : c → Gives t x p Q) (hq : ¬c → Gives t x q Q) :
    Gives t x (if c then p else q) Q := by
  split
  · exact hp ‹_›
  · exact hq ‹_›

theorem ite {c : Prop} [Decidable c] (hp : Gives t x p Q) (hq : Gives t x q Q) :
    Gives t x (if c then p else q) Q := dite (fun _ => hp) fun _ => hq

/-- The token looked at starts in the text. -/
theorem bounded (h : x.next ≤ t.length → Gives t x p Q) : Gives t x p Q := by
  rintro s hs rfl
  exact h hs.next_le s hs rfl

/-! ### Reading the state -/

theorem getFrom {f : State → Parse β}
    (hf : ∀ s : State, s.Sound t → s.spot = x → GivesFrom t s (f s) R) :
    Gives t x (get >>= f) R := fun s hs hx => hf s hs hx

theorem get {f : State → Parse β} (hf : ∀ s : State, s.Sound t → s.spot = x → Gives t x (f s) R) :
    Gives t x (get >>= f) R := fun s hs hx => hf s hs hx s hs hx

theorem here {f : Nat → Parse β} (hf : Gives t x (f x.next) R) :
    Gives t x (here >>= f) R := by
  rintro s hs rfl
  exact hf s hs rfl

theorem spanFrom {start : Nat} {f : Span → Parse β} (hf : Gives t x (f ⟨start, x.done⟩) R) :
    Gives t x (spanFrom start >>= f) R := by
  rintro s hs rfl
  exact hf s hs rfl

/-- What a parser gives may depend on the token looked at. -/
theorem fromToken {f : Token → Parse β}
    (hf : ∀ s : State, s.Sound t → s.spot = x → GivesFrom t s (f s.token) R) :
    Gives t x (Parse.token >>= f) R := fun s hs hx => hf s hs hx

theorem token {f : Token → Parse β} (hf : ∀ a : Token, a.span.start = x.next → Gives t x (f a) R) :
    Gives t x (token >>= f) R := by
  rintro s hs rfl
  exact hf s.token hs.start s hs rfl

/-- A symbol of one character that is looked at is what is written there. -/
theorem tokenSymbol {f : Token → Parse β}
    (hf : ∀ a : Token, (∀ p c, a.kind = .punctuator p → p.text = [c] → p ≠ .operator .divide →
      t[x.next]? = some c) → Gives t x (f a) R) :
    Gives t x (Parse.token >>= f) R := by
  rintro s hs rfl
  exact hf s.token (fun _ _ hkind hp hdivide => (hs.symbol hkind hp hdivide).1) s hs rfl

/-- A token that is looked at covers a part of the text. -/
theorem tokenOccupies {f : Token → Parse β}
    (hf : ∀ a : Token, (∃ i, a.kind.Occupies t ⟨x.next, i⟩) → Gives t x (f a) R) :
    Gives t x (Parse.token >>= f) R := by
  rintro s hs rfl
  exact hf s.token ⟨_, hs.occupies⟩ s hs rfl

theorem isAt {p : Punctuator} {f : Bool → Parse β} (hf : ∀ b, Gives t x (f b) R) :
    Gives t x (isAt p >>= f) R := fun s hs hx => hf _ s hs hx

/-- In front of a symbol no name goes on. -/
theorem isAtSymbol {p : Punctuator} {c : CodePoint} (hp : p.text = [c]) (hc : c.isNamePart = false)
    (hdivide : p ≠ .operator .divide) (hx : x.done ≤ x.next) {f : Bool → Parse β}
    (htrue : t.NoName x.done → t[x.next]? = some c → Gives t x (f true) R)
    (hfalse : Gives t x (f false) R) :
    Gives t x (Parse.isAt p >>= f) R := by
  rintro s hs rfl
  by_cases hkind : s.token.kind = .punctuator p
  · refine GivesFrom.isAt ?_
    rw [decide_eq_true hkind]
    exact htrue (hs.noName_done hkind hp hc hdivide hx) (hs.symbol hkind hp hdivide).1 s hs rfl
  · refine GivesFrom.isAt ?_
    rw [decide_eq_false hkind]
    exact hfalse s hs rfl

theorem isAtKeyword {k : Keyword} {f : Bool → Parse β} (hf : ∀ b, Gives t x (f b) R) :
    Gives t x (isAtKeyword k >>= f) R := fun s hs hx => hf _ s hs hx

/-- A keyword that is looked at stands in the text. -/
theorem isAtKeywordInside {k : Keyword} {f : Bool → Parse β}
    (hf : ∀ b, (b = true → x.next < t.length) → Gives t x (f b) R) :
    Gives t x (Parse.isAtKeyword k >>= f) R := by
  rintro s hs rfl
  refine hf _ (fun hk => hs.occupies.inside ?_) s hs rfl
  rw [show s.token.kind = .keyword k from of_decide_eq_true hk]
  nofun

theorem isAtName {name : Text} {f : Bool → Parse β} (hf : ∀ b, Gives t x (f b) R) :
    Gives t x (isAtName name >>= f) R := fun s hs hx => hf _ s hs hx

theorem isAtEnd {f : Bool → Parse β}
    (hf : ∀ b, (b = true → x.next = t.length) → Gives t x (f b) R) :
    Gives t x (isAtEnd >>= f) R := by
  rintro s hs rfl
  refine hf _ (fun hend => ?_) s hs rfl
  have hkind : s.token.kind = .endOfText := of_decide_eq_true hend
  have hrest : s.tokenRest = [] := hs.spelled.ending hkind
  simpa [hrest, Place.beginning, State.spot] using hs.token.total

/-- Between the last consumed token and the one looked at there is nothing but a separator. -/
theorem gap (h : t.Gap x.done x.next → Gives t x p Q) : Gives t x p Q := by
  rintro s hs rfl
  exact h hs.gap s hs rfl

/-! ### Contexts and refusals -/

theorem modifyContext {g : Context → Context} {f : Unit → Parse β} (hf : Gives t x (f ()) R) :
    Gives t x (modifyContext g >>= f) R := by
  rintro s hs rfl
  exact hf { s with toContext := g s.toContext } { hs with } rfl

theorem markValue {f : Unit → Parse β} (hf : Gives t x (f ()) R) :
    Gives t x (markValue >>= f) R := modifyContext hf

theorem markMember {f : Unit → Parse β} (hf : Gives t x (f ()) R) :
    Gives t x (markMember >>= f) R := modifyContext hf

theorem throw {e : ParseError} : Gives t x (throw e : Parse α) Q := by
  rintro s hs rfl _ _ ⟨⟩

theorem refuseFor {a : Token} {cause : Fault} : Gives t x (refuseFor a cause : Parse α) Q :=
  get fun _ _ _ => throw

theorem refuse {a : Token} : Gives t x (refuse a : Parse α) Q := get fun _ _ _ => refuseFor

theorem refuseToken : Gives t x (refuseToken : Parse α) Q := get fun _ _ _ => refuse

theorem refuseHere {cause : Fault} : Gives t x (refuseHere cause : Parse α) Q :=
  get fun _ _ _ => throw

theorem refuseLine {cause : Fault} : Gives t x (refuseLine cause : Parse α) Q :=
  get fun _ _ _ => throw

/-- What comes behind a refusal plays no part. -/
theorem absurd (h : Gives t x p fun _ _ => False) : Gives t x (p >>= f) R :=
  h.bind fun _ _ _ hfalse => hfalse.elim

/-- A check that refuses, and what is known if it does not. -/
theorem check {c : Prop} [Decidable c] {q : Parse β} (h : Gives t x p fun _ _ => False)
    (hq : ¬c → Gives t x q R) : Gives t x (if c then p >>= f else q) R :=
  dite (fun _ => absurd h) hq

/-- A check that refuses. -/
theorem guard {c : Prop} [Decidable c] {q : Parse β} (h : Gives t x p fun _ _ => False)
    (hq : Gives t x q R) : Gives t x (if c then p >>= f else q) R :=
  check h fun _ => hq

/-! ### Nesting and loops -/

theorem isolate (h : Gives t x p Q) : Gives t x (isolate p) Q := by
  refine get fun _ _ _ => modifyContext (h.bind fun a y _ hpost => get fun s _ _ => ?_)
  split
  · exact absurd refuse
  · exact modifyContext (pure hpost)

theorem inherit (h : Gives t x p Q) : Gives t x (inherit p) Q :=
  get fun _ _ _ => modifyContext (h.bind fun _ _ _ hpost => modifyContext (pure hpost))

/-- A loop keeps what each of its turns keeps. -/
theorem iterate {step : σ → Parse (σ ⊕ β)} {I : σ → Spot → Prop}
    (hstep : ∀ a y, I a y → Gives t y (step a) (Sum.elim I R)) :
    ∀ {n : Nat} {a : σ} {x : Spot}, I a x → Gives t x (iterate step n a) R
  | 0, _, _, _ => refuseHere
  | _ + 1, a, _, ha => (hstep a _ ha).bind fun r _ _ hr =>
    match r with
    | .inl _ => iterate hstep hr
    | .inr _ => pure hr

/-- What is collected is put together from the front. -/
theorem collect {step : Parse (Option α)} {I : Spot → Spot → List α → Prop}
    (hstep : ∀ y, Gives t y step fun r z =>
      (r = none → I y z []) ∧ ∀ a ∈ r, ∀ as w, I z w as → I y w (a :: as)) :
    ∀ {n : Nat} {x : Spot}, Gives t x (collect step n) fun as y => I x y as
  | 0, _ => refuseHere
  | _ + 1, x => (hstep x).bind fun r _ _ hr =>
    match r with
    | some a => (collect hstep).bind fun as z _ has => pure (hr.2 a rfl as z has)
    | none => pure (hr.1 rfl)

end Gives

/-! ### Results alone -/

/-- Whatever it begins with, a parser gives results with a certain property. -/
def Returns {α : Type} (p : Parse α) (P : α → Prop) : Prop :=
  ∀ s a s', p.run s = .ok (a, s') → P a

namespace Returns

variable {α β : Type} {t : Text} {x : Spot} {p q : Parse α} {P : α → Prop} {Q : α → Spot → Prop}

theorem pure {a : α} (h : P a) : Returns (pure a) P := by
  rintro s _ _ ⟨⟩
  exact h

theorem throw {e : ParseError} : Returns (throw e : Parse α) P := by
  rintro s _ _ ⟨⟩

theorem bind {p : Parse β} {f : β → Parse α} (h : ∀ b, Returns (f b) P) :
    Returns (p >>= f) P := by
  intro s a s'' hrun
  rw [StateT.run_bind] at hrun
  cases hp : p.run s with
  | error e =>
    rw [hp] at hrun
    cases hrun
  | ok r =>
    rw [hp] at hrun
    exact h r.1 r.2 a s'' hrun

theorem ite {c : Prop} [Decidable c] (hp : Returns p P) (hq : Returns q P) :
    Returns (if c then p else q) P := by
  split
  · exact hp
  · exact hq

theorem refuse {a : Token} : Returns (refuse a : Parse α) P := bind fun _ => bind fun _ => throw

/-- What is known of the results holds wherever they are read. -/
theorem gives (hreturns : Returns p P) (h : Gives t x p Q) : Gives t x p fun a _ => P a := by
  intro s hs hx a s' hrun
  obtain ⟨hs', hlater, -⟩ := h s hs hx a s' hrun
  exact ⟨hs', hlater, hreturns s a s' hrun⟩

end Returns

/-! ## Tokens -/

section

variable {t : Text} {x : Spot}

theorem strictToken_span (a : Token) : (strictToken a).span = a.span := by
  unfold strictToken
  grind

theorem strictToken_line (a : Token) : (strictToken a).line = a.line := by
  unfold strictToken
  grind

theorem strictToken_punctuator {a : Token} {p : Punctuator}
    (h : (strictToken a).kind = .punctuator p) : a.kind = .punctuator p := by
  unfold strictToken at h
  grind

theorem strictToken_endOfText {a : Token} (h : a.kind = .endOfText) :
    (strictToken a).kind = .endOfText := by
  unfold strictToken
  rw [h]
  exact h

theorem strictToken_spells {a : Token} {u v : Text} (h : a.kind.Spells u v) :
    (strictToken a).kind.Spells u v := by
  unfold strictToken
  split
  · next name hkind =>
    have hopening : u.head? ≠ some '(' := fun hhead => by
      have := h.opening hhead
      simp [hkind] at this
    have hclosing : u.head? ≠ some '}' := fun hhead => by
      have := h.closing hhead
      simp [hkind] at this
    split
    · next k hk =>
      split
      · have hword : a.kind.IsWord := hkind ▸ trivial
        refine ⟨nofun, nofun, fun hhead => (hopening hhead).elim,
          fun hhead => (hclosing hhead).elim, h.progress,
          ⟨fun _ => h.word.1 hword, fun _ => trivial⟩, h.ends, h.parted, nofun,
            fun hquote => ?_, ?_⟩
        · obtain ⟨_, _, _, heq⟩ := h.quote hquote
          rw [hkind] at heq
          cases heq
        · have htext : k.text = name := by simpa using List.find?_some hk
          rintro _ ⟨⟩
          exact h.named _ (by rw [hkind, htext]; rfl)
      · exact h
    · exact h
  · exact h

/-- The state behind a token is sound if the reader stands on the text, where no name goes on. -/
theorem State.next_sound {s s' : State} (h : s.next = .ok s')
    (hs : (Place.beginning t).Reaches t s.reader.place s.reader.rest)
    (hparted : t.Parted s.reader.place.index) (hline : s.token.line = s.reader.place.line) :
    s'.Sound t ∧ s'.last = s.reader.place ∧ s.reader.place.index ≤ s'.tokenPlace.index := by
  unfold State.next at h
  split at h
  case h_1 => cases h
  case h_2 r hskip =>
    split at h
    case h_1 => cases h
    case h_2 a r' htoken =>
      cases h
      have hreach := Reader.reaches_skipSeparators hskip
      obtain ⟨hreader, hspan⟩ := Reader.reaches_token htoken
      have hspells := Reader.spells_token htoken
      have hgap := Reader.gap_skipSeparators hs hskip
      obtain ⟨hend, hlevel⟩ := Reader.line_token htoken
      refine ⟨⟨hs.trans hreach, hreader, ?_, fun hrest => ?_, hgap, ?_, ?_, ?_, ?_, ?_⟩,
        rfl, hreach.le⟩
      · cases s.strict <;> simp [strictToken_span, hspan]
      · have hending := Reader.kind_of_rest_nil hrest htoken
        cases s.strict <;> simp [strictToken_endOfText hending, hending]
      · cases s.strict
        · exact hspells
        · exact strictToken_spells hspells
      · rcases Nat.eq_or_lt_of_le hreach.le with heq | hlt
        · exact heq ▸ hparted
        · rintro ⟨c, hc, -⟩ i hi
          obtain ⟨hlength, -⟩ := List.getElem?_eq_some_iff.1 hc
          rw [← hi] at hgap hlt hlength
          exact hgap.noName hlt hlength
      · cases s.strict <;> simp [strictToken_line, hend]
      · intro p hp
        cases hstrict : s.strict <;> rw [hstrict] at hp
        · exact hlevel p hp
        · exact hlevel p (strictToken_punctuator hp)
      · intro hnewline hkind hindex
        have hkind : a.kind = .punctuator .leftParen := by
          cases hstrict : s.strict <;> rw [hstrict] at hkind
          · exact hkind
          · exact strictToken_punctuator hkind
        rw [hline, hend, hlevel _ hkind, Reader.line_skipSeparators hskip hindex.symm] at hnewline
        simp at hnewline

theorem advance_run (s : State) :
    advance.run s = s.next.map fun s' => (s.token, s') := by
  unfold advance
  rw [StateT.run_bind]
  cases h : s.next <;> simp [h] <;> rfl

/-- Consuming the token looked at. -/
theorem advance_givesFrom {s : State} (hs : s.Sound t) :
    GivesFrom t s advance fun a y =>
      a = s.token ∧ s.spot.Past y ∧ y.done = s.reader.place.index := by
  intro a s' hrun
  rw [advance_run] at hrun
  cases hnext : s.next with
  | error e =>
    rw [hnext] at hrun
    cases hrun
  | ok s'' =>
    rw [hnext] at hrun
    cases hrun
    obtain ⟨hs', hlast, hle⟩ :=
      State.next_sound hnext (hs.token.trans hs.reader) hs.parted_reader hs.line
    have hpast : s.spot.Past s'.spot := by
      simp only [State.spot, hlast]
      exact ⟨hs.reader.le, hle⟩
    exact ⟨hs', .inr hpast, rfl, hpast, congrArg Place.index hlast⟩

/-- Consuming a token. -/
theorem advance_gives : Gives t x advance fun a y =>
    x.Consumes t y ∧ a.span.start = x.next ∧ a.kind.Occupies t ⟨x.next, y.done⟩ := by
  rintro s hs rfl
  refine (advance_givesFrom hs).mono ?_
  rintro _ y ⟨rfl, hy, hdone⟩
  have hoccupies : s.token.kind.Occupies t ⟨s.spot.next, y.done⟩ := hdone ▸ hs.occupies
  exact ⟨⟨hy, hoccupies.clears hy.1⟩, hs.start, hoccupies⟩

theorem peek_run (s : State) :
    peek.run s = s.reader.peek.map fun r =>
      (r.1, { s with reader := { s.reader with braces := r.2 } }) := by
  unfold peek
  rw [StateT.run_bind]
  cases h : s.reader.peek <;> simp [h] <;> rfl

/-- Looking one token further. -/
theorem peek_gives : Gives t x peek fun _ y => y = x := by
  rintro s hs rfl a s' hrun
  rw [peek_run] at hrun
  cases hpeek : s.reader.peek with
  | error e =>
    rw [hpeek] at hrun
    cases hrun
  | ok r =>
    rw [hpeek] at hrun
    cases hrun
    exact ⟨{ hs with }, .refl _, rfl⟩

theorem expect_gives (p : Punctuator) : Gives t x (expect p) fun _ y => x.Consumes t y :=
  advance_gives.bind fun _ _ _ h => .ite .refuse <| .pure h.1

/-- A symbol ends what is in front of it. -/
theorem expect_ends {p : Punctuator} {c : CodePoint} (hp : p.text = [c])
    (hc : c.isNamePart = false) (hdivide : p ≠ .operator .divide) (hx : x.done ≤ x.next) :
    Gives t x (expect p) fun _ y => x.Consumes t y ∧ t.NoName x.done := by
  rintro s hs rfl
  refine (advance_givesFrom hs).bind ?_
  rintro _ y - ⟨rfl, hy, hdone⟩
  refine .dite (fun _ => .refuse) fun hkind => .pure ⟨⟨hy, ?_⟩, ?_⟩
  · have hoccupies : s.token.kind.Occupies t ⟨s.spot.next, y.done⟩ := hdone ▸ hs.occupies
    exact hoccupies.clears hy.1
  exact hs.noName_done (Classical.not_not.1 hkind) hp hc hdivide hx

/-- Consuming a symbol of one character, which is what is written there. -/
theorem expect_symbol (p : Punctuator) (c : CodePoint) (hp : p.text = [c])
    (hdivide : p ≠ .operator .divide) :
    Gives t x (expect p) fun _ y => x.Consumes t y ∧ t[x.next]? = some c ∧ y.done = x.next + 1 := by
  rintro s hs rfl
  refine (advance_givesFrom hs).bind ?_
  rintro _ y - ⟨rfl, hy, hdone⟩
  refine .dite (fun _ => .refuse) fun hkind => .pure ?_
  obtain ⟨hc, hindex⟩ := hs.symbol (Classical.not_not.1 hkind) hp hdivide
  exact ⟨⟨hy, .of_lt (by omega)⟩, hc, hdone.trans hindex⟩

theorem expectKeyword_occupies (k : Keyword) : Gives t x (expectKeyword k) fun _ y =>
    x.Consumes t y ∧ (TokenKind.keyword k).Occupies t ⟨x.next, y.done⟩ := by
  refine advance_gives.bind fun _ _ _ ⟨hy, _, hoccupies⟩ => .dite (fun _ => .refuse) fun hkind => ?_
  exact .pure ⟨hy, Classical.not_not.1 hkind ▸ hoccupies⟩

theorem expectKeyword_gives (k : Keyword) : Gives t x (expectKeyword k) fun _ y => x.Consumes t y :=
  (expectKeyword_occupies k).mono fun _ _ _ h => h.1

theorem accept_gives (p : Punctuator) : Gives t x (accept p) fun b y =>
    if b = true then x.Consumes t y else y = x :=
  .isAt fun _ => .ite (advance_gives.bind fun _ _ _ h => .pure h.1) <| .pure rfl

/-- Consuming a symbol of one character if it is written there. -/
theorem accept_symbol (p : Punctuator) (c : CodePoint) (hp : p.text = [c])
    (hdivide : p ≠ .operator .divide) : Gives t x (accept p) fun b y =>
      if b = true then x.Consumes t y ∧ t[x.next]? = some c ∧ y.done = x.next + 1 else y = x := by
  rintro s hs rfl
  refine .isAt ?_
  by_cases hkind : s.token.kind = .punctuator p
  · rw [decide_eq_true hkind]
    refine (advance_givesFrom hs).bind fun _ y _ ⟨_, hy, hdone⟩ => .pure ?_
    obtain ⟨hc, hindex⟩ := hs.symbol hkind hp hdivide
    exact ⟨⟨hy, .of_lt (by omega)⟩, hc, hdone.trans hindex⟩
  · rw [decide_eq_false hkind]
    rintro _ _ ⟨⟩
    exact ⟨hs, .refl _, rfl⟩

theorem acceptKeyword_gives (k : Keyword) : Gives t x (acceptKeyword k) fun b y =>
    if b = true then x.Consumes t y else y = x :=
  .isAtKeyword fun _ => .ite (advance_gives.bind fun _ _ _ h => .pure h.1) <| .pure rfl

/-- The end of a statement may be moved to the next token, but not past it.  What follows does not
begin with a parenthesis where the statement ends without a symbol. -/
theorem endStatement_gives {w : Spot} (h : w.Past x) : Gives t x endStatement fun _ y =>
    w.Past y ∧ t.Ends x.done y.next ∧ t.Clears x.done y.next := by
  rintro s hs rfl
  refine .isAt ?_
  by_cases hkind : s.token.kind = .punctuator .semicolon
  · rw [if_pos (decide_eq_true hkind)]
    refine (advance_givesFrom hs).bind fun _ y _ ⟨_, hy, hdone⟩ => .gap fun hgap => .pure ?_
    obtain ⟨hc, hindex⟩ := hs.symbol (c := ';') hkind rfl nofun
    refine ⟨by omega, .inr ⟨y.done, hy.2, ?_, hgap⟩, .of_lt (by omega)⟩
    exact ⟨s.spot.next, h.2, hs.gap, hc, hdone.trans hindex⟩
  · rw [if_neg (by simpa using hkind)]
    have hends : t.Ends s.spot.done s.spot.next := .inl ⟨h.2, hs.gap⟩
    have hclears (hline : s.token.kind = .punctuator .leftParen → s.afterNewline = true) :
        t.Clears s.spot.done s.spot.next := by
      refine ⟨h.2, fun heq hc => ?_⟩
      have hparen := hs.kind_of_leftParen hc
      exact hs.newline (hline hparen) hparen heq
    intro a s' hrun
    change (ite _ _ _ : Parse Unit).run s = _ at hrun
    split at hrun
    · next hnewline =>
      cases hrun
      exact ⟨hs, .refl _, h, hends, hclears fun _ => hnewline⟩
    · next hnewline =>
      split at hrun
      · cases hrun
      · next hends' =>
        cases hrun
        have hclears := hclears fun hparen => by simp [hparen] at hends'
        refine ⟨{ hs with gap := .of_le (Nat.le_refl _), newline := fun h => (hnewline h).elim },
          .inr ⟨Nat.le_refl _, Nat.le_refl _⟩, ⟨Nat.le_trans h.1 h.2, Nat.le_refl _⟩,
            hends, hclears⟩

end

/-! ### Choices -/

namespace Gives

variable {β : Type} {t : Text} {x : Spot} {f g : Parse β} {R : β → Spot → Prop}

/-- A choice that depends on whether something is consumed. -/
theorem choice {p : Parse Bool} {C : Spot → Prop}
    (h : Gives t x p fun b y => if b = true then C y else y = x)
    (hf : ∀ y, C y → Gives t y f R) (hg : Gives t x g R) :
    Gives t x (p >>= fun b => if b = true then f else g) R := by
  refine h.bind fun b y _ hb => ?_
  cases b with
  | false => exact hb ▸ hg
  | true => exact hf y hb

/-- A choice that depends on the symbol looked at.  If it is another one, it is no parenthesis. -/
theorem isAtOr {p : Punctuator} (hp : p ≠ .leftParen)
    (hf : t[x.next]? ≠ some (.scalar '(') → Gives t x f R) (hg : Gives t x g R) :
    Gives t x (Parse.isAt p >>= fun b => if b = true then f else g) R := by
  rintro s hs rfl
  by_cases hkind : s.token.kind = .punctuator p
  · refine GivesFrom.isAt ?_
    rw [if_pos (decide_eq_true hkind)]
    refine hf (fun hc => hp ?_) s hs rfl
    have := hs.kind_of_leftParen hc
    rw [hkind] at this
    exact TokenKind.punctuator.inj this
  · refine GivesFrom.isAt ?_
    rw [if_neg (by simpa using hkind)]
    exact hg s hs rfl

end Gives
end Parse
end Elementwise
