import Elementwise.Proofs.Spelling

/-!
# Where reading can fail

A fault names an offset, a line and a column.  The three come from a place that some reader has
reached, or from two of them, and not always from the place where the fault is: a string that does
not end is blamed on its opening quote, and a wrong escape on what comes behind it.  A place
itself keeps its offset, its line and the start of that line together, across pairs of line
terminators, comments and strings that go on on the next line.

What can be said of all faults is said here for the reader of tokens.  The offset lies in the text,
the line is not in front of the character before the offset, and the column counts from the start of
a line.  That is the line of the fault, or else this is the line of the offset or of a later one.

## What is here

* `Text.lineEnds`, `Text.StartsLine`, `Text.lineAt` — how many lines a text has, where they start,
  and on which of them an offset lies.
* `ParseError.LiesIn` — what is known of a fault.
* `Place.LiesIn`, `Place.Fronts` — a place with its own line, in front of the rest of a text.
* `Place.Level`, `ParseError.Along` — what readers reach and blame that stay on their line.
* `Reader.fronts_token`, `Reader.fault_token` … — the reader of tokens.
-/

set_option autoImplicit false
namespace Elementwise

/-! ## Lines -/

namespace Text

/-- A character ends a line, given what follows it.  Of a pair only the second one does. -/
def EndsLine (c : CodePoint) (t : Text) : Prop := c.isLineTerminator ∧ ¬Separator.BeginsPair c t

instance (c : CodePoint) (t : Text) : Decidable (EndsLine c t) :=
  inferInstanceAs (Decidable (_ ∧ _))

/-- The number of line ends in a text. -/
def lineEnds : Text → Nat
  | [] => 0
  | c :: t => if EndsLine c t then lineEnds t + 1 else lineEnds t

/-- A line of a text starts at an offset: at the beginning, or behind the end of another line. -/
def StartsLine (w : Text) (k : Nat) : Prop :=
  k = 0 ∨ ∃ c t, c :: t <:+ w ∧ EndsLine c t ∧ k + t.length = w.length

theorem endsLine_of_forall {c : CodePoint} {t : Text} (hc : c.isLineTerminator)
    (h : ∀ u, c = '\r' → t = .scalar '\n' :: u → False) : EndsLine c t := by
  refine ⟨hc, fun ⟨hreturn, hfeed⟩ => ?_⟩
  cases t with
  | nil => cases hfeed
  | cons d u => exact h u hreturn (congrArg (· :: u) (Option.some.inj hfeed))

/-- The second character of a pair ends the line. -/
theorem endsLine_lineFeed (t : Text) : EndsLine '\n' t :=
  ⟨rfl, fun hpair => by simpa using hpair.1⟩

theorem eq_cons_drop_one {c : CodePoint} {t : Text} (h : t.head? = some c) : t = c :: t.drop 1 := by
  cases t with
  | nil => cases h
  | cons d u => exact congrArg (· :: u) (Option.some.inj h)

theorem lineEnds_cons {c : CodePoint} {t : Text} (h : ¬EndsLine c t) :
    lineEnds (c :: t) = t.lineEnds := by
  rw [lineEnds, if_neg h]

theorem lineEnds_cons_of_inLine {c : CodePoint} {t : Text} (h : c.isLineTerminator = false) :
    lineEnds (c :: t) = t.lineEnds :=
  lineEnds_cons fun hends => Bool.eq_false_iff.1 h hends.1

theorem lineEnds_le_cons (c : CodePoint) (t : Text) : t.lineEnds ≤ lineEnds (c :: t) := by
  rw [lineEnds]
  split <;> omega

theorem lineEnds_le_of_suffix {t u : Text} (h : u <:+ t) : u.lineEnds ≤ t.lineEnds := by
  induction t with
  | nil =>
    obtain rfl := List.suffix_nil.1 h
    exact Nat.le_refl _
  | cons c t ih =>
    rcases List.suffix_cons_iff.1 h with rfl | h
    · exact Nat.le_refl _
    · exact Nat.le_trans (ih h) (lineEnds_le_cons c t)

/-- No line ends among characters that end none. -/
theorem lineEnds_dropWhile {f : CodePoint → Bool}
    (hf : ∀ c, f c = true → c.isLineTerminator = false) (t : Text) :
    lineEnds (t.dropWhile f) = t.lineEnds := by
  induction t with
  | nil => rfl
  | cons c t ih =>
    rw [List.dropWhile_cons]
    split
    · next hc => rw [ih, lineEnds_cons_of_inLine (hf c hc)]
    · rfl

/-- No line ends in a text whose characters end none. -/
theorem lineEnds_append_of_inLine {t : Text} (u : Text) (h : ∀ c ∈ t, c.isLineTerminator = false) :
    lineEnds (t ++ u) = u.lineEnds := by
  induction t with
  | nil => rfl
  | cons c t ih =>
    obtain ⟨hc, ht⟩ := List.forall_mem_cons.1 h
    rw [List.cons_append, lineEnds_cons_of_inLine hc, ih ht]

/-- The number of the line on which an offset of a text lies. -/
def lineAt (w : Text) (i : Nat) : Nat := 1 + (w.lineEnds - lineEnds (w.drop i))

theorem lineAt_pos (w : Text) (i : Nat) : 1 ≤ w.lineAt i := Nat.le_add_right 1 _

theorem lineAt_le (w : Text) (i : Nat) : w.lineAt i ≤ 1 + w.lineEnds :=
  Nat.add_le_add_left (Nat.sub_le _ _) 1

theorem lineAt_mono (w : Text) {i j : Nat} (h : i ≤ j) : w.lineAt i ≤ w.lineAt j := by
  obtain ⟨k, rfl⟩ := Nat.exists_eq_add_of_le h
  have hle : lineEnds (w.drop (i + k)) ≤ lineEnds (w.drop i) := by
    rw [← List.drop_drop]
    exact lineEnds_le_of_suffix (List.drop_suffix k _)
  exact Nat.add_le_add_left (Nat.sub_le_sub_left hle _) 1

end Text

/-! ## Places and faults -/

/-- A place lies in a text if its offset does, and its line and its line start are those of the
offset. -/
structure Place.LiesIn (p : Place) (w : Text) : Prop where
  index : p.index ≤ w.length
  line : p.line = w.lineAt p.index
  start : w.StartsLine p.lineStart
  level : p.line = w.lineAt p.lineStart

/-- A fault lies in a text: its offset is one of the text, its line is not in front of the character
before the offset, and its column counts from the start of a line.  That is the line of the fault,
or else this is the line of the offset or of a later one. -/
def ParseError.LiesIn (w : Text) : ParseError → Prop
  | .fault index line column _ =>
    index ≤ w.length ∧ w.lineAt (index - 1) ≤ line ∧
      ∃ k, w.StartsLine k ∧ column = (index : Int) - k + 1 ∧
        (line = w.lineAt k ∨ ∃ i, index ≤ i ∧ line = w.lineAt i)
  | .templateContinuation => True

/-- A token lies in a text if its offset does, and its line is that of where it ends. -/
def Token.LiesIn (w : Text) (a : Token) : Prop :=
  ∃ i, a.span.start ≤ i ∧ i ≤ w.length ∧ a.line = w.lineAt i

theorem Place.LiesIn.fault {p : Place} {w : Text} (h : p.LiesIn w) (cause : Fault) :
    (p.fault cause).LiesIn w := by
  refine ⟨h.index, ?_, p.lineStart, h.start, rfl, .inl h.level⟩
  rw [h.line]
  exact w.lineAt_mono (Nat.sub_le _ 1)

/-- A place is blamed, but on the line of another place, which is not an earlier one. -/
theorem Place.LiesIn.fault_later {p q : Place} {w : Text} (h : p.LiesIn w) (hq : q.LiesIn w)
    (hle : p.line ≤ q.line) (cause : Fault) :
    (ParseError.fault p.index q.line p.column cause).LiesIn w := by
  have hbefore : w.lineAt (p.index - 1) ≤ p.line := h.line ▸ w.lineAt_mono (Nat.sub_le _ 1)
  refine ⟨h.index, Nat.le_trans hbefore hle, p.lineStart, h.start, rfl, ?_⟩
  rcases Nat.eq_or_lt_of_le hle with heq | hlt
  · exact .inl (heq ▸ h.level)
  · refine .inr ⟨q.index, Nat.le_of_not_lt fun hbehind => ?_, hq.line⟩
    have hback := w.lineAt_mono (Nat.le_of_lt hbehind)
    rw [← hq.line, ← h.line] at hback
    omega

/-- A token is blamed on the line on which it ends, with the column relative to another place. -/
theorem Token.LiesIn.fault {a : Token} {p : Place} {w : Text} (h : a.LiesIn w) (hp : p.LiesIn w)
    (cause : Fault) :
    (ParseError.fault a.span.start a.line (p.columnOf a.span.start) cause).LiesIn w := by
  obtain ⟨i, hstart, hi, hline⟩ := h
  refine ⟨Nat.le_trans hstart hi, ?_, p.lineStart, hp.start, rfl, .inr ⟨i, hstart, hline⟩⟩
  rw [hline]
  exact w.lineAt_mono (by omega)

/-- A place in front of the rest of a text: so many lines have ended in front of it that the others
end behind it, and none has ended since the start of its line. -/
structure Place.Fronts (p : Place) (t w : Text) : Prop
    extends (Place.beginning w).Reaches w p t where
  line : p.line + t.lineEnds = 1 + w.lineEnds
  start : w.StartsLine p.lineStart
  level : p.line = w.lineAt p.lineStart

/-- From one place in front of a text, another one on the same line in front of the rest of it. -/
structure Place.Level (p : Place) (t : Text) (q : Place) (u : Text) : Prop where
  line : q.line = p.line
  start : q.lineStart = p.lineStart
  ends : u.lineEnds = t.lineEnds

theorem Place.Level.trans {p q r : Place} {t u v : Text} (h : p.Level t q u) (h' : q.Level u r v) :
    p.Level t r v :=
  ⟨h'.line.trans h.line, h'.start.trans h.start, h'.ends.trans h.ends⟩

/-- A fault on the line of a place: not behind the text in front of which that place stands, and at
most one behind the end of the line. -/
def ParseError.Along (p : Place) (t : Text) : ParseError → Prop
  | .fault index line column _ =>
    index ≤ p.index + t.length ∧ line = p.line ∧ column = p.columnOf index ∧
      ∃ u : Text, u <:+ t ∧ u.lineEnds = t.lineEnds ∧ index + u.length ≤ p.index + t.length + 1
  | .templateContinuation => False

namespace Place.Fronts

variable {p p' : Place} {c : CodePoint} {t t' w : Text}

theorem beginning (h : w ≠ []) : (Place.beginning w).Fronts w w := by
  have hline : (Place.beginning w).line = 1 := by
    cases w with
    | nil => exact absurd rfl h
    | cons => rfl
  refine ⟨.refl _ _, by rw [hline], .inl rfl, ?_⟩
  rw [hline, show (Place.beginning w).lineStart = 0 from rfl, Text.lineAt, List.drop_zero,
    Nat.sub_self]

theorem index_add (h : p.Fronts t w) : p.index + t.length = w.length := by
  simpa [Place.beginning] using h.total

/-- The line is that of the offset. -/
theorem lineAt (h : p.Fronts t w) : p.line = w.lineAt p.index := by
  have hline := h.line
  have hends := Text.lineEnds_le_of_suffix h.suffix
  rw [Text.lineAt, h.drop_index]
  omega

theorem liesIn (h : p.Fronts t w) : p.LiesIn w :=
  ⟨by have := h.index_add; omega, h.lineAt, h.start, h.level⟩

/-- Reading on along a line. -/
theorem along_line (h : p.Fronts t w) (hreach : p.Reaches t p' t') (hlevel : p.Level t p' t') :
    p'.Fronts t' w := by
  refine ⟨h.toReaches.trans hreach, ?_, ?_, ?_⟩
  · rw [hlevel.line, hlevel.ends]
    exact h.line
  · rw [hlevel.start]
    exact h.start
  · rw [hlevel.line, hlevel.start]
    exact h.level

/-- Reading on over a character that does not end its line. -/
theorem step (h : p.Fronts (c :: t) w) (hc : ¬Text.EndsLine c t) : (p.step 1).Fronts t w :=
  h.along_line ⟨List.suffix_cons c t, by simp [Place.step]; omega⟩
    ⟨rfl, rfl, (Text.lineEnds_cons hc).symm⟩

theorem step_inLine (h : p.Fronts (c :: t) w) (hc : c.isLineTerminator = false) :
    (p.step 1).Fronts t w := h.step fun hends => Bool.eq_false_iff.1 hc hends.1

/-- Reading on over the end of a line. -/
theorem newLine (h : p.Fronts (c :: t) w) (hc : Text.EndsLine c t) : (p.newLine 1).Fronts t w := by
  have hline := h.line
  have htotal := h.index_add
  rw [List.length_cons] at htotal
  rw [Text.lineEnds, if_pos hc] at hline
  have hreach : (Place.beginning w).Reaches w (p.newLine 1) t :=
    h.toReaches.trans ⟨List.suffix_cons c t, by simp only [Place.newLine, List.length_cons]; omega⟩
  have hends := Text.lineEnds_le_of_suffix hreach.suffix
  refine ⟨hreach, ?_, .inr ⟨c, t, h.suffix, hc, ?_⟩, ?_⟩
  · simp only [Place.newLine]
    omega
  · simp only [Place.newLine]
    omega
  · have hdrop : w.drop (p.newLine 1).lineStart = t := hreach.drop_index
    rw [Text.lineAt, hdrop]
    simp only [Place.newLine]
    omega

/-- An offset that is at most one behind the start of what is left of the line is not on a later
line than the character before it. -/
theorem lineAt_le (h : p.Fronts t w) {u : Text} (hu : u <:+ t) (hends : u.lineEnds = t.lineEnds)
    {index : Nat} (hindex : index + u.length ≤ p.index + t.length + 1) :
    w.lineAt (index - 1) ≤ p.line := by
  have hsuffix := Text.lineEnds_le_of_suffix h.suffix
  have htotal := h.index_add
  have hline := h.line
  have hle : w.lineAt (index - 1) ≤ w.lineAt (w.length - u.length) := w.lineAt_mono (by omega)
  have hdrop : w.drop (w.length - u.length) = u :=
    (List.suffix_iff_eq_drop.1 (hu.trans h.suffix)).symm
  rw [Text.lineAt, Text.lineAt, hdrop, hends] at hle
  rw [Text.lineAt]
  omega

/-- A fault on the line of a place lies in the text. -/
theorem along (h : p.Fronts t w) {e : ParseError} (he : e.Along p t) : e.LiesIn w := by
  cases e with
  | templateContinuation => trivial
  | fault index line column cause =>
    obtain ⟨hindex, rfl, rfl, u, hu, hends, hle⟩ := he
    have := h.index_add
    exact ⟨by omega, h.lineAt_le hu hends hle, p.lineStart, h.start, rfl, .inl h.level⟩

/-- A fault on the line of a place, but at an earlier offset. -/
theorem fault_at (h : p.Fronts t w) {index : Nat} (hindex : index ≤ p.index) (cause : Fault) :
    ({ p with index }.fault cause).LiesIn w := by
  have hle : w.lineAt (index - 1) ≤ p.line := h.lineAt ▸ w.lineAt_mono (by omega)
  exact ⟨Nat.le_trans hindex h.liesIn.index, hle, p.lineStart, h.start, rfl, .inl h.level⟩

/-- The text ends with the last character that is left. -/
theorem getLast? (h : p.Fronts [c] w) : w.getLast? = some c := by
  obtain ⟨u, rfl⟩ := h.suffix
  exact List.getLast?_concat

end Place.Fronts

/-! ## Characters that end no line -/

namespace CodePoint

variable {c : CodePoint}

@[grind =]
theorem isLineTerminator_scalar (d : Char) : (scalar d).isLineTerminator =
    (d == '\n' || d == '\r' || d == '\u2028' || d == '\u2029') := rfl

/-- A class that holds none of the four line terminators. -/
theorem isLineTerminator_eq_false {f : CodePoint → Bool}
    (hf : (['\n', '\r', '\u2028', '\u2029'].any fun d => f (.scalar d)) = false)
    (h : f c = true) : c.isLineTerminator = false := by
  simp only [List.any_cons, List.any_nil, Bool.or_false, Bool.or_eq_false_iff] at hf
  cases c with
  | surrogate k => rfl
  | scalar c =>
    refine Bool.eq_false_iff.2 fun hc => ?_
    simp only [isLineTerminator, Bool.or_eq_true, beq_iff_eq] at hc
    rcases hc with ((rfl | rfl) | rfl) | rfl <;> simp [hf] at h

/-- A name does not go on with what ends a line. -/
theorem any_isNamePart_eq_false :
    (['\n', '\r', '\u2028', '\u2029'].any fun d => isNamePart (.scalar d)) = false := by
  decide +kernel

@[grind →]
theorem isLineTerminator_of_isNamePart (h : c.isNamePart = true) : c.isLineTerminator = false :=
  isLineTerminator_eq_false any_isNamePart_eq_false h

@[grind →]
theorem isLineTerminator_of_isNameStart (h : c.isNameStart = true) : c.isLineTerminator = false :=
  isLineTerminator_of_isNamePart (isNamePart_of_isNameStart h)

@[grind →]
theorem isLineTerminator_of_isDigit (h : c.isDigit = true) : c.isLineTerminator = false :=
  isLineTerminator_eq_false (by decide) h

@[grind →]
theorem isLineTerminator_of_isOctalDigit (h : c.isOctalDigit = true) :
    c.isLineTerminator = false :=
  isLineTerminator_eq_false (by decide) h

@[grind →]
theorem isLineTerminator_of_isBlank (h : c.isBlank = true) : c.isLineTerminator = false :=
  isLineTerminator_eq_false (by decide) h

@[grind →]
theorem isLineTerminator_of_hexValue? {n : Nat} (h : c.hexValue? = some n) :
    c.isLineTerminator = false :=
  isLineTerminator_eq_false (f := fun c => c.hexValue?.isSome) (by decide) (by rw [h]; rfl)

end CodePoint

/-! ## Readers that stay on their line -/

section

variable {p p' q : Place} {t t' u : Text} {e : ParseError}

/-- A fault may be told from an earlier place of its line. -/
theorem ParseError.Along.mono (h : e.Along q u) (hlevel : p.Level t q u) (hsuffix : u <:+ t)
    (htotal : q.index + u.length = p.index + t.length) : e.Along p t := by
  cases e with
  | templateContinuation => exact h
  | fault index line column cause =>
    obtain ⟨hindex, rfl, rfl, v, hv, hends, hle⟩ := h
    refine ⟨by omega, hlevel.line, ?_, v, hv.trans hsuffix, hends.trans hlevel.ends, by omega⟩
    rw [Place.columnOf, Place.columnOf, hlevel.start]

/-- The place itself is blamed, or what is one behind it. -/
theorem Place.fault_along {cause : Fault} (hline : q.line = p.line)
    (hstart : q.lineStart = p.lineStart) (hnear : q.index ≤ p.index + 1)
    (hle : q.index ≤ p.index + t.length) : (q.fault cause).Along p t := by
  refine ⟨hle, hline, ?_, t, List.suffix_rfl, rfl, by omega⟩
  rw [Place.column, Place.columnOf, Place.columnOf, hstart]

/-- What is two behind the place is blamed. -/
theorem Place.fault_along_cons {c : CodePoint} {cause : Fault} (hc : c.isLineTerminator = false)
    (hline : q.line = p.line) (hstart : q.lineStart = p.lineStart) (hnear : q.index ≤ p.index + 2)
    (hle : q.index ≤ p.index + 1 + t.length) : (q.fault cause).Along p (c :: t) := by
  have hlevel : p.Level (c :: t) (p.step 1) t :=
    ⟨rfl, rfl, (Text.lineEnds_cons_of_inLine hc).symm⟩
  have hbehind : (q.fault cause).Along (p.step 1) t := Place.fault_along hline hstart hnear hle
  refine hbehind.mono hlevel (List.suffix_cons c t) ?_
  simp only [Place.step, List.length_cons]
  omega

/-- A later place of the line is blamed. -/
theorem Place.Level.fault_along {cause : Fault} (h : p.Level t q u) (hreach : p.Reaches t q u) :
    (q.fault cause).Along p t :=
  (Place.fault_along rfl rfl (by omega) (by omega)).mono h hreach.suffix hreach.total

/-- A place of the line is blamed that was reached from a later one than this. -/
theorem Place.Level.fault_along_of_level {p' : Place} {t' : Text} {cause : Fault}
    (h : q.Level u p' t') (hreach : q.Reaches u p' t') (hlevel : p.Level t q u) (hsuffix : u <:+ t)
    (htotal : q.index + u.length = p.index + t.length) : (p'.fault cause).Along p t :=
  (h.fault_along hreach).mono hlevel hsuffix htotal

grind_pattern Text.lineEnds_cons_of_inLine => Text.lineEnds (c :: t)
grind_pattern ParseError.Along.mono => e.Along q u, e.Along p t
grind_pattern Place.Level.fault_along_of_level => (p'.fault cause).Along p t, q.Level u p' t'
grind_pattern Place.fault_along_cons => (q.fault cause).Along p (c :: t)
grind_pattern Place.fault_along => (q.fault cause).Along p t

namespace Escape

theorem level_hexDigits {n value : Nat} {r : Option Nat}
    (h : hexDigits n value p t = (r, p', t')) : p.Level t p' t' := by
  fun_induction hexDigits n value p t
  all_goals grind [Place.Level, Place.step]

theorem level_bracedDigits {value : Nat} {c : CodePoint}
    (h : bracedDigits value p t = .ok (c, p', t')) : p.Level t p' t' := by
  fun_induction bracedDigits value p t
  all_goals grind [Place.Level, Place.step]

theorem level_braced {c : CodePoint} (h : braced p t = .ok (c, p', t')) : p.Level t p' t' := by
  rw [braced] at h
  split at h
  · cases h
  · exact level_bracedDigits h

theorem level_octal {first c : CodePoint} {isOctal : Bool}
    (h : octal first p t = (c, isOctal, p', t')) : p.Level t p' t' := by
  unfold octal at h
  split at h <;> grind [Place.Level, Place.step]

end Escape

namespace Name

theorem level_escape {allowed : CodePoint → Bool} {c : CodePoint}
    (h : escape allowed p t = .ok (c, p', t')) : p.Level t p' t' := by
  unfold escape at h
  split at h <;>
    grind [Place.Level, Place.step, → Escape.level_braced, → Escape.level_hexDigits]

theorem level_rest {fuel : Nat} {done name : Text}
    (h : rest fuel done p t = .ok (name, p', t')) : p.Level t p' t' := by
  fun_induction rest fuel done p t
  all_goals grind [Place.Level, Place.step, → level_escape]

theorem level_read {name : Text} {c : CodePoint} (hc : c.isNameStart = true)
    (h : read p (c :: t) = .ok (name, p', t')) : p.Level (c :: t) p' t' := by
  unfold read at h
  split at h <;> grind [Place.Level, Place.step, → level_escape, → level_rest]

theorem level_token {kind : TokenKind} {c : CodePoint} (hc : c.isNameStart = true)
    (h : token p (c :: t) = .ok (kind, p', t')) : p.Level (c :: t) p' t' := by
  unfold token at h
  split at h <;> grind [→ level_read]

end Name

namespace Number

@[grind →]
theorem isLineTerminator_of_isHexDigit {c : CodePoint} (h : isHexDigit c = true) :
    c.isLineTerminator = false :=
  CodePoint.isLineTerminator_eq_false (by decide) h

@[grind →]
theorem isLineTerminator_of_isBinaryDigit {c : CodePoint} (h : isBinaryDigit c = true) :
    c.isLineTerminator = false :=
  CodePoint.isLineTerminator_eq_false (by decide) h

theorem level_digits {f : CodePoint → Bool} (hf : ∀ c, f c = true → c.isLineTerminator = false)
    (p : Place) (t : Text) : p.Level t (p.step (t.takeWhile f).length) (t.dropWhile f) :=
  ⟨rfl, rfl, Text.lineEnds_dropWhile hf t⟩

/-- No line ends among the digits of a decimal numeral. -/
@[grind =]
theorem lineEnds_dropWhile_isDigit (t : Text) :
    Text.lineEnds (t.dropWhile CodePoint.isDigit) = t.lineEnds :=
  Text.lineEnds_dropWhile (fun _ => CodePoint.isLineTerminator_of_isDigit) t

theorem level_inBase {base : Nat} {isDigit stops : CodePoint → Bool} {octal : Bool}
    {kind : TokenKind} (hdigit : ∀ c, isDigit c = true → c.isLineTerminator = false)
    (h : inBase base isDigit stops octal p t = .ok (kind, p', t')) : p.Level t p' t' := by
  have hlevel := level_digits hdigit p t
  unfold inBase at h
  dsimp only at h
  split at h
  · cases h
  · cases h
    exact hlevel

theorem level_exponent {n : Int} (h : exponent p t = .ok (n, p', t')) : p.Level t p' t' := by
  unfold exponent at h
  split at h
  grind [Place.Level, Place.step]

theorem level_exponent? {n : Int} (h : exponent? p t = .ok (n, p', t')) : p.Level t p' t' := by
  unfold exponent? at h
  split at h <;> grind [Place.Level, Place.step, → level_exponent]

theorem level_behindDigits {whole fraction : Text} {kind : TokenKind}
    (h : behindDigits whole fraction p t = .ok (kind, p', t')) : p.Level t p' t' := by
  unfold behindDigits at h
  split at h
  · cases h
  · next hexponent =>
    split at h
    · cases h
    · cases h
      exact level_exponent? hexponent

/-- The digits of a decimal numeral, its point and the digits behind that stand on one line. -/
theorem exists_decimal_eq (p : Place) (t : Text) : ∃ whole fraction q u,
    decimal p t = behindDigits whole fraction q u ∧ p.Level t q u ∧ p.Reaches t q u := by
  have hlevel := level_digits (fun _ => CodePoint.isLineTerminator_of_isDigit) p t
  have hreach := reaches_digits CodePoint.isDigit p t
  rw [decimal_eq_behindDigits rfl]
  split
  · next hpoint =>
    obtain ⟨v, hv⟩ := List.head?_eq_some_iff.1 hpoint
    rw [hv, List.drop_succ_cons, List.drop_zero]
    rw [hv] at hlevel hreach
    refine ⟨_, _, _, _, rfl, ⟨rfl, rfl, ?_⟩, hreach.trans ⟨?_, ?_⟩⟩
    · rw [lineEnds_dropWhile_isDigit, ← hlevel.ends, Text.lineEnds_cons_of_inLine rfl]
    · exact (List.dropWhile_suffix _).trans (List.suffix_cons _ v)
    · have hlength := Text.length_takeWhile_add_dropWhile CodePoint.isDigit v
      simp only [Place.step, List.length_cons]
      omega
  · exact ⟨_, _, _, _, rfl, hlevel, hreach⟩

theorem level_decimal {kind : TokenKind} (h : decimal p t = .ok (kind, p', t')) :
    p.Level t p' t' := by
  obtain ⟨whole, fraction, q, u, heq, hlevel, -⟩ := exists_decimal_eq p t
  rw [heq] at h
  exact hlevel.trans (level_behindDigits h)

theorem level_token {kind : TokenKind} (h : token p t = .ok (kind, p', t')) : p.Level t p' t' := by
  unfold token at h
  split at h <;> grind [Place.Level, Place.step, → level_inBase, → level_decimal]

end Number

namespace Regex

theorem level_pattern {inClass : Bool} {done body : Text}
    (h : pattern inClass done p t = .ok (body, p', t')) : p.Level t p' t' := by
  fun_induction pattern inClass done p t
  all_goals grind [Place.Level, Place.step]

theorem level_flags {done marks : Text} (h : flags done p t = .ok (marks, p', t')) :
    p.Level t p' t' := by
  fun_induction flags done p t
  all_goals grind [Place.Level, Place.step]

theorem level_read {body marks : Text} (h : read p t = .ok (body, marks, p', t')) :
    (p.step 1).Level t p' t' := by
  unfold read at h
  split at h <;> grind [Place.Level, Place.step, → level_pattern, → level_flags]

end Regex

namespace StringLiteral

theorem level_escape {c d : CodePoint} {octal : Bool}
    (h : escape c p t = .ok (d, octal, p', t')) : p.Level t p' t' := by
  unfold escape at h
  split at h <;>
    grind [Place.Level, Place.step, → Escape.level_braced, → Escape.level_hexDigits,
      → Escape.level_octal]

end StringLiteral

namespace Template

theorem level_escape {c d : CodePoint} (h : escape c p t = .ok (d, p', t')) : p.Level t p' t' := by
  unfold escape at h
  split at h <;>
    grind [Place.Level, Place.step, → Escape.level_braced, → Escape.level_hexDigits]

end Template

/-! ## What readers blame on their line -/

namespace Escape

theorem along_bracedDigits {value : Nat} (h : bracedDigits value p t = .error e) :
    e.Along p t := by
  fun_induction bracedDigits value p t
  all_goals grind [Place.Level, Place.step]

theorem along_braced (h : braced p t = .error e) : e.Along p t := by
  rw [braced] at h
  split at h
  · cases h
    exact Place.fault_along rfl rfl (by omega) (by omega)
  · exact along_bracedDigits h

end Escape

namespace Name

theorem along_escape {allowed : CodePoint → Bool} (h : escape allowed p t = .error e) :
    e.Along p t := by
  unfold escape at h
  split at h <;>
    grind [Place.Level, Place.step, Place.Reaches, → Escape.along_braced, → Escape.level_hexDigits,
      → Escape.reaches_hexDigits]

theorem along_rest {fuel : Nat} {done : Text} (h : rest fuel done p t = .error e) :
    e.Along p t := by
  fun_induction rest fuel done p t
  all_goals grind [Place.Level, Place.step, Place.Reaches, → level_escape, → along_escape,
    → reaches_escape]

theorem along_read {c : CodePoint} (hc : c.isNameStart = true)
    (h : read p (c :: t) = .error e) : e.Along p (c :: t) := by
  unfold read at h
  split at h <;>
    grind [Place.Level, Place.step, Place.Reaches, → level_escape, → along_escape, → along_rest,
      → reaches_escape]

theorem along_token {c : CodePoint} (hc : c.isNameStart = true)
    (h : token p (c :: t) = .error e) : e.Along p (c :: t) := by
  unfold token at h
  split at h <;> grind [→ along_read]

end Name

namespace Number

theorem along_inBase {base : Nat} {isDigit stops : CodePoint → Bool} {octal : Bool}
    (hdigit : ∀ c, isDigit c = true → c.isLineTerminator = false)
    (h : inBase base isDigit stops octal p t = .error e) : e.Along p t := by
  have hlevel := level_digits hdigit p t
  unfold inBase at h
  dsimp only at h
  split at h
  · cases h
    exact hlevel.fault_along (reaches_digits isDigit p t)
  · cases h

theorem along_exponent (h : exponent p t = .error e) : e.Along p t := by
  unfold exponent at h
  split at h
  grind [Place.Level, Place.step]

theorem along_exponent? (h : exponent? p t = .error e) : e.Along p t := by
  unfold exponent? at h
  split at h <;> grind [Place.Level, Place.step, → along_exponent]

theorem along_behindDigits {whole fraction : Text}
    (h : behindDigits whole fraction p t = .error e) : e.Along p t := by
  unfold behindDigits at h
  split at h
  · next hexponent =>
    cases h
    exact along_exponent? hexponent
  · next hexponent =>
    split at h
    · cases h
      exact (level_exponent? hexponent).fault_along (reaches_exponent? hexponent)
    · cases h

theorem along_decimal (h : decimal p t = .error e) : e.Along p t := by
  obtain ⟨whole, fraction, q, u, heq, hlevel, hreach⟩ := exists_decimal_eq p t
  rw [heq] at h
  exact (along_behindDigits h).mono hlevel hreach.suffix hreach.total

theorem along_token (h : token p t = .error e) : e.Along p t := by
  unfold token at h
  split at h <;> grind [Place.Level, Place.step, → along_inBase, → along_decimal]

end Number

namespace Regex

theorem along_pattern {inClass : Bool} {done : Text} (h : pattern inClass done p t = .error e) :
    e.Along p t := by
  fun_induction pattern inClass done p t
  all_goals grind [Place.Level, Place.step]

theorem along_flags {done : Text} (h : flags done p t = .error e) : e.Along p t := by
  fun_induction flags done p t
  all_goals grind [Place.Level, Place.step, Place.Reaches, → Escape.level_hexDigits,
    → Escape.reaches_hexDigits]

/-- A regular expression is blamed behind its opening slash. -/
theorem along_read (h : read p t = .error e) : e.Along (p.step 1) t := by
  unfold read at h
  split at h <;>
    grind [Place.Level, Place.step, Place.Reaches, → level_pattern, → level_flags, → along_pattern,
      → along_flags, → reaches_pattern, → reaches_flags]

end Regex

namespace StringLiteral

theorem along_escape {c : CodePoint} (h : escape c p t = .error e) : e.Along p t := by
  unfold escape at h
  split at h <;>
    grind [Place.Level, Place.step, Place.Reaches, → Escape.along_braced, → Escape.level_hexDigits,
      → Escape.reaches_hexDigits]

end StringLiteral

namespace Template

theorem along_escape {c : CodePoint} (h : escape c p t = .error e) : e.Along p t := by
  unfold escape at h
  split at h <;>
    grind [Place.Level, Place.step, Place.Reaches, → Escape.along_braced, → Escape.level_hexDigits,
      → Escape.reaches_hexDigits]

end Template

end

/-! ## Readers that go over lines -/

section

variable {p p' : Place} {t t' w : Text} {e : ParseError}

namespace Place.Fronts

variable {c d b : CodePoint}

/-- Reading on over the end of a line and the character in front of it. -/
theorem newLine_two (h : p.Fronts (c :: d :: t) w) (hc : ¬Text.EndsLine c (d :: t))
    (hd : Text.EndsLine d t) : (p.newLine 2).Fronts t w := (h.step hc).newLine hd

/-- Reading on over the end of a line and the two characters in front of it. -/
theorem newLine_three (h : p.Fronts (b :: c :: d :: t) w) (hb : ¬Text.EndsLine b (c :: d :: t))
    (hc : ¬Text.EndsLine c (d :: t)) (hd : Text.EndsLine d t) : (p.newLine 3).Fronts t w :=
  (h.step hb).newLine_two hc hd

end Place.Fronts

grind_pattern Place.Fronts.step => p.Fronts (c :: t) w
grind_pattern Place.Fronts.newLine => p.Fronts (c :: t) w, p.newLine 1
grind_pattern Place.Fronts.newLine_two => p.Fronts (c :: d :: t) w, p.newLine 2
grind_pattern Place.Fronts.newLine_three => p.Fronts (b :: c :: d :: t) w, p.newLine 3
grind_pattern Place.Fronts.along_line => p.Fronts t w, p.Reaches t p' t'

theorem Separator.fronts_skip {mode : Mode} {fresh : Bool} (hp : p.Fronts t w)
    (h : skip mode fresh p t = .ok (p', t')) : p'.Fronts t' w := by
  fun_induction skip mode fresh p t
  all_goals grind [Place.step, Place.newLine, Text.EndsLine, BeginsPair]

/-- What is not skipped does not begin with the end of a line. -/
theorem Separator.inLine_skip {mode : Mode} {fresh : Bool}
    (h : skip mode fresh p t = .ok (p', t')) :
    ∀ c ∈ t'.head?, c.isLineTerminator = false := by
  fun_induction skip mode fresh p t
  all_goals grind

/-- Only a comment that does not end is a fault among separators. -/
theorem Separator.fault_skip {mode : Mode} {fresh : Bool} (hp : p.Fronts t w)
    (h : skip mode fresh p t = .error e) : e.LiesIn w := by
  fun_induction skip mode fresh p t
  all_goals
    grind [Place.step, Text.EndsLine, BeginsPair, Place.Fronts.liesIn, Place.LiesIn.fault]

namespace StringLiteral

theorem fronts_body {quote : CodePoint} {start fuel : Nat} {done value : Text} {octal octal' : Bool}
    (hquote : quote.isLineTerminator = false) (hp : p.Fronts t w)
    (h : body quote start fuel done octal p t = .ok (value, octal', p', t')) : p'.Fronts t' w := by
  fun_induction body quote start fuel done octal p t
  all_goals
    grind [Place.step, Text.EndsLine, Separator.BeginsPair, Text.endsLine_of_forall,
      Text.endsLine_lineFeed, → level_escape, → reaches_escape]

/-- A literal is blamed on its opening quote, and an escape on what comes behind it. -/
theorem fault_body {quote : CodePoint} {start fuel : Nat} {done : Text} {octal : Bool}
    (hstart : start ≤ p.index) (hp : p.Fronts t w)
    (h : body quote start fuel done octal p t = .error e) : e.LiesIn w := by
  fun_induction body quote start fuel done octal p t
  all_goals
    grind [Place.step, Place.newLine, Text.EndsLine, Separator.BeginsPair, Text.endsLine_of_forall,
      Text.endsLine_lineFeed, → level_escape, → reaches_escape, → Place.Reaches.le, → along_escape,
      Place.Fronts.along, Place.Fronts.fault_at]

theorem fronts_token {quote : CodePoint} {kind : TokenKind}
    (hquote : quote.isLineTerminator = false) (hp : p.Fronts (quote :: t) w)
    (h : token quote p t = .ok (kind, p', t')) : p'.Fronts t' w := by
  unfold token at h
  split at h
  · next hbody =>
    cases h
    exact fronts_body hquote (hp.step_inLine hquote) hbody
  · cases h

theorem fault_token {quote : CodePoint} (hquote : quote.isLineTerminator = false)
    (hp : p.Fronts (quote :: t) w) (h : token quote p t = .error e) : e.LiesIn w := by
  unfold token at h
  split at h
  · cases h
  · next hbody =>
    cases h
    exact fault_body (Nat.le_succ _) (hp.step_inLine hquote) hbody

end StringLiteral

namespace Template

@[grind =]
theorem isLineTerminator_quote : quote.isLineTerminator = false := rfl

theorem fronts_body {fuel : Nat} {done value : Text} {tail : Bool} (hp : p.Fronts t w)
    (h : body fuel done p t = .ok (value, tail, p', t')) : p'.Fronts t' w := by
  fun_induction body fuel done p t
  all_goals
    grind [Place.step, Text.EndsLine, Separator.BeginsPair, Text.endsLine_of_forall,
      Text.endsLine_lineFeed, Option.pure_def, Option.bind_eq_bind,
      → Text.eq_cons_drop_one, → level_escape, → reaches_escape]

/-- A backslash at the end of the text would be blamed on what is behind the text. -/
theorem fault_body {fuel : Nat} {done : Text} (hw : w.getLast? ≠ some (.scalar '\\'))
    (hp : p.Fronts t w) (h : body fuel done p t = .error e) : e.LiesIn w := by
  fun_induction body fuel done p t
  all_goals
    grind [Place.step, Text.EndsLine, Separator.BeginsPair, Text.endsLine_of_forall,
      Text.endsLine_lineFeed, Option.pure_def, Option.bind_eq_bind,
      → Text.eq_cons_drop_one, → level_escape, → reaches_escape, → along_escape,
      → Place.Fronts.getLast?, Place.Fronts.along, Place.Fronts.liesIn, Place.LiesIn.fault]

theorem fronts_token {head : Bool} {kind : TokenKind} {c : CodePoint}
    (hc : c.isLineTerminator = false) (hp : p.Fronts (c :: t) w)
    (h : token head p t = .ok (kind, p', t')) : p'.Fronts t' w := by
  unfold token at h
  split at h
  · next hbody =>
    cases h
    exact fronts_body (hp.step_inLine hc) hbody
  · cases h

theorem fault_token {head : Bool} {c : CodePoint} (hw : w.getLast? ≠ some (.scalar '\\'))
    (hc : c.isLineTerminator = false) (hp : p.Fronts (c :: t) w)
    (h : token head p t = .error e) : e.LiesIn w := by
  unfold token at h
  split at h
  · cases h
  · next hbody =>
    cases h
    exact fault_body hw (hp.step_inLine hc) hbody

end Template

/-- A punctuator stands on one line. -/
theorem Punctuator.level_longest? {q : Punctuator} (h : longest? t = some q) (p : Place) :
    p.Level t (p.step q.spelling.length) (t.drop q.spelling.length) := by
  have hline : ∀ q ∈ all, ∀ c ∈ q.text, c.isLineTerminator = false := by decide
  have hends := Text.lineEnds_append_of_inLine (t.drop q.spelling.length)
    (hline q (List.mem_of_find?_eq_some h))
  exact ⟨rfl, rfl, ((congrArg Text.lineEnds (eq_text_append_drop h)).trans hends).symm⟩

namespace Reader

variable {r r' : Reader} {a : Token}

/-- No token begins with what ends a line. -/
theorem inLine_skipSeparators (h : r.skipSeparators = .ok r') :
    ∀ c ∈ r'.rest.head?, c.isLineTerminator = false := by
  unfold skipSeparators at h
  split at h
  case h_1 p' t' hskip =>
    cases h
    exact Separator.inLine_skip hskip
  case h_2 => cases h

theorem fronts_skipSeparators (hr : r.place.Fronts r.rest w) (h : r.skipSeparators = .ok r') :
    r'.place.Fronts r'.rest w := by
  unfold skipSeparators at h
  split at h
  case h_1 p' t' hskip =>
    cases h
    exact Separator.fronts_skip hr hskip
  case h_2 => cases h

theorem fault_skipSeparators (hr : r.place.Fronts r.rest w) (h : r.skipSeparators = .error e) :
    e.LiesIn w := by
  unfold skipSeparators at h
  split at h
  case h_1 => cases h
  case h_2 e' hskip =>
    cases h
    exact Separator.fault_skip hr hskip

theorem fronts_kind {kind : TokenKind} (hr : r.place.Fronts r.rest w)
    (h : r.kind = .ok (kind, p', t')) : p'.Fronts t' w := by
  have hreach := reaches_kind h
  unfold Reader.kind at h
  split at h
  case h_1 hrest =>
    cases h
    rwa [hrest] at hr
  case h_2 c t hrest =>
    rw [hrest] at hr
    grind [→ Name.level_token, → Number.level_token, → StringLiteral.fronts_token,
      → Template.fronts_token, Punctuator.level_longest?]

theorem fault_kind (hw : w.getLast? ≠ some (.scalar '\\')) (hr : r.place.Fronts r.rest w)
    (h : r.kind = .error e) : e.LiesIn w := by
  unfold Reader.kind at h
  split at h
  case h_1 => cases h
  case h_2 c t hrest =>
    rw [hrest] at hr
    grind [→ Name.along_token, → Number.along_token, → StringLiteral.fault_token,
      → Template.fault_token, Place.Fronts.along, Place.Fronts.liesIn, Place.LiesIn.fault]

theorem fronts_token (hr : r.place.Fronts r.rest w) (h : r.token = .ok (a, r')) :
    r'.place.Fronts r'.rest w := by
  unfold token at h
  split at h
  case h_1 hkind =>
    cases h
    exact fronts_kind hr hkind
  case h_2 => cases h

theorem fault_token (hw : w.getLast? ≠ some (.scalar '\\')) (hr : r.place.Fronts r.rest w)
    (h : r.token = .error e) : e.LiesIn w := by
  unfold token at h
  split at h
  case h_1 => cases h
  case h_2 hkind =>
    cases h
    exact fault_kind hw hr hkind

/-- A token lies in the text in which it was read. -/
theorem liesIn_token (hr : r.place.Fronts r.rest w)
    (h : r.token = .ok (a, r')) : a.LiesIn w := by
  have hr' := (fronts_token hr h).liesIn
  obtain ⟨hreach, hspan⟩ := reaches_token h
  obtain ⟨hline, -⟩ := line_token h
  refine ⟨r'.place.index, ?_, hr'.index, hline.trans hr'.line⟩
  rw [hspan]
  exact hreach.le

end Reader

end

end Elementwise
