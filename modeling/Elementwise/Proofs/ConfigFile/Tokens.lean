import Elementwise.Yaml.Token
import Elementwise.Proofs.ConfigFile.Written

/-!
# The tokens of a configuration file

Where a line of a file ends it does not matter how: the break may be passed already, as it is behind
a plain scalar, or be still to come, as it is behind a quoted one, and a possible key may be left
over from the line.  `Scan.EndsLine` is all that the next line depends on, and every line of the
file leads from one such place to the next.

## What is here

* `Yaml.Scan.Reads` — some tokens are read, one after another.
* `Yaml.Scan.EndsLine` — a line of the file ends, and the next one begins.
* `Yaml.Scan.token_writtenScalar` — a name is read back, however it is written.
* `Config.tokens_toText` — the tokens of the file of a valid configuration.
-/

set_option autoImplicit false
namespace Elementwise
namespace Yaml
namespace Scan

open Config

/-! ## Moves -/

/-- The characters that are passed within a line. -/
def isInLine (c : CodePoint) : Bool := !isBreak c && c != '\ufeff'

theorem step_of_isInLine {c : CodePoint} {t : Text} {s : Scan} (hc : isInLine c = true)
    (hs : s.rest = c :: t) :
    s.step = { s with rest := t, index := s.index + 1, column := s.column + 1 } := by
  obtain ⟨hbreak, hmark⟩ := Bool.and_eq_true_iff.1 hc
  rw [Bool.not_eq_true'] at hbreak
  rw [step, hs]
  simp only [hbreak, Bool.false_and, if_neg Bool.false_ne_true, if_neg (bne_iff_ne.1 hmark)]

/-- Characters of one line are passed all at once. -/
theorem skip_of_isInLine {u v : Text} {s : Scan} (hu : ∀ c ∈ u, isInLine c = true)
    (hs : s.rest = u ++ v) :
    s.skip u.length =
      { s with rest := v, index := s.index + u.length, column := s.column + u.length } := by
  induction u generalizing s with
  | nil =>
    rw [List.nil_append] at hs
    subst hs
    rfl
  | cons c u ih =>
    have hstep := step_of_isInLine (hu c (List.mem_cons_self ..)) hs
    rw [List.length_cons, skip,
      ih (fun d hd => hu d (List.mem_cons_of_mem _ hd)) (by rw [hstep]; rfl), hstep]
    simp only [Nat.add_assoc, Nat.add_comm 1]

theorem isInLine_of_continuesName {c : CodePoint} (h : continuesName c = true) :
    isInLine c = true :=
  forall_continuesName isInLine (by decide) h

/-- Some tokens are read, one after another. -/
inductive Reads : Nat → Scan → Scan → Prop
  | nothing (s : Scan) : Reads 0 s s
  | token {n : Nat} {s s' s'' : Scan} (first : s.next = .ok (s', true)) (rest : Reads n s' s'') :
    Reads (n + 1) s s''

theorem Reads.trans {m n : Nat} {s s' s'' : Scan} (h : Reads m s s') (h' : Reads n s' s'') :
    Reads (m + n) s s'' := by
  induction h with
  | nothing s =>
    rw [Nat.zero_add]
    exact h'
  | token first rest ih =>
    rw [Nat.add_right_comm]
    exact .token first (ih h')

/-- Tokens that are read one after another are read. -/
theorem Reads.all {n : Nat} {s s' : Scan} (h : Reads n s s') (fuel : Nat) :
    s.all (fuel + n) = s'.all fuel := by
  induction h with
  | nothing s => rfl
  | token first rest ih =>
    rw [← Nat.add_assoc, Scan.all, first]
    exact ih

/-! ## The ends of lines -/

/-- The beginning of a line in the mapping that a file holds. -/
def atLine (w : Text) (index line : Nat) (ts : List Token) : Scan where
  rest := w
  index := index
  line := line
  tokens := ts
  indent := 0
  indents := [-1]

/-- **A line ends here, and `w` is behind it.**  Possible keys that are left over are on another
line and need not be keys. -/
def EndsLine (w : Text) (ts : List Token) (s : Scan) : Prop :=
  ∃ i l ks, s.toNextToken (s.rest.length + 1) = { atLine w i l ts with keys := ks } ∧
    ∀ e ∈ ks, e.2.required = false ∧ e.2.line ≠ l

theorem dropStaleKeys_of_line {s : Scan}
    (h : ∀ e ∈ s.keys, e.2.required = false ∧ e.2.line ≠ s.line) :
    s.dropStaleKeys = some { s with keys := [] } := by
  have hstale : ∀ e ∈ s.keys, s.isStale e.2 = true := by
    intro e he
    rw [isStale, bne_iff_ne.2 (h e he).2, Bool.true_or]
  have hany : (s.keys.any fun e => s.isStale e.2 && e.2.required) = false := by
    rw [List.any_eq_false]
    intro e he
    rw [(h e he).1, Bool.and_false]
    exact Bool.false_ne_true
  have hfilter : (s.keys.filter fun e => !s.isStale e.2) = [] := by
    rw [List.filter_eq_nil_iff]
    intro e he
    rw [hstale e he]
    exact Bool.false_ne_true
  rw [dropStaleKeys, hany, if_neg Bool.false_ne_true, hfilter]

/-- The next line begins with a token. -/
theorem EndsLine.next {c : CodePoint} {w : Text} {ts : List Token} {s : Scan}
    (h : s.EndsLine (c :: w) ts) :
    ∃ i l, ∀ s', (atLine (c :: w) i l ts).token c w = .ok s' → s.next = .ok (s', true) := by
  obtain ⟨i, l, ks, hnext, hks⟩ := h
  refine ⟨i, l, fun s' hs' => ?_⟩
  have hdrop := dropStaleKeys_of_line (s := { atLine (c :: w) i l ts with keys := ks }) hks
  have htoken : s.next = (atLine (c :: w) i l ts).token c w >>= fun s' => pure (s', true) := by
    rw [Scan.next, hnext, hdrop]
    rfl
  rw [htoken, hs']
  rfl

/-- No line is next: the mapping ends. -/
theorem EndsLine.next_nil {ts : List Token} {s : Scan} (h : s.EndsLine [] ts) :
    ∃ s', s.next = .ok (s', false) ∧ s'.tokens = ts ++ [.blockEnd] := by
  obtain ⟨i, l, ks, hnext, hks⟩ := h
  have hdrop := dropStaleKeys_of_line (s := { atLine [] i l ts with keys := ks }) hks
  refine ⟨{ atLine [] i l (ts ++ [.blockEnd]) with indent := -1, indents := [] }, ?_, rfl⟩
  rw [Scan.next, hnext, hdrop]
  rfl

/-! ## Scalars -/

theorem not_isBreak_of_isInLine {c : CodePoint} (h : isInLine c = true) : isBreak c = false := by
  rw [isInLine, Bool.and_eq_true, Bool.not_eq_true'] at h
  exact h.1

/-- A plain scalar reaches to the end of a name. -/
theorem plainLength_name {u v : Text} (hu : ∀ c ∈ u, continuesName c = true)
    (hv : plainLength false v = 0) : plainLength false (u ++ v) = u.length := by
  induction u with
  | nil => exact hv
  | cons c u ih =>
    have hc := hu c (List.mem_cons_self ..)
    have hends : (isBreak c || decide (c = ' ') || decide (c = '\t') ||
        decide (c = ':') && (atGap (u ++ v) || false)) = false := by
      rw [not_isBreak_of_isInLine (isInLine_of_continuesName hc),
        decide_eq_false (ne_of_continuesName hc rfl), decide_eq_false (ne_of_continuesName hc rfl),
        decide_eq_false (ne_of_continuesName hc rfl)]
      rfl
    rw [List.cons_append, plainLength, ih fun d hd => hu d (List.mem_cons_of_mem _ hd)]
    simp only [Bool.false_and, Bool.or_false] at hends ⊢
    rw [hends, if_neg Bool.false_ne_true, List.length_cons]

/-- A line that does not begin with a blank or a comment and is not empty, or no line. -/
def startsLine (w : Text) : Bool :=
  w.head?.all fun (c : CodePoint) => c != ' ' && c != '#' && !isBreak c

/-- Where a plain scalar ends with its line, the break is passed. -/
theorem plainSpaces_lineFeed {w : Text} {s : Scan} (hs : s.rest = .scalar '\n' :: w)
    (hw : startsLine w = true) :
    s.plainSpaces.2 =
      { s with
        rest := w, index := s.index + 1, line := s.line + 1, column := 0, allowKey := true } := by
  have hbreak : (s.skip 0).rest.head?.any isBreak = true := by
    rw [skip, hs]
    rfl
  have hline : (s.skip 0).lineBreak =
      ([lineFeed],
        { s with rest := w, index := s.index + 1, line := s.line + 1, column := 0 }) := by
    rw [skip, lineBreak, hs]
    simp only [skip, step, hs]
    rfl
  have htake : s.rest.takeWhile isSpace = [] := by
    rw [hs]
    rfl
  have hbreaks (s' : Scan) (hs' : s'.rest = w) (fuel : Nat) :
      plainBreaks (fuel + 1) [] s' = some ([], s') := by
    rw [plainBreaks, hs']
    cases w with
    | nil => rfl
    | cons c w =>
      rw [startsLine, List.head?_cons, Option.all_some, Bool.and_eq_true, Bool.not_eq_true'] at hw
      have hc : c ≠ .scalar ' ' := bne_iff_ne.1 (Bool.and_eq_true_iff.1 hw.1).1
      simp only [hw.2, if_neg Bool.false_ne_true]
  rw [plainSpaces, htake, List.length_nil, hbreak, if_pos rfl, hline]
  by_cases hseparator : atSeparator w = true
  · simp only [hseparator, if_true]
  · simp only [hseparator]
    rw [if_neg Bool.false_ne_true, hbreaks _ rfl]

/-- **A plain scalar at the end of a line** is the name that stands there. -/
theorem plain_lineFeed {name w : Text} {s : Scan} (hname : isName name = true)
    (hs : s.rest = name ++ .scalar '\n' :: w) (hflow : s.flow = 0) (hw : startsLine w = true)
    (fuel : Nat) :
    plain 1 (fuel + 1) [] [] s =
      (name,
        { s with
          rest := w, index := s.index + name.length + 1, line := s.line + 1, column := 0
          allowKey := true }) := by
  have hall := all_continuesName hname
  have hlength : plainLength (s.flow != 0) s.rest = name.length := by
    rw [hflow, hs]
    exact plainLength_name hall rfl
  have hskip := skip_of_isInLine (fun c hc => isInLine_of_continuesName (hall c hc)) hs
  have hspaces := plainSpaces_lineFeed
    (s := { s.skip name.length with allowKey := false }) (w := w) (by rw [hskip]) hw
  have hhead : s.rest.head? ≠ some '#' := by
    rw [hs]
    cases name with
    | nil => cases hname
    | cons c name =>
      intro hc
      exact ne_of_continuesName (d := '#') (hall c (List.mem_cons_self ..)) rfl (Option.some.inj hc)
  have hne : name.length ≠ 0 := fun h => ne_nil_of_isName hname (List.length_eq_zero_iff.1 h)
  have htake : s.rest.take name.length = name := by rw [hs, List.take_left]
  rw [plain, if_neg hhead]
  simp only [hlength, if_neg hne, htake]
  rw [hskip] at hspaces ⊢
  cases hplain : plainSpaces { s with
      rest := .scalar '\n' :: w, index := s.index + name.length, column := s.column + name.length
      allowKey := false } with
  | mk spaces s' =>
    rw [hplain] at hspaces
    subst hspaces
    simp only [hflow]
    -- the column behind the break is less than any that the scalar could go on at
    exact if_pos (by simp)

/-! ## Quotes -/

/-- In single quotes the characters of a name stand for themselves. -/
theorem quoted_name {u v done : Text} {s : Scan} (hu : ∀ c ∈ u, continuesName c = true)
    (hs : s.rest = u ++ v) (fuel : Nat) :
    quoted '\x27' (fuel + u.length) done s =
      quoted '\x27' fuel (done ++ u)
        { s with rest := v, index := s.index + u.length, column := s.column + u.length } := by
  induction u generalizing done s with
  | nil =>
    rw [List.nil_append] at hs
    subst hs
    rw [List.append_nil]
    rfl
  | cons c u ih =>
    have hc := hu c (List.mem_cons_self ..)
    have hstep := step_of_isInLine (isInLine_of_continuesName hc) hs
    have hblank : (decide (c = ' ') || decide (c = '\t') || isBreak c) = false := by
      rw [not_isBreak_of_isInLine (isInLine_of_continuesName hc),
        decide_eq_false (ne_of_continuesName hc rfl), decide_eq_false (ne_of_continuesName hc rfl)]
      rfl
    rw [List.length_cons, ← Nat.add_assoc, quoted, hs, List.cons_append]
    simp only [hblank, if_neg (ne_of_continuesName hc rfl : c ≠ '\x27'),
      decide_eq_false (ne_of_continuesName hc rfl : c ≠ '\\'), Bool.false_and,
      if_neg Bool.false_ne_true]
    rw [ih (fun d hd => hu d (List.mem_cons_of_mem _ hd)) (by rw [hstep]; rfl), hstep,
      List.append_assoc]
    simp only [List.singleton_append, Nat.add_assoc, Nat.add_comm 1]

/-- An empty line in single quotes is a line feed. -/
theorem quoted_lineFeed {w done : Text} {s : Scan}
    (hs : s.rest = .ofChars ['\n', '\n', ' ', ' ', '\x27'] ++ w) (fuel : Nat) :
    quoted '\x27' (fuel + 2) done s =
      quoted '\x27' (fuel + 1) (done ++ [.scalar '\n'])
        { s with
          rest := .scalar '\x27' :: w, index := s.index + 4, line := s.line + 2, column := 2 } := by
  cases s
  subst hs
  rfl

/-- A single quote that no other one follows ends the scalar. -/
theorem quoted_end {w done : Text} {s : Scan} (hs : s.rest = .scalar '\x27' :: .scalar '\n' :: w)
    (fuel : Nat) :
    quoted '\x27' (fuel + 1) done s =
      .ok (done,
        { s with rest := .scalar '\n' :: w, index := s.index + 1, column := s.column + 1 }) := by
  cases s
  subst hs
  rfl

/-! ## A name at the end of a line -/

/-- Only blanks are passed in front of something that begins like a line. -/
theorem toNextToken_of_skipWhile {s s' : Scan} (hskip : s.skipWhile isSpace = s')
    (hw : startsLine s'.rest = true) (fuel : Nat) : s.toNextToken (fuel + 1) = s' := by
  have hhead : s'.rest.head? ≠ some '#' ∧ s'.rest.head?.any isBreak = false := by
    rw [startsLine] at hw
    cases hrest : s'.rest with
    | nil => exact ⟨fun h => (by cases h), rfl⟩
    | cons c w =>
      rw [hrest, List.head?_cons, Option.all_some, Bool.and_eq_true, Bool.and_eq_true,
        Bool.not_eq_true'] at hw
      exact ⟨fun h => bne_iff_ne.1 hw.1.2 (Option.some.inj h), hw.2⟩
  rw [toNextToken, hskip]
  simp only [if_neg hhead.1, hhead.2, if_neg Bool.false_ne_true]

theorem isSpace_of_startsLine {c : CodePoint} {w : Text} (h : startsLine (c :: w) = true) :
    isSpace c = false := by
  rw [startsLine, List.head?_cons, Option.all_some, Bool.and_eq_true, Bool.and_eq_true] at h
  exact decide_eq_false (bne_iff_ne.1 h.1.1)

/-- What stands at the beginning of a line is not passed. -/
theorem toNextToken_of_startsLine {w : Text} {s : Scan} (hs : s.rest = w)
    (hw : startsLine w = true) (fuel : Nat) : s.toNextToken (fuel + 1) = s := by
  subst hs
  refine toNextToken_of_skipWhile ?_ hw fuel
  cases hrest : s.rest with
  | nil => rw [skipWhile, hrest]; rfl
  | cons c w =>
    rw [hrest] at hw
    rw [skipWhile, hrest, List.takeWhile_cons, isSpace_of_startsLine hw, if_neg Bool.false_ne_true]
    rfl

/-- The state between two lines: no flow collection is open, and the only block is the mapping that
the file holds. -/
structure InMapping (s : Scan) : Prop where
  flow : s.flow = 0
  indent : s.indent = 0
  indents : s.indents = [-1]

theorem endsLine_of_startsLine {w : Text} {s : Scan} (h : s.InMapping) (hs : s.rest = w)
    (hw : startsLine w = true) (hcolumn : s.column = 0) (hallow : s.allowKey = true)
    (hkeys : ∀ e ∈ s.keys, e.2.required = false ∧ e.2.line < s.line) : s.EndsLine w s.tokens := by
  refine ⟨s.index, s.line, s.keys, ?_, fun e he => ⟨(hkeys e he).1, Nat.ne_of_lt (hkeys e he).2⟩⟩
  rw [toNextToken_of_startsLine hs hw]
  obtain ⟨hflow, hindent, hindents⟩ := h
  cases s
  subst hs hflow hindent hindents hcolumn hallow
  rfl

theorem endsLine_of_lineFeed {w : Text} {s : Scan} (h : s.InMapping)
    (hs : s.rest = .scalar '\n' :: w) (hw : startsLine w = true)
    (hkeys : ∀ e ∈ s.keys, e.2.required = false ∧ e.2.line ≤ s.line) : s.EndsLine w s.tokens := by
  refine ⟨s.index + 1, s.line + 1, s.keys, ?_, fun e he =>
    ⟨(hkeys e he).1, Nat.ne_of_lt (Nat.lt_succ_of_le (hkeys e he).2)⟩⟩
  have hpass : s.toNextToken (s.rest.length + 1) = toNextToken (w.length + 1)
      { atLine w (s.index + 1) (s.line + 1) s.tokens with keys := s.keys } := by
    obtain ⟨hflow, hindent, hindents⟩ := h
    cases s
    subst hs hflow hindent hindents
    rfl
  rw [hpass]
  exact toNextToken_of_startsLine (s := { atLine w _ _ _ with keys := s.keys }) rfl hw _

/-- Behind the mark of an item or of a value no key has to start. -/
theorem saveKey_of_column {s : Scan} (h : s.InMapping) (hcolumn : s.column ≠ 0)
    (hkeys : s.keys = []) :
    ∃ ks, s.saveKey = some { s with keys := ks } ∧
      ∀ e ∈ ks, e.2.required = false ∧ e.2.line = s.line := by
  rw [saveKey]
  by_cases hallow : s.allowKey = true
  · rw [if_pos hallow]
    have hdrop : s.dropKey = some s := by
      rw [dropKey, hkeys]
      rfl
    have hrequired : (decide (s.flow = 0) && decide (s.indent = (s.column : Int))) = false := by
      have hne : s.indent ≠ (s.column : Int) := by
        rw [h.indent]
        omega
      rw [decide_eq_false hne, Bool.and_false]
    rw [hdrop]
    refine ⟨_, rfl, ?_⟩
    intro e he
    rw [hkeys, List.mem_singleton] at he
    rw [he]
    exact ⟨hrequired, rfl⟩
  · rw [if_neg hallow]
    refine ⟨[], ?_, fun e he => absurd he List.not_mem_nil⟩
    rw [← hkeys]

/-- The token that begins with a character of names is a plain scalar. -/
theorem token_of_continuesName {c : CodePoint} {u : Text} {s : Scan} (hc : continuesName c = true)
    (hs : s.rest = c :: u) : s.token c u = expect s.plainScalar := by
  have hne {d : CodePoint} (hd : continuesName d = false) : c ≠ d := ne_of_continuesName hc hd
  have hmark {d : CodePoint} (hd : continuesName d = false) : atMark d s.rest = false := by
    rw [atMark, hs, List.isPrefixOf_cons_cons, beq_false_of_ne (Ne.symm (hne hd)), Bool.false_and,
      Bool.false_and]
  have hstarts (inFlow : Bool) : startsPlain inFlow c u = true := by
    have hplain : startsPlain true c [] = true :=
      forall_continuesName (fun d => startsPlain true d []) (by decide) hc
    rw [startsPlain, Bool.or_eq_true] at hplain ⊢
    refine .inl (hplain.resolve_right fun hgap => ?_)
    cases hgap
  rw [token]
  simp [hne (d := '\x27') rfl, hne (d := '\x22') rfl, hne (d := '%') rfl, hmark (d := '-') rfl,
    hmark (d := '.') rfl, hne (d := '[') rfl, hne (d := '{') rfl, hne (d := ']') rfl,
    hne (d := '}') rfl, hne (d := ',') rfl, hne (d := '-') rfl, hne (d := '?') rfl,
    hne (d := ':') rfl, hne (d := '*') rfl, hne (d := '&') rfl, hne (d := '!') rfl,
    hne (d := '|') rfl, hne (d := '>') rfl, hstarts]

/-- A name without quotes is read back at the end of a line. -/
theorem token_plain {name w : Text} {s : Scan} (hname : isName name = true) (h : s.InMapping)
    (hs : s.rest = name ++ .scalar '\n' :: w) (hw : startsLine w = true)
    (hcolumn : s.column ≠ 0) (hkeys : s.keys = []) :
    ∃ c u s', s.rest = c :: u ∧ s.token c u = .ok s' ∧
      s'.EndsLine w (s.tokens ++ [.scalar name true]) := by
  obtain ⟨ks, hsave, hks⟩ := saveKey_of_column h hcolumn hkeys
  obtain ⟨hflow, hindent, hindents⟩ := h
  cases name with
  | nil => cases hname
  | cons c name =>
    have hstart : s.rest = c :: (name ++ .scalar '\n' :: w) := hs
    have hc := all_continuesName hname c (List.mem_cons_self ..)
    have hread := plain_lineFeed (s := { s with keys := ks, allowKey := false }) hname hs hflow hw
      s.rest.length
    have htoken : s.token c (name ++ .scalar '\n' :: w) = .ok (emit (.scalar (c :: name) true)
        { s with
          rest := w, index := s.index + (c :: name).length + 1, line := s.line + 1, column := 0
          allowKey := true, keys := ks }) := by
      have hdeeper : s.indent + 1 = 1 := by rw [hindent]; rfl
      rw [token_of_continuesName hc hstart, plainScalar, hsave]
      simp only [Option.bind_eq_bind, Option.bind_some, hdeeper]
      rw [hread]
      rfl
    refine ⟨c, _, _, hstart, htoken, ?_⟩
    exact endsLine_of_startsLine ⟨hflow, hindent, hindents⟩ rfl hw rfl rfl fun e he =>
      ⟨(hks e he).1, Nat.lt_succ_of_le (Nat.le_of_eq (hks e he).2)⟩

/-- What is read behind a single quote becomes a scalar. -/
theorem token_quoted {t u w : Text} {s : Scan} (h : s.InMapping)
    (hs : s.rest = .scalar '\x27' :: u) (hw : startsLine w = true) (hcolumn : s.column ≠ 0)
    (hkeys : s.keys = [])
    (hread : ∀ ks, ∃ index line column, s.line ≤ line ∧ quoted '\x27' (u.length + 1) []
        { s with
          rest := u, index := s.index + 1, column := s.column + 1, allowKey := false, keys := ks } =
      .ok (t,
        { s with
          rest := .scalar '\n' :: w, index, line, column, allowKey := false, keys := ks })) :
    ∃ c u s', s.rest = c :: u ∧ s.token c u = .ok s' ∧
      s'.EndsLine w (s.tokens ++ [.scalar t false]) := by
  obtain ⟨ks, hsave, hks⟩ := saveKey_of_column h hcolumn hkeys
  obtain ⟨hflow, hindent, hindents⟩ := h
  obtain ⟨index, line, column, hline, hread⟩ := hread ks
  have hstep : step { s with allowKey := false, keys := ks } =
      { s with
        rest := u, index := s.index + 1, column := s.column + 1, allowKey := false, keys := ks } :=
    step_of_isInLine (c := '\x27') (by decide) hs
  have htoken : s.token '\x27' u = .ok (emit (.scalar t false)
      { s with
        rest := .scalar '\n' :: w, index, line, column, allowKey := false, keys := ks }) := by
    rw [token]
    simp only [decide_true, Bool.true_or, if_true]
    rw [quotedScalar, hsave, expect]
    simp only [bind, Except.bind]
    rw [hstep]
    simp only [hread]
    rfl
  refine ⟨_, _, _, hs, htoken, ?_⟩
  exact endsLine_of_lineFeed ⟨hflow, hindent, hindents⟩ rfl hw fun e he =>
    ⟨(hks e he).1, Nat.le_trans (Nat.le_of_eq (hks e he).2) hline⟩

/-- **A name is read back** at the end of a line, however it is written there. -/
theorem token_writtenScalar {t w : Text} {s : Scan} (ht : isAcceptedName t = true) (h : s.InMapping)
    (hs : s.rest = writtenScalar t ++ .scalar '\n' :: w) (hw : startsLine w = true)
    (hcolumn : s.column ≠ 0) (hkeys : s.keys = []) :
    ∃ c u s', s.rest = c :: u ∧ s.token c u = .ok s' ∧
      s'.EndsLine w (s.tokens ++ [.scalar t (Style.fitsPlain t)]) := by
  rw [writtenScalar] at hs
  cases hplain : Style.fitsPlain t with
  | true =>
    rw [hplain, if_pos rfl] at hs
    exact token_plain (isName_of_fitsPlain ht hplain) h hs hw hcolumn hkeys
  | false =>
    rw [hplain, if_neg Bool.false_ne_true] at hs
    rcases isAcceptedName_iff.1 ht with hname | ⟨name, hname, rfl⟩
    · have hall := all_continuesName hname
      have hlast : t.getLast? ≠ some (.scalar '\n') := fun hlast =>
        ne_of_continuesName (hall _ (List.mem_of_getLast? hlast)) rfl rfl
      rw [if_neg hlast] at hs
      have hquote : s.rest = .scalar '\x27' :: (t ++ .scalar '\x27' :: .scalar '\n' :: w) := by
        rw [hs, List.cons_append, List.cons_append, List.append_assoc]
        rfl
      refine token_quoted h hquote hw hcolumn hkeys fun ks => ?_
      have hlength : (t ++ .scalar '\x27' :: .scalar '\n' :: w).length + 1 =
          (w.length + 2) + 1 + t.length := by
        rw [List.length_append, List.length_cons, List.length_cons]
        omega
      rw [hlength, quoted_name hall rfl, List.nil_append, quoted_end rfl]
      exact ⟨_, _, _, Nat.le_refl _, rfl⟩
    · rw [if_pos (List.getLast?_concat ..)] at hs
      have hquote : s.rest = .scalar '\x27' ::
          (name ++ (Text.ofChars ['\n', '\n', ' ', ' ', '\x27'] ++ .scalar '\n' :: w)) := by
        rw [hs]
        simp [Text.ofChars]
      refine token_quoted h hquote hw hcolumn hkeys fun ks => ?_
      have hlength :
          (name ++ (Text.ofChars ['\n', '\n', ' ', ' ', '\x27'] ++ .scalar '\n' :: w)).length
          + 1 = (w.length + 5) + 2 + name.length := by
        rw [List.length_append]
        simp only [Text.ofChars, List.map_cons, List.map_nil, List.length_cons, List.cons_append,
          List.nil_append]
        omega
      rw [hlength, quoted_name (all_continuesName hname) rfl, List.nil_append, quoted_lineFeed rfl,
        quoted_end rfl]
      exact ⟨_, _, _, Nat.le_add_right _ 2, rfl⟩

/-! ## Lines -/

theorem startsLine_writtenScalar {t : Text} (ht : isAcceptedName t = true) (w : Text) :
    startsLine (writtenScalar t ++ w) = true := by
  have hname {name : Text} (hname : isName name = true) (w : Text) :
      startsLine (name ++ w) = true := by
    cases name with
    | nil => cases hname
    | cons c name =>
      exact forall_continuesName (fun d => startsLine [d]) (by decide)
        (all_continuesName hname c (List.mem_cons_self ..))
  rw [writtenScalar]
  split
  · exact hname (isName_of_fitsPlain ht ‹_›) w
  · split
    · rfl
    · rfl

/-- Behind a blank the token that comes next is read. -/
theorem next_of_blank {c : CodePoint} {u : Text} {s s' : Scan} (h : s.InMapping)
    (hs : s.rest = .scalar ' ' :: c :: u) (hstarts : startsLine (c :: u) = true)
    (hkeys : s.keys = [])
    (htoken : token { s with rest := c :: u, index := s.index + 1, column := s.column + 1 } c u =
      .ok s') : s.next = .ok (s', true) := by
  have hspaces : s.rest.takeWhile isSpace = [.scalar ' '] := by
    rw [hs, List.takeWhile_cons, List.takeWhile_cons, isSpace_of_startsLine hstarts]
    rfl
  have hskip : s.skipWhile isSpace =
      { s with rest := c :: u, index := s.index + 1, column := s.column + 1 } := by
    rw [skipWhile, hspaces]
    exact skip_of_isInLine (u := [.scalar ' ']) (by decide) hs
  have hdeeper : ¬ (((s.column + 1 : Nat) : Int) < s.indent) := by
    rw [h.indent]
    omega
  rw [Scan.next, toNextToken_of_skipWhile hskip hstarts, dropStaleKeys, hkeys]
  simp only [List.any_nil, Bool.false_eq_true, if_false, List.filter_nil, expect, bind, Except.bind,
    unwindTo, unwind, decide_eq_false hdeeper, Bool.and_false]
  rw [hkeys] at htoken
  rw [htoken]
  rfl

/-- **A value is read** that stands behind a blank at the end of a line. -/
theorem next_writtenScalar {t w : Text} {s : Scan} (ht : isAcceptedName t = true) (h : s.InMapping)
    (hs : s.rest = .scalar ' ' :: (writtenScalar t ++ .scalar '\n' :: w)) (hw : startsLine w = true)
    (hkeys : s.keys = []) :
    ∃ s', s.next = .ok (s', true) ∧
      s'.EndsLine w (s.tokens ++ [.scalar t (Style.fitsPlain t)]) := by
  obtain ⟨hflow, hindent, hindents⟩ := h
  obtain ⟨c, u, s', hcons, htoken, hends⟩ := token_writtenScalar (w := w) ht
    (s := { s with
      rest := writtenScalar t ++ .scalar '\n' :: w, index := s.index + 1, column := s.column + 1 })
    ⟨hflow, hindent, hindents⟩ rfl hw (Nat.succ_ne_zero _) hkeys
  have hstarts := startsLine_writtenScalar ht (.scalar '\n' :: w)
  simp only [] at hcons
  rw [hcons] at hs hstarts htoken
  exact ⟨s', next_of_blank ⟨hflow, hindent, hindents⟩ hs hstarts hkeys htoken, hends⟩

/-- The tokens of a global. -/
def itemTokens (name : Text) : List Token := [.blockEntry, .scalar name (Style.fitsPlain name)]

/-- **The lines of the globals are read**, two tokens in each. -/
theorem reads_items {names : List Text} (h : ∀ name ∈ names, isAcceptedName name = true) {w : Text}
    (hw : startsLine w = true) {ts : List Token} {s : Scan}
    (hs : s.EndsLine (names.flatMap writtenItem ++ w) ts) :
    ∃ s', Reads (2 * names.length) s s' ∧ s'.EndsLine w (ts ++ names.flatMap itemTokens) := by
  induction names generalizing ts s with
  | nil =>
    rw [List.flatMap_nil, List.append_nil]
    exact ⟨s, .nothing s, hs⟩
  | cons name names ih =>
    have hline : (name :: names).flatMap writtenItem ++ w = .scalar '-' :: .scalar ' ' ::
        (writtenScalar name ++ .scalar '\n' :: (names.flatMap writtenItem ++ w)) := by
      rw [List.flatMap_cons, writtenItem]
      simp [Text.ofChars]
    have hstarts : startsLine (names.flatMap writtenItem ++ w) = true := by
      cases names with
      | nil => exact hw
      | cons name names => rfl
    rw [hline] at hs
    obtain ⟨i, l, hentry⟩ := hs.next
    have hfirst := hentry _ rfl
    obtain ⟨s', hnext, hends⟩ := next_writtenScalar (h name (List.mem_cons_self ..))
      (s := { atLine (.scalar ' ' ::
          (writtenScalar name ++ .scalar '\n' :: (names.flatMap writtenItem ++ w)))
        (i + 1) l (ts ++ [.blockEntry]) with column := 1 }) ⟨rfl, rfl, rfl⟩ rfl hstarts rfl
    obtain ⟨s'', hreads, hends'⟩ := ih (fun n hn => h n (List.mem_cons_of_mem _ hn)) hends
    refine ⟨s'', ?_, ?_⟩
    · exact .token hfirst (.token hnext hreads)
    · rw [List.flatMap_cons, itemTokens]
      simpa [atLine] using hends'

/-- A token is read where it stands, unless a possible key is stale or a block ends there. -/
theorem next_of_token {c : CodePoint} {u : Text} {s s' : Scan} (hs : s.rest = c :: u)
    (hstarts : startsLine (c :: u) = true) (hfresh : s.dropStaleKeys = some s)
    (hblock : s.unwindTo s.column = s) (htoken : s.token c u = .ok s') :
    s.next = .ok (s', true) := by
  rw [Scan.next, toNextToken_of_startsLine hs hstarts, hfresh]
  simp only [expect, bind, Except.bind, hblock]
  rw [hs]
  simp only [htoken]
  rfl

/-- The key of the stem is read at the beginning of a line, and the colon behind it, which makes it
a key. -/
theorem reads_stemKey {u : Text} {ts : List Token} {s : Scan}
    (hs : s.EndsLine (stemKey ++ .ofChars [':', ' '] ++ u) ts) :
    ∃ s', Reads 2 s s' ∧ s'.InMapping ∧ s'.rest = .scalar ' ' :: u ∧ s'.keys = [] ∧
      s'.tokens = ts ++ [.key, .scalar stemKey true, .value] := by
  obtain ⟨i, l, hword⟩ := hs.next
  let s₁ : Scan :=
    { atLine (.ofChars [':', ' '] ++ u) (i + 11) l (ts ++ [.scalar stemKey true]) with
      column := 11, allowKey := false, keys := [(0, ⟨ts.length, true, i, l, 0⟩)] }
  have hfirst : s.next = .ok (s₁, true) := hword s₁ rfl
  have hfresh : s₁.dropStaleKeys = some s₁ := by
    have hnear : ¬ (i + 1024 < i + 11) := by omega
    simp [s₁, dropStaleKeys, isStale, atLine, hnear]
  have hcolon : s₁.token ':' (.scalar ' ' :: u) =
      .ok { atLine (.scalar ' ' :: u) (i + 12) l (ts ++ [.key, .scalar stemKey true, .value])
        with column := 12, allowKey := false } := by
    have hmark : s₁.token ':' (.scalar ' ' :: u) = expect s₁.valueMark := rfl
    rw [hmark, valueMark]
    simp [s₁, atLine, indentAt, step, Text.ofChars, emit, expect, isBreak,
      CodePoint.isLineTerminator]
  exact ⟨_, .token hfirst (.token (next_of_token rfl rfl hfresh rfl hcolon) (.nothing _)),
    ⟨rfl, rfl, rfl⟩, rfl, rfl, rfl⟩

/-! ## The file -/

/-- The tokens of the list of globals. -/
def globalsTokens (names : List Text) : List Token :=
  if names.isEmpty then [.flowSequence, .flowSequenceEnd] else names.flatMap itemTokens

/-- The key of the globals is read at the beginning of a file, and the colon behind it. -/
theorem reads_globalsKey {c : CodePoint} (hc : c = .scalar ' ' ∨ c = .scalar '\n') (u : Text) :
    Reads 2 { rest := globalsKey ++ .scalar ':' :: c :: u }
      { atLine (c :: u) 8 0 [.blockMapping, .key, .scalar globalsKey true, .value] with
        column := 8, allowKey := false } := by
  let s : Scan := { rest := globalsKey ++ .scalar ':' :: c :: u }
  let s₁ : Scan :=
    { rest := .scalar ':' :: c :: u, index := 7, column := 7, tokens := [.scalar globalsKey true]
      allowKey := false, keys := [(0, ⟨0, false, 0, 0, 0⟩)] }
  have hgap : atGap (c :: u) = true := by
    rcases hc with rfl | rfl
    · rfl
    · rfl
  have hword : s.token 'g' (.ofChars ['l', 'o', 'b', 'a', 'l', 's', ':'] ++ c :: u) = .ok s₁ := by
    rcases hc with rfl | rfl
    · rfl
    · rfl
  have hcolon : s₁.token ':' (c :: u) =
      .ok { atLine (c :: u) 8 0 [.blockMapping, .key, .scalar globalsKey true, .value] with
        column := 8, allowKey := false } := by
    have hmark : s₁.token ':' (c :: u) = expect s₁.valueMark := by
      rw [token]
      simp [s₁, hgap]
    rw [hmark, valueMark]
    simp [s₁, atLine, indentAt, step, emit, expect, isBreak, CodePoint.isLineTerminator]
  exact .token (next_of_token rfl rfl rfl rfl hword)
    (.token (next_of_token rfl rfl rfl rfl hcolon) (.nothing _))

/-- The brackets of an empty list are read behind a key. -/
theorem reads_noGlobals {w : Text} (hw : startsLine w = true) (ts : List Token) :
    ∃ s', Reads 2
        { atLine (.ofChars [' ', '[', ']', '\n'] ++ w) 8 0 ts with
          column := 8, allowKey := false } s' ∧
      s'.EndsLine w (ts ++ [.flowSequence, .flowSequenceEnd]) := by
  let s₁ : Scan := { atLine (.ofChars [']', '\n'] ++ w) 10 0 (ts ++ [.flowSequence]) with
    column := 10, flow := 1 }
  let s₂ : Scan := { atLine (.scalar '\n' :: w) 11 0 (ts ++ [.flowSequence, .flowSequenceEnd]) with
    column := 11, allowKey := false }
  have hopening : token { atLine (.ofChars ['[', ']', '\n'] ++ w) 9 0 ts with
      column := 9, allowKey := false } '[' (.ofChars [']', '\n'] ++ w) = .ok s₁ := rfl
  have hclosing : s₁.token ']' (.scalar '\n' :: w) = .ok s₂ := by
    have hmark : s₁.token ']' (.scalar '\n' :: w) = expect (s₁.closeFlow .flowSequenceEnd) := rfl
    rw [hmark, closeFlow]
    simp [s₁, s₂, atLine, step, emit, expect, isBreak, CodePoint.isLineTerminator, dropKey,
      Text.ofChars]
  refine ⟨s₂, ?_,
    endsLine_of_lineFeed ⟨rfl, rfl, rfl⟩ rfl hw fun e he => absurd he List.not_mem_nil⟩
  exact .token (next_of_blank ⟨rfl, rfl, rfl⟩ rfl rfl rfl hopening)
    (.token (next_of_token rfl rfl rfl rfl hclosing) (.nothing _))

theorem length_flatMap_writtenItem (names : List Text) :
    2 * names.length ≤ (names.flatMap writtenItem).length := by
  induction names with
  | nil => exact Nat.zero_le _
  | cons name names ih =>
    have hitem : 2 ≤ (writtenItem name).length := by
      rw [writtenItem, List.length_append, List.length_append]
      exact Nat.le_trans (Nat.le_add_right 2 _) (Nat.le_add_right _ _)
    rw [List.flatMap_cons, List.length_append, List.length_cons]
    omega

/-- **The globals are read** at the beginning of a file, if there are any or not. -/
theorem reads_globals {names : List Text} (h : ∀ name ∈ names, isAcceptedName name = true)
    {w : Text} (hw : startsLine w = true) :
    ∃ n s', n ≤ (writtenGlobals names).length + 2 ∧
      Reads n { rest := globalsKey ++ [.scalar ':'] ++ writtenGlobals names ++ w } s' ∧
      s'.EndsLine w
        ([.blockMapping, .key, .scalar globalsKey true, .value] ++ globalsTokens names) := by
  cases names with
  | nil =>
    obtain ⟨s', hreads, hends⟩ := reads_noGlobals hw
      [.blockMapping, .key, .scalar globalsKey true, .value]
    have hkey := reads_globalsKey (.inl rfl) (.ofChars ['[', ']', '\n'] ++ w)
    exact ⟨4, s', Nat.le_add_left 4 _, hkey.trans hreads, hends⟩
  | cons name names =>
    have hstarts : startsLine ((name :: names).flatMap writtenItem ++ w) = true := rfl
    have hkey := reads_globalsKey (.inr rfl) ((name :: names).flatMap writtenItem ++ w)
    obtain ⟨s', hreads, hends⟩ := reads_items h hw (endsLine_of_lineFeed
      (s := { atLine (.scalar '\n' :: ((name :: names).flatMap writtenItem ++ w)) 8 0
        [.blockMapping, .key, .scalar globalsKey true, .value] with
          column := 8, allowKey := false })
      ⟨rfl, rfl, rfl⟩ rfl hstarts fun e he => absurd he List.not_mem_nil)
    have hlength := length_flatMap_writtenItem (name :: names)
    refine ⟨2 + 2 * (name :: names).length, s', ?_, ?_, hends⟩
    · have hwritten : (writtenGlobals (name :: names)).length =
          ((name :: names).flatMap writtenItem).length + 1 := rfl
      omega
    · rw [List.append_assoc, List.append_assoc]
      exact hkey.trans hreads

end Scan

/-- The tokens of the file of a configuration. -/
def configTokens (globals : List Text) (stem : Text) : List Token :=
  [.blockMapping, .key, .scalar Config.globalsKey true, .value] ++ Scan.globalsTokens globals ++
    [.key, .scalar Config.stemKey true, .value, .scalar stem (Style.fitsPlain stem), .blockEnd]

end Yaml

namespace Config

open Yaml Yaml.Scan

theorem isOrdinary_writtenScalar {t : Text} (ht : isAcceptedName t = true) :
    ∀ c ∈ writtenScalar t, Style.isOrdinary c = true := by
  have hall := isOrdinary_of_isAcceptedName ht
  have hquoted : ∀ c ∈ .scalar '\x27' :: t, Style.isOrdinary c = true :=
    List.forall_mem_cons.2 ⟨by decide, hall⟩
  rw [writtenScalar]
  split
  · exact hall
  · split
    · exact List.forall_mem_append.2 ⟨hquoted, by decide⟩
    · exact List.forall_mem_append.2 ⟨hquoted, by decide⟩

theorem isOrdinary_writtenGlobals {globals : List Text}
    (h : ∀ name ∈ globals, isAcceptedName name = true) :
    ∀ c ∈ writtenGlobals globals, Style.isOrdinary c = true := by
  rw [writtenGlobals]
  split
  · decide
  · refine List.forall_mem_cons.2 ⟨by decide, fun c hc => ?_⟩
    obtain ⟨name, hname, hc⟩ := List.mem_flatMap.1 hc
    have hscalar := isOrdinary_writtenScalar (h name hname)
    exact List.forall_mem_append.2 ⟨List.forall_mem_append.2 ⟨by decide, hscalar⟩, by decide⟩ c hc

/-- A file has printable characters and line feeds only. -/
theorem isOrdinary_toText {globals : List Text} {stem : Text}
    (hglobals : ∀ name ∈ globals, isAcceptedName name = true)
    (hstem : isAcceptedName stem = true) :
    ∀ c ∈ toText ⟨globals, .text stem⟩, Style.isOrdinary c = true := by
  have hitems := isOrdinary_writtenGlobals hglobals
  have hscalar := isOrdinary_writtenScalar hstem
  have hkey : ∀ c ∈ globalsKey ++ [.scalar ':'], Style.isOrdinary c = true := by decide
  have hstemKey : ∀ c ∈ stemKey, Style.isOrdinary c = true := by decide
  have hcolon : ∀ c ∈ [CodePoint.scalar ':'], Style.isOrdinary c = true := by decide
  have hblank : ∀ c ∈ [CodePoint.scalar ' '], Style.isOrdinary c = true := by decide
  have hfeed : ∀ c ∈ [CodePoint.scalar '\n'], Style.isOrdinary c = true := by decide
  rw [toText_eq hglobals hstem]
  simp only [List.forall_mem_append] at hkey ⊢
  exact ⟨⟨⟨⟨⟨⟨hkey, hitems⟩, hstemKey⟩, hcolon⟩, hblank⟩, hscalar⟩, hfeed⟩

theorem isAllowed_of_isOrdinary {c : CodePoint} (h : Style.isOrdinary c = true) :
    isAllowed c = true := by
  rw [Style.isOrdinary, Bool.or_eq_true, decide_eq_true_iff] at h
  rcases h with rfl | h
  · decide
  · simp only [isAllowed, h, Bool.true_or, Bool.or_true]

/-- **The tokens of the file of a configuration**: its names are scalars again. -/
theorem tokens_toText {globals : List Text} {stem : Text}
    (hglobals : ∀ name ∈ globals, isAcceptedName name = true)
    (hstem : isAcceptedName stem = true) :
    Yaml.tokens (toText ⟨globals, .text stem⟩) = (configTokens globals stem, none) := by
  have hallowed : (toText ⟨globals, .text stem⟩).all isAllowed = true := by
    rw [List.all_eq_true]
    exact fun c hc => isAllowed_of_isOrdinary (isOrdinary_toText hglobals hstem c hc)
  have htext : toText ⟨globals, .text stem⟩ =
      globalsKey ++ [.scalar ':'] ++ writtenGlobals globals ++
        (stemKey ++ .ofChars [':', ' '] ++ (writtenScalar stem ++ .scalar '\n' :: [])) := by
    rw [toText_eq hglobals hstem]
    simp [Text.ofChars]
  obtain ⟨n, s₁, hn, hreads₁, hends₁⟩ := reads_globals hglobals
    (w := stemKey ++ .ofChars [':', ' '] ++ (writtenScalar stem ++ .scalar '\n' :: [])) rfl
  obtain ⟨s₂, hreads₂, hmapping, hrest, hkeys, htokens⟩ := reads_stemKey hends₁
  obtain ⟨s₃, hnext, hends₃⟩ := next_writtenScalar hstem hmapping hrest rfl hkeys
  obtain ⟨s₄, hlast, htokens₄⟩ := hends₃.next_nil
  have hreads := hreads₁.trans (hreads₂.trans (.token hnext (.nothing s₃)))
  have hlength :
      ∃ fuel, (toText ⟨globals, .text stem⟩).length + 2 = fuel + 1 + (n + (2 + (0 + 1))) := by
    refine ⟨(toText ⟨globals, .text stem⟩).length + 1 - (n + (2 + 1)), ?_⟩
    rw [htext]
    simp only [List.length_append]
    have hstemLength : stemKey.length = 11 := rfl
    omega
  obtain ⟨fuel, hfuel⟩ := hlength
  have hhead : (toText ⟨globals, .text stem⟩).head? ≠ some '\ufeff' := by
    rw [htext]
    exact (by decide : some (CodePoint.scalar 'g') ≠ some '\ufeff')
  rw [Yaml.tokens, if_pos hallowed]
  simp only [if_neg hhead]
  rw [hfuel, htext, hreads.all, Scan.all, hlast]
  simp [htokens₄, htokens, configTokens]

end Config
end Elementwise
