import Elementwise.Proofs.NameSpelling
import Elementwise.Proofs.StringSpelling

/-!
# What stands in a text

A tree says which part of a text it covers, but not what is written there.  For symbols this is
known, since a symbol is read only where its spelling stands, and between two tokens there is
nothing but blanks, line terminators and comments.  From these two facts it follows how the
parentheses around an expression are written.

## What is here

* `Text.IsSeparator` — a text of blanks, line terminators and comments;
  `Separator.isSeparator_of_skip` says that what is skipped is one, and `Separator.ends_of_skip` how
  it ends in front of a token.
* `Text.Gap` — a separator, or nothing, between two offsets of a text.
* `Text.Encloses` — a part of a text in any number of parentheses.
* `TokenKind.Spells` — what the kind of a token says about the text in front of which it was read.
-/

set_option autoImplicit false
namespace Elementwise

/-! ## Separators -/

namespace Separator

variable {mode : Mode} {fresh : Bool} {p p' : Place} {t u v w : Text} {c : CodePoint}

/-- Whether a line terminator is the first half of a pair. -/
def BeginsPair (c : CodePoint) (t : Text) : Prop := c = '\r' ∧ t.head? = some '\n'

instance : Decidable (BeginsPair c t) := inferInstanceAs (Decidable (_ ∧ _))

theorem skip_between_cons (hc : c.isBlank ∨ c.isLineTerminator) :
    skip .between fresh p (c :: t) =
      if c.isBlank then skip .between fresh (p.step 1) t
      else skip .between true (if BeginsPair c t then p.step 1 else p.newLine 1) t := by
  have hne {d : Char} (hd : (d : CodePoint).isBlank = false ∧
      (d : CodePoint).isLineTerminator = false) : c ≠ d := by
    rintro rfl
    simp [hd] at hc
  have hslash : c ≠ '/' := hne (by decide)
  have hless : c ≠ '<' := hne (by decide)
  have hdash : c ≠ '-' := hne (by decide)
  rw [skip.eq_9] <;> grind [BeginsPair]

theorem skip_lineComment_cons : skip .lineComment fresh p (c :: t) =
    if c.isLineTerminator ∧ ¬BeginsPair c t then skip .between fresh (p.newLine 1) t
    else skip .lineComment fresh (p.step 1) t := by
  rw [skip.eq_10]
  grind [BeginsPair]

theorem skip_blockComment_cons (hc : ¬(c = '*' ∧ t.head? = some '/')) :
    skip .blockComment fresh p (c :: t) =
      skip .blockComment fresh
        (if c.isLineTerminator ∧ ¬BeginsPair c t then p.newLine 1 else p.step 1) t := by
  rw [skip.eq_11] <;> grind [BeginsPair]

/-- A parenthesis is no separator. -/
theorem skip_parenthesis (hc : c = '(' ∨ c = ')') (fresh : Bool) (p : Place) (t : Text) :
    skip .between fresh p (c :: t) = .ok (p, c :: t) := by
  rcases hc with rfl | rfl <;> rw [skip.eq_9] <;>
    simp [CodePoint.isBlank, CodePoint.isLineTerminator]

/-- What has been skipped is skipped also where nothing follows it. -/
theorem exists_skip_nil (h : skip mode fresh p w = .ok (p', v)) :
    ∃ u, w = u ++ v ∧ ∀ q, ∃ q', skip mode fresh q u = .ok (q', []) := by
  fun_induction skip mode fresh p w
  case case1 ih | case2 ih | case5 ih =>
    obtain ⟨u, rfl, hu⟩ := ih h
    exact ⟨_ :: _ :: u, rfl, fun q => by simpa [skip] using hu _⟩
  case case3 ih =>
    obtain ⟨u, rfl, hu⟩ := ih h
    exact ⟨_ :: _ :: _ :: _ :: u, rfl, fun q => by simpa [skip] using hu _⟩
  case case4 ih =>
    obtain ⟨u, rfl, hu⟩ := ih h
    exact ⟨_ :: _ :: _ :: u, rfl, fun q => by simpa [skip] using hu _⟩
  case case6 | case7 | case12 =>
    cases h
    exact ⟨[], rfl, fun q => ⟨q, rfl⟩⟩
  case case8 => cases h
  case case9 hc ih =>
    obtain ⟨u, rfl, hu⟩ := ih h
    refine ⟨_ :: u, rfl, fun q => ?_⟩
    rw [skip_between_cons (.inl hc), if_pos hc]
    exact hu _
  case case10 hblank hc _ ih | case11 hblank hc _ ih =>
    obtain ⟨u, rfl, hu⟩ := ih h
    refine ⟨_ :: u, rfl, fun q => ?_⟩
    rw [skip_between_cons (.inr hc), if_neg hblank]
    exact hu _
  -- the two halves of a pair may fall to different sides, but then the comment ends with the first
  case case13 c t hc hpair ih =>
    obtain ⟨u, rfl, hu⟩ := ih h
    refine ⟨c :: u, rfl, fun q => ?_⟩
    rw [skip_lineComment_cons]
    cases u with
    | nil => split <;> exact ⟨_, rfl⟩
    | cons d u =>
      rw [if_neg (by simp_all [BeginsPair])]
      exact hu _
  case case14 c t hc hpair ih =>
    obtain ⟨u, rfl, hu⟩ := ih h
    refine ⟨c :: u, rfl, fun q => ?_⟩
    have hpair' : ¬BeginsPair c u := by
      cases u <;> simp_all [BeginsPair]
    rw [skip_lineComment_cons, if_pos ⟨hc, hpair'⟩]
    exact hu _
  case case15 hc ih =>
    obtain ⟨u, rfl, hu⟩ := ih h
    refine ⟨_ :: u, rfl, fun q => ?_⟩
    rw [skip_lineComment_cons, if_neg fun h => hc h.1]
    exact hu _
  case case16 c t hend _ _ ih | case17 c t hend _ _ ih | case18 c t hend _ ih =>
    obtain ⟨u, rfl, hu⟩ := ih h
    refine ⟨c :: u, rfl, fun q => ?_⟩
    have hend' : ¬(c = '*' ∧ u.head? = some '/') := by
      rintro ⟨rfl, hhead⟩
      cases u with
      | nil => cases hhead
      | cons d u => exact hend (u ++ v) rfl (by simp_all)
    rw [skip_blockComment_cons hend']
    exact hu _

/-- Whether a separator never begins with a code point. -/
def Stops (c : CodePoint) : Prop := c ≠ '/' ∧ c ≠ '<' ∧ c ≠ '-'

/-- **What is skipped in front of a symbol is skipped alike**, whatever follows the symbol. -/
theorem skip_local {d : CodePoint} (hd : Stops d) (h : skip mode fresh p w = .ok (p', d :: v)) :
    ∃ g, w = g ++ d :: v ∧ ∀ u q, ∃ q', skip mode fresh q (g ++ d :: u) = .ok (q', d :: u) := by
  have hhead (g u : Text) : (g ++ d :: u).head? = (g ++ d :: v).head? := by cases g <;> rfl
  fun_induction skip mode fresh p w
  case case1 ih | case2 ih | case5 ih =>
    obtain ⟨g, rfl, hg⟩ := ih h
    exact ⟨_ :: _ :: g, rfl, fun u q => by simpa [skip] using hg u _⟩
  case case3 ih =>
    obtain ⟨g, rfl, hg⟩ := ih h
    exact ⟨_ :: _ :: _ :: _ :: g, rfl, fun u q => by simpa [skip] using hg u _⟩
  case case4 ih =>
    obtain ⟨g, rfl, hg⟩ := ih h
    exact ⟨_ :: _ :: _ :: g, rfl, fun u q => by simpa [skip] using hg u _⟩
  case case6 | case7 | case8 => cases h
  case case9 hblank ih =>
    obtain ⟨g, rfl, hg⟩ := ih h
    refine ⟨_ :: g, rfl, fun u q => ?_⟩
    rw [List.cons_append, skip_between_cons (.inl hblank), if_pos hblank]
    exact hg u _
  case case10 hblank hend _ ih | case11 hblank hend _ ih =>
    obtain ⟨g, rfl, hg⟩ := ih h
    refine ⟨_ :: g, rfl, fun u q => ?_⟩
    rw [List.cons_append, skip_between_cons (.inr hend), if_neg hblank]
    exact hg u _
  case case12 hblank hend =>
    cases h
    obtain ⟨hslash, hless, hdash⟩ := hd
    refine ⟨[], rfl, fun u q => ⟨q, ?_⟩⟩
    rw [List.nil_append, skip.eq_9] <;> simp_all
  -- whether a pair is begun is told by the first code point that follows
  case case13 c t hend hpair ih =>
    obtain ⟨g, rfl, hg⟩ := ih h
    refine ⟨c :: g, rfl, fun u q => ?_⟩
    have hbegins : BeginsPair c (g ++ d :: u) := by
      rw [BeginsPair, hhead]
      simpa using hpair
    rw [List.cons_append, skip_lineComment_cons, if_neg fun h => h.2 hbegins]
    exact hg u _
  case case14 c t hend hpair ih =>
    obtain ⟨g, rfl, hg⟩ := ih h
    refine ⟨c :: g, rfl, fun u q => ?_⟩
    have hbegins : ¬BeginsPair c (g ++ d :: u) := by
      rw [BeginsPair, hhead]
      simpa using hpair
    rw [List.cons_append, skip_lineComment_cons, if_pos ⟨hend, hbegins⟩]
    exact hg u _
  case case15 hend ih =>
    obtain ⟨g, rfl, hg⟩ := ih h
    refine ⟨_ :: g, rfl, fun u q => ?_⟩
    rw [List.cons_append, skip_lineComment_cons, if_neg fun h => hend h.1]
    exact hg u _
  case case16 c t hopen _ _ ih | case17 c t hopen _ _ ih | case18 c t hopen _ ih =>
    obtain ⟨g, rfl, hg⟩ := ih h
    refine ⟨c :: g, rfl, fun u q => ?_⟩
    have hopen' : ¬(c = '*' ∧ (g ++ d :: u).head? = some '/') := by
      rintro ⟨rfl, hslash⟩
      rw [hhead] at hslash
      obtain ⟨r, hr⟩ := List.head?_eq_some_iff.1 hslash
      exact hopen r rfl hr
    rw [List.cons_append, skip_blockComment_cons hopen']
    exact hg u _
/-- Whether a separator can end with a code point in front of a token. -/
def IsEnd (c : CodePoint) : Prop := c.isBlank = true ∨ c.isLineTerminator = true ∨ c = '/'

/-- In front of a token a comment has been closed, or its line has ended. -/
theorem ends_of_skip (h : skip mode fresh p u = .ok (p', v)) (hv : v ≠ []) :
    mode = .between ∧ u = v ∨ ∃ w c, u = w ++ c :: v ∧ IsEnd c := by
  have hcons {c : CodePoint} {u : Text} (h : ∃ w d, u = w ++ d :: v ∧ IsEnd d) :
      ∃ w d, c :: u = w ++ d :: v ∧ IsEnd d := by
    obtain ⟨w, d, rfl, hd⟩ := h
    exact ⟨c :: w, d, rfl, hd⟩
  fun_induction skip mode fresh p u
  case case5 t ih =>
    rcases ih h with ⟨-, rfl⟩ | h
    · exact .inr ⟨['*'], '/', rfl, .inr (.inr rfl)⟩
    · exact .inr (hcons (hcons h))
  case case9 c t _ _ _ _ hc ih | case10 c t _ _ _ _ _ hc _ ih | case11 c t _ _ _ _ _ hc _ ih
      | case14 c t hc _ ih =>
    rcases ih h with ⟨-, rfl⟩ | h
    · exact .inr ⟨[], c, rfl, by simp [IsEnd, hc]⟩
    · exact .inr (hcons h)
  all_goals grind

theorem isNamePart_of_isEnd (h : IsEnd c) : c.isNamePart = false := by
  rcases h with h | h | rfl
  · exact CodePoint.isNamePart_of_isBlank h
  · exact CodePoint.isNamePart_of_isLineTerminator h
  · decide

/-- Nothing that is skipped begins with what belongs to a name. -/
theorem isNamePart_of_skip (h : skip .between fresh p (c :: u) = .ok (p', v)) (hv : v ≠ c :: u) :
    c.isNamePart = false := by
  refine Bool.eq_false_iff.2 fun hpart => ?_
  have hne {d : CodePoint} (hd : d.isNamePart = false) : c ≠ d := by
    rintro rfl
    rw [hd] at hpart
    cases hpart
  have hblank : c.isBlank = false := Bool.eq_false_iff.2 fun hblank =>
    Bool.eq_false_iff.1 (CodePoint.isNamePart_of_isBlank hblank) hpart
  have hend : c.isLineTerminator = false := Bool.eq_false_iff.2 fun hend =>
    Bool.eq_false_iff.1 (CodePoint.isNamePart_of_isLineTerminator hend) hpart
  have hslash : c ≠ '/' := hne (by decide)
  have hless : c ≠ '<' := hne (by decide)
  have hdash : c ≠ '-' := hne (by decide)
  rw [skip.eq_9] at h <;> grind

/-- Whoever has skipped nothing still stands where he stood. -/
theorem eq_of_skip (h : skip mode fresh p u = .ok (p', v)) (hindex : p'.index = p.index) :
    p' = p := by
  fun_induction skip mode fresh p u
  case case6 | case7 | case12 =>
    cases h
    rfl
  case case8 => cases h
  all_goals
    have := (reaches_skip h).le
    simp only [Place.step, Place.newLine] at this
    omega

end Separator

/-- A text of blanks, line terminators and comments, behind a token. -/
def Text.IsSeparator (u : Text) : Prop :=
  ∃ p p', Separator.skip .between false p u = .ok (p', [])

theorem Separator.isSeparator_of_skip {p p' : Place} {t t' : Text}
    (h : skip .between false p t = .ok (p', t')) : ∃ u, t = u ++ t' ∧ u.IsSeparator := by
  obtain ⟨u, hu, hskip⟩ := exists_skip_nil h
  obtain ⟨p'', hp⟩ := hskip p
  exact ⟨u, hu, p, p'', hp⟩

namespace Text

variable {t : Text} {i j k : Nat} {s : Span} {c : CodePoint}

theorem IsSeparator.nil : IsSeparator [] := ⟨default, default, rfl⟩

/-! ## Parts of a text -/

theorem slice_append_drop (t : Text) (hij : i ≤ j) : t.slice ⟨i, j⟩ ++ t.drop j = t.drop i := by
  rw [slice, List.drop_take, ← Nat.add_sub_cancel' hij, ← List.drop_drop,
    Nat.add_sub_cancel_left, List.take_append_drop]

theorem slice_append (t : Text) (hij : i ≤ j) (hjk : j ≤ k) :
    t.slice ⟨i, j⟩ ++ t.slice ⟨j, k⟩ = t.slice ⟨i, k⟩ :=
  have h : t.slice ⟨i, j⟩ ++ t.slice ⟨j, k⟩ ++ t.drop k = t.slice ⟨i, k⟩ ++ t.drop k := by
    rw [List.append_assoc, slice_append_drop t hjk, slice_append_drop t hij,
      slice_append_drop t (Nat.le_trans hij hjk)]
  List.append_cancel_right h

theorem slice_of_getElem? (h : t[i]? = some c) : t.slice ⟨i, i + 1⟩ = [c] := by
  obtain ⟨hi, rfl⟩ := List.getElem?_eq_some_iff.1 h
  have h : t.slice ⟨i, i + 1⟩ ++ t.drop (i + 1) = [t[i]] ++ t.drop (i + 1) := by
    rw [slice_append_drop t (Nat.le_succ i), List.drop_eq_getElem_cons hi]
    rfl
  exact List.append_cancel_right h

/-! ## Gaps and symbols -/

/-- Nothing but a separator stands between two offsets of a text. -/
def Gap (t : Text) (i j : Nat) : Prop :=
  i < j → ∃ p p', Separator.skip .between (i = 0) p (t.drop i) = .ok (p', t.drop j)

theorem Gap.of_le (h : j ≤ i) : Gap t i j := fun hij => (Nat.not_lt.2 h hij).elim

theorem Gap.isSeparator (h : Gap t i j) (hi : 0 < i) (hij : i ≤ j) :
    (t.slice ⟨i, j⟩).IsSeparator := by
  rcases Nat.eq_or_lt_of_le hij with rfl | hlt
  · have : t.slice ⟨i, i⟩ = [] := List.append_cancel_right (slice_append_drop t (Nat.le_refl i))
    rw [this]
    exact .nil
  · obtain ⟨p, p', hskip⟩ := h hlt
    rw [decide_eq_false (by omega)] at hskip
    obtain ⟨u, hu, hseparator⟩ := Separator.isSeparator_of_skip hskip
    rw [← slice_append_drop t hij] at hu
    rwa [List.append_cancel_right hu]

/-- There is no separator where a parenthesis stands. -/
theorem Gap.eq_of_parenthesis (h : Gap t i j) (hij : i ≤ j) (hj : j ≤ t.length)
    (hc : t[i]? = some '(' ∨ t[i]? = some ')') : i = j := by
  rcases Nat.eq_or_lt_of_le hij with rfl | hlt
  · rfl
  · obtain ⟨p, p', hskip⟩ := h hlt
    obtain ⟨c, hi, hc⟩ : ∃ c, t[i]? = some c ∧ (c = '(' ∨ c = ')') :=
      hc.elim (fun h => ⟨_, h, .inl rfl⟩) fun h => ⟨_, h, .inr rfl⟩
    obtain ⟨hlength, rfl⟩ := List.getElem?_eq_some_iff.1 hi
    rw [List.drop_eq_getElem_cons hlength, Separator.skip_parenthesis hc,
      ← List.drop_eq_getElem_cons hlength] at hskip
    have := congrArg List.length (Prod.mk.inj (Except.ok.inj hskip)).2
    rw [List.length_drop, List.length_drop] at this
    omega

/-- There is no separator in front of a token that follows the end of another one. -/
theorem Gap.eq_of_not_isEnd (h : Gap t i (j + 1)) (hij : i ≤ j + 1) (hj : j + 1 < t.length)
    (hc : t[j]? = some c) (hend : ¬Separator.IsEnd c) : i = j + 1 := by
  rcases Nat.eq_or_lt_of_le hij with rfl | hlt
  · rfl
  · obtain ⟨p, p', hskip⟩ := h hlt
    have hne : t.drop (j + 1) ≠ [] := by simpa using hj
    rcases Separator.ends_of_skip hskip hne with ⟨-, heq⟩ | ⟨w, d, hw, hd⟩
    · have := congrArg List.length heq
      rw [List.length_drop, List.length_drop] at this
      omega
    · have hlength := congrArg List.length hw
      rw [List.length_append, List.length_cons, List.length_drop, List.length_drop] at hlength
      have hj : t[j]? = some d := by
        rw [show j = i + w.length by omega, ← List.getElem?_drop, hw,
          List.getElem?_append_right (Nat.le_refl _), Nat.sub_self]
        rfl
      obtain rfl : d = c := by simpa [hj] using hc
      exact (hend hd).elim

/-- Behind an offset, with nothing but a separator in front of it, stands a symbol of one
character, which ends at the second offset. -/
def Symbol (t : Text) (c : CodePoint) (i j : Nat) : Prop :=
  ∃ m, i ≤ m ∧ t.Gap i m ∧ t[m]? = some c ∧ j = m + 1

/-- From one offset to another there is nothing but a separator, or a semicolon between two of
them. -/
def Ends (t : Text) (i j : Nat) : Prop :=
  i ≤ j ∧ t.Gap i j ∨ ∃ k ≤ j, t.Symbol ';' i k ∧ t.Gap k j

/-! ## Names -/

/-- What stands at an offset, if anything does, belongs to no name. -/
def NoName (t : Text) (i : Nat) : Prop := ∀ c ∈ t[i]?, c.isNamePart = false

/-- A name starts at an offset. -/
def StartsName (t : Text) (i : Nat) : Prop := ∃ c ∈ t[i]?, c.isNameStart = true

/-- A name that starts at an offset is not the rest of a longer one. -/
def Parted (t : Text) (i : Nat) : Prop := t.StartsName i → ∀ j, j + 1 = i → t.NoName j

/-- A string starts at an offset. -/
def StartsString (t : Text) (i : Nat) : Prop := ∃ c ∈ t[i]?, c.IsQuote

/-- Neither a name nor a string starts at an offset, but something else. -/
structure StartsElse (t : Text) (i : Nat) : Prop where
  inside : i < t.length
  name : ¬t.StartsName i
  string : ¬t.StartsString i

/-- A part of a text is a string of a given value and spelling. -/
def Quotes (t : Text) (s : Span) (value spelling : Text) : Prop :=
  StringLiteral.Begins value spelling (t.drop s.start) (t.drop s.stop)

theorem Quotes.startsString {value spelling : Text} (h : t.Quotes s value spelling) :
    t.StartsString s.start := by
  obtain ⟨quote, u, octal, p, p', hquote, hdrop, -⟩ := h
  refine ⟨quote, ?_, hquote⟩
  rw [Option.mem_def, ← List.head?_drop, hdrop]
  rfl

/-- Only one string stands at an offset. -/
theorem Quotes.unique {s s' : Span} {value value' spelling spelling' : Text}
    (h : t.Quotes s value spelling) (h' : t.Quotes s' value' spelling')
    (hstart : s.start = s'.start) :
    value = value' ∧ spelling = spelling' := by
  rw [Quotes, hstart] at h
  exact h.unique h'

/-- Neither in front of a part of a text nor behind it stands what belongs to a name. -/
structure StandsAlone (t : Text) (s : Span) : Prop where
  front : ∀ i, i + 1 = s.start → t.NoName i
  behind : t.NoName s.stop

theorem NoName.not_startsName (h : t.NoName i) : ¬t.StartsName i := fun ⟨c, hc, hstart⟩ =>
  Bool.eq_false_iff.1 (h c hc) (CodePoint.isNamePart_of_isNameStart hstart)

theorem noName_of_head?_drop (h : ∀ c ∈ (t.drop i).head?, c.isNamePart = false) : t.NoName i := by
  rwa [List.head?_drop] at h

theorem startsName_iff : t.StartsName i ↔ ∃ c ∈ (t.drop i).head?, c.isNameStart = true := by
  rw [List.head?_drop]
  rfl

/-- What stands in front of the rest of a text. -/
theorem getElem?_of_cons_drop_suffix (h : c :: t.drop (i + 1) <:+ t) (hi : i + 1 ≤ t.length) :
    t[i]? = some c := by
  obtain ⟨u, hu⟩ := h
  have hlength := congrArg List.length hu
  rw [List.length_append, List.length_cons, List.length_drop] at hlength
  obtain rfl : u.length = i := by omega
  rw [← hu, List.getElem?_append_right (Nat.le_refl _), Nat.sub_self]
  rfl

/-- In front of a token that follows a separator stands what belongs to no name. -/
theorem Gap.noName (h : Gap t i (j + 1)) (hij : i < j + 1) (hj : j + 1 < t.length) :
    t.NoName j := by
  intro c hc
  refine Bool.eq_false_iff.2 fun hpart => ?_
  have hend : ¬Separator.IsEnd c := fun hend =>
    Bool.eq_false_iff.1 (Separator.isNamePart_of_isEnd hend) hpart
  have := h.eq_of_not_isEnd (Nat.le_of_lt hij) hj hc hend
  omega

/-- Where a separator begins stands what belongs to no name. -/
theorem Gap.noName_start (h : Gap t i j) (hij : i < j) (hj : j ≤ t.length) : t.NoName i := by
  intro c hc
  obtain ⟨p, p', hskip⟩ := h hij
  obtain ⟨hi, rfl⟩ := List.getElem?_eq_some_iff.1 hc
  rw [List.drop_eq_getElem_cons hi] at hskip
  refine Separator.isNamePart_of_skip hskip fun heq => ?_
  have := congrArg List.length heq
  rw [List.length_cons, List.length_drop, List.length_drop] at this
  omega

/-! ## Parentheses -/

/-- A part of a text, in any number of parentheses, stands between two offsets. -/
inductive Encloses (t : Text) (s : Span) : Nat → Nat → Prop where
  | self (h : s.start ≤ s.stop) : t.Encloses s s.start s.stop
  | parentheses {i j k l : Nat} (hopen : t[i]? = some (.scalar '(')) (hgap : t.Gap (i + 1) j)
      (hlt : i < j) (inner : t.Encloses s j k) (hclose : t.Symbol ')' k l) : t.Encloses s i l

/-- A text is another one in any number of parentheses. -/
inductive InParentheses (e : Text) : Text → Prop where
  | self : e.InParentheses e
  | parentheses {a u b : Text} (ha : a.IsSeparator) (inner : e.InParentheses u)
      (hb : b.IsSeparator) : e.InParentheses ('(' :: (a ++ u ++ b ++ [.scalar ')']))

/-- One offset is in front of another one, or they are the same and no parenthesis opens there. -/
def Clears (t : Text) (i j : Nat) : Prop := i ≤ j ∧ (i = j → t[j]? ≠ some (.scalar '('))

/-- A word or a parenthesis stands at an offset, as where `this` is written. -/
def StartsOwner (t : Text) (i : Nat) : Prop := t.StartsName i ∨ t[i]? = some (.scalar '(')

theorem Clears.of_lt (h : i < j) : t.Clears i j :=
  ⟨Nat.le_of_lt h, fun heq => (Nat.ne_of_lt h heq).elim⟩

theorem Clears.refl (h : t[i]? ≠ some (.scalar '(')) : t.Clears i i := ⟨Nat.le_refl i, fun _ => h⟩

theorem Clears.mono {l : Nat} (h : t.Clears j k) (hi : i ≤ j) (hl : k ≤ l) : t.Clears i l := by
  refine ⟨by have := h.1; omega, fun heq => ?_⟩
  obtain rfl : j = k := by have := h.1; omega
  obtain rfl : l = j := by omega
  exact h.2 rfl

theorem Symbol.lt (h : t.Symbol c i j) : i < j := by
  obtain ⟨m, him, -, -, rfl⟩ := h
  omega

theorem Symbol.slice (h : t.Symbol c i j) (hi : 0 < i) :
    ∃ a, IsSeparator a ∧ t.slice ⟨i, j⟩ = a ++ [c] := by
  obtain ⟨m, him, hgap, hm, rfl⟩ := h
  refine ⟨_, hgap.isSeparator hi him, ?_⟩
  rw [← slice_of_getElem? hm, slice_append t him (Nat.le_succ m)]

theorem Encloses.le (h : t.Encloses s i j) : i ≤ s.start ∧ s.start ≤ s.stop ∧ s.stop ≤ j := by
  induction h with
  | self h => exact ⟨Nat.le_refl _, h, Nat.le_refl _⟩
  | parentheses _ _ hlt _ hclose ih =>
    have := hclose.lt
    omega

theorem Encloses.inParentheses (h : t.Encloses s i j) :
    (t.slice s).InParentheses (t.slice ⟨i, j⟩) := by
  induction h with
  | self => exact .self
  | @parentheses i j k l hopen hgap hlt hinner hclose ih =>
    have hjk := hinner.le
    have hkl := hclose.lt
    obtain ⟨b, hb, hslice⟩ := hclose.slice (by omega)
    rw [← slice_append t (Nat.le_succ i) (by omega : i + 1 ≤ l), slice_of_getElem? hopen,
      ← slice_append t hlt (by omega : j ≤ l),
      ← slice_append t (by omega : j ≤ k) (Nat.le_of_lt hkl), hslice]
    simpa using InParentheses.parentheses (hgap.isSeparator (by omega) hlt) ih hb

end Text

/-! ## Tokens -/

namespace TokenKind

/-- Whether a token is neither a symbol nor the end of the text. -/
def IsLexeme : TokenKind → Prop
  | .endOfText | .punctuator _ => False
  | _ => True

/-- Whether a token is written as a name. -/
def IsWord : TokenKind → Prop
  | .identifier _ | .keyword _ | .null | .boolean _ => True
  | _ => False

theorem IsWord.ne_endOfText {kind : TokenKind} (h : kind.IsWord) : kind ≠ .endOfText := by
  rintro rfl
  exact h

/-- The word that a token is. -/
def word? : TokenKind → Option Text
  | .identifier name => some name
  | .keyword word => some word.text
  | .null => some Word.null
  | .boolean true => some Word.true
  | .boolean false => some Word.false
  | _ => none

theorem word?_eq_none {kind : TokenKind} (h : ¬kind.IsWord) : kind.word? = none := by
  cases kind <;> first | rfl | exact (h trivial).elim

theorem IsWord.word?_eq {a : Token} (h : a.kind.IsWord) : a.kind.word? = some a.text := by
  obtain ⟨kind, span, line⟩ := a
  cases kind
  case boolean value => cases value <;> rfl
  all_goals first | rfl | exact h.elim

end TokenKind

variable {p p' : Place} {t t' : Text} {kind : TokenKind}

theorem Name.classify_isWord (name : Text) : (classify name).IsWord := by
  unfold classify
  grind [TokenKind.IsWord]

theorem Name.token_isWord (h : token p t = .ok (kind, p', t')) : kind.IsWord := by
  unfold token at h
  grind [TokenKind.IsWord, classify_isWord]

theorem Name.word?_classify (name : Text) : (classify name).word? = some name := by
  unfold classify
  split
  · next h => rw [h, TokenKind.word?]
  split
  · next h => rw [h, TokenKind.word?]
  split
  · next h => rw [h, TokenKind.word?]
  split
  · next k hk =>
    have htext : k.text = name := by simpa using List.find?_some hk
    split
    · rfl
    · rw [TokenKind.word?, htext]
  · rfl

/-- A token that is a word is a name with which the text begins. -/
theorem Name.begins_token {c : CodePoint} (hc : c.isNameStart = true)
    (h : token p (c :: t) = .ok (kind, p', t')) : ∀ w ∈ kind.word?, Begins w (c :: t) t' := by
  unfold token at h
  split at h
  · cases h
  · next name q u hread =>
    have hbegins : Begins name (c :: t) u := ⟨⟨c, rfl, hc⟩, p, q, hread⟩
    have hword := word?_classify name
    split at h
    · next hkind =>
      cases h
      rw [hkind] at hword
      rintro w ⟨⟩
      exact hbegins
    · split at h
      · cases h
        rw [hword]
        rintro w ⟨⟩
        exact hbegins
      · cases h

theorem StringLiteral.token_eq {quote : CodePoint} (h : token quote p t = .ok (kind, p', t')) :
    ∃ value raw octal, kind = .string value raw octal := by
  unfold token at h
  grind

theorem Template.token_eq {head : Bool} (h : token head p t = .ok (kind, p', t')) :
    ∃ raw cooked tail, kind = .template raw cooked head tail := by
  unfold token at h
  grind

theorem Number.token_eq (h : token p t = .ok (kind, p', t')) :
    ∃ value octal, kind = .number value octal := by
  unfold token at h
  split at h <;> grind [inBase, decimal]

/-- What the kind of a token says about the text in front of which it was read and the text behind
it.  Nothing is said of how a slash is written, because it may be the first one of a regular
expression. -/
structure TokenKind.Spells (kind : TokenKind) (t t' : Text) : Prop where
  ending : kind = .endOfText → t = []
  symbol : ∀ q, kind = .punctuator q → q ≠ .operator .divide → t = q.text ++ t'
  opening : t.head? = some '(' → kind = .punctuator .leftParen
  /-- A closing brace may end a substitution. -/
  closing : t.head? = some '}' → kind = .punctuator .rightBrace ∨
    ∃ raw cooked isHead isTail, kind = .template raw cooked isHead isTail
  progress : t ≠ [] → t'.length < t.length
  word : kind.IsWord ↔ ∃ c ∈ t.head?, c.isNameStart = true
  /-- A word is as long as it can be. -/
  ends : (∃ c ∈ t.head?, c.isNameStart = true) → ∀ c ∈ t'.head?, c.isNamePart = false
  /-- What starts a name behind a token does not go on with one. -/
  parted : ∀ d ∈ t'.head?, d.isNameStart = true → ∃ c, c :: t' <:+ t ∧ c.isNamePart = false
  string : ∀ value spelling octal, kind = .string value spelling octal →
    StringLiteral.Begins value spelling t t'
  quote : (∃ c ∈ t.head?, c.IsQuote) → ∃ value spelling octal, kind = .string value spelling octal
  named : ∀ w ∈ kind.word?, Name.Begins w t t'

theorem TokenKind.Spells.of_word {c : CodePoint} (hkind : kind.IsWord) (hc : c.isNameStart = true)
    (hsuffix : t' <:+ c :: t) (hends : ∀ d ∈ t'.head?, d.isNamePart = false)
    (hnamed : ∀ w ∈ kind.word?, Name.Begins w (c :: t) t') : kind.Spells (c :: t) t' := by
  have hparen : CodePoint.isNameStart '(' = false := by decide
  have hbrace : CodePoint.isNameStart '}' = false := by decide
  refine ⟨?_, ?_, ?_, ?_, fun _ => ?_, ⟨fun _ => ⟨c, rfl, hc⟩, fun _ => hkind⟩, fun _ => hends,
    fun d hd hstart => ?_, ?_, ?_, hnamed⟩
  · rintro rfl
    exact hkind.elim
  · rintro q rfl
    exact hkind.elim
  · rintro ⟨⟩
    rw [hparen] at hc
    cases hc
  · rintro ⟨⟩
    rw [hbrace] at hc
    cases hc
  · rcases List.suffix_cons_iff.1 hsuffix with rfl | hsuffix
    · have := hends c rfl
      rw [CodePoint.isNamePart_of_isNameStart hc] at this
      cases this
    · exact Nat.lt_succ_of_le hsuffix.length_le
  · have := hends d hd
    rw [CodePoint.isNamePart_of_isNameStart hstart] at this
    cases this
  · rintro _ _ _ rfl
    exact hkind.elim
  · rintro ⟨_, ⟨⟩, hquote⟩
    rw [hquote.isNameStart] at hc
    cases hc

/-- A token that is neither a word nor a symbol. -/
theorem TokenKind.Spells.of_literal {c : CodePoint} (hlexeme : kind.IsLexeme) (hword : ¬kind.IsWord)
    (hc : c.isNameStart = false) (hopening : c ≠ '(')
    (hclosing : c = '}' → ∃ raw cooked isHead isTail, kind = .template raw cooked isHead isTail)
    (hsuffix : t' <:+ t)
    (hparted : ∀ d ∈ t'.head?, d.isNameStart = true → ∃ d, d :: t' <:+ t ∧ d.isNamePart = false)
    (hstring : ∀ value spelling octal, kind = .string value spelling octal →
      StringLiteral.Begins value spelling (c :: t) t')
    (hquote : c.IsQuote → ∃ value spelling octal, kind = .string value spelling octal) :
    kind.Spells (c :: t) t' := by
  have hstarts : ¬∃ d ∈ (c :: t).head?, d.isNameStart = true := by simp [hc]
  refine ⟨?_, ?_, ?_, ?_, fun _ => Nat.lt_succ_of_le hsuffix.length_le, iff_of_false hword hstarts,
    fun h => (hstarts h).elim, fun d hd hstart => ?_, hstring, ?_, by simp [word?_eq_none hword]⟩
  · rintro rfl
    exact hlexeme.elim
  · rintro q rfl
    exact hlexeme.elim
  · rintro ⟨⟩
    exact (hopening rfl).elim
  · rintro ⟨⟩
    exact .inr (hclosing rfl)
  · obtain ⟨e, he, hpart⟩ := hparted d hd hstart
    exact ⟨e, he.trans (List.suffix_cons c t), hpart⟩
  · rintro ⟨_, ⟨⟩, hc⟩
    exact hquote hc

theorem Punctuator.eq_text_append_drop {q : Punctuator} (h : longest? t = some q) :
    t = q.text ++ t.drop q.spelling.length := by
  rw [longest?] at h
  have hprefix : q.text <+: t := List.isPrefixOf_iff_prefix.1 (by simpa using List.find?_some h)
  simpa [text, Text.ofChars] using (List.prefix_iff_eq_append.1 hprefix).symm

/-- A symbol ends with what belongs to no name. -/
theorem Punctuator.parted {q : Punctuator} (h : longest? t = some q) :
    ∃ c, c :: t.drop q.spelling.length <:+ t ∧ c.isNamePart = false := by
  obtain ⟨hne, hpart⟩ := isNamePart_of_mem_text h
  refine ⟨q.text.getLast hne, ⟨q.text.dropLast, ?_⟩, hpart _ (List.getLast_mem hne)⟩
  rw [List.append_cons, List.dropLast_concat_getLast hne]
  exact (eq_text_append_drop h).symm

/-- A slash may stand for all of a regular expression. -/
theorem Regex.spells_read {body marks : Text} (h : read p (t.drop 1) = .ok (body, marks, p', t'))
    (hopening : t.head? ≠ some '(') (hclosing : t.head? ≠ some '}')
    (hname : ¬∃ c ∈ t.head?, c.isNameStart = true) (hquote : ¬∃ c ∈ t.head?, c.IsQuote) :
    (TokenKind.punctuator (.operator .divide)).Spells t t' := by
  refine ⟨nofun, ?_, fun hhead => (hopening hhead).elim, fun hhead => (hclosing hhead).elim,
    fun hne => ?_, iff_of_false id hname,
    fun hstarts => (hname hstarts).elim, fun c hc hstart => ?_, nofun,
    fun h => (hquote h).elim, nofun⟩
  · rintro _ ⟨⟩ hdivide
    exact (hdivide rfl).elim
  · have hle := (reaches_read h).suffix.length_le
    have hpos := List.length_pos_iff.2 hne
    rw [List.length_drop] at hle
    omega
  · have hends := ends_read h c hc
    rw [CodePoint.isNamePart_of_isNameStart hstart] at hends
    cases hends

namespace Regex

theorem line_of_pattern {inClass : Bool} {done body : Text}
    (h : pattern inClass done p t = .ok (body, p', t')) : p'.line = p.line := by
  fun_induction pattern inClass done p t
  all_goals grind [Place.step]

theorem line_of_flags {done marks : Text} (h : flags done p t = .ok (marks, p', t')) :
    p'.line = p.line := by
  fun_induction flags done p t
  all_goals grind [Place.step]

/-- A regular expression lies on one line. -/
theorem line_of_read {body marks : Text} (h : read p t = .ok (body, marks, p', t')) :
    p'.line = p.line := by
  unfold read at h
  split at h
  · cases h
  · next hpattern =>
    split at h
    · cases h
    · next hflags =>
      split at h <;> cases h
      rw [line_of_flags hflags, line_of_pattern hpattern]
      rfl

end Regex

namespace Reader

/-- A symbol lies on one line. -/
theorem line_of_kind {r : Reader} {q : Punctuator} (h : r.kind = .ok (.punctuator q, p', t')) :
    p'.line = r.place.line := by
  unfold Reader.kind at h
  split at h
  · cases h
  split at h
  · exact (Name.token_isWord h).elim
  split at h
  · obtain ⟨_, _, _, heq⟩ := StringLiteral.token_eq h
    cases heq
  split at h
  · obtain ⟨_, _, heq⟩ := Number.token_eq h
    cases heq
  split at h
  · obtain ⟨_, _, _, heq⟩ := Template.token_eq h
    cases heq
  split at h
  · obtain ⟨_, _, _, heq⟩ := Template.token_eq h
    cases heq
  split at h <;> cases h
  rfl

/-- A token is on the line on which it ends. -/
theorem line_token {r r' : Reader} {a : Token} (h : r.token = .ok (a, r')) :
    a.line = r'.place.line ∧ ∀ q, a.kind = .punctuator q → r'.place.line = r.place.line := by
  unfold token at h
  split at h
  case h_1 hkind =>
    cases h
    refine ⟨rfl, ?_⟩
    rintro q rfl
    exact line_of_kind hkind
  case h_2 => cases h

/-- A reader that skips nothing stays on its line. -/
theorem line_skipSeparators {r r' : Reader} (h : r.skipSeparators = .ok r')
    (hindex : r'.place.index = r.place.index) : r'.place.line = r.place.line := by
  unfold skipSeparators at h
  split at h
  case h_1 hskip =>
    cases h
    exact congrArg Place.line (Separator.eq_of_skip hskip hindex)
  case h_2 => cases h

/-- A token is the end of the text, or written as its kind says. -/
theorem spells_kind {r : Reader} (h : r.kind = .ok (kind, p', t')) : kind.Spells r.rest t' := by
  have hreach := reaches_kind h
  unfold Reader.kind at h
  split at h
  case h_1 hrest =>
    cases h
    rw [hrest]
    exact ⟨fun _ => rfl, nofun, nofun, nofun, fun h => (h rfl).elim, ⟨False.elim, nofun⟩,
      nofun, nofun, nofun, nofun, nofun⟩
  case h_2 c t hrest =>
    rw [hrest] at hreach ⊢
    have hdigit : CodePoint.isDigit '(' = false ∧ CodePoint.isDigit '}' = false := by decide
    split at h
    · next hc =>
      exact .of_word (Name.token_isWord h) hc hreach.suffix (Name.ends_token h)
        (Name.begins_token hc h)
    next hc =>
    rw [Bool.not_eq_true] at hc
    split at h
    · next hquote =>
      have hends := StringLiteral.ends_token h
      obtain ⟨value, raw, octal, rfl⟩ := StringLiteral.token_eq h
      have hquote : c.IsQuote := by simpa [CodePoint.IsQuote] using hquote
      refine .of_literal trivial id hc (by rintro rfl; simp_all) (by rintro rfl; simp_all)
        ((List.suffix_cons c t').trans hends) (fun _ _ _ => ⟨c, hends, ?_⟩) ?_
        fun _ => ⟨_, _, _, rfl⟩
      · rcases hquote with rfl | rfl <;> decide
      · rintro _ _ _ ⟨⟩
        exact ⟨c, t, octal, _, _, hquote, rfl, h⟩
    next hquote =>
    have hquote : ¬c.IsQuote := by simpa [CodePoint.IsQuote] using hquote
    split at h
    · next hstart =>
      have hends := Number.ends_token h
      simp only [Bool.or_eq_true, Bool.and_eq_true, decide_eq_true_eq] at hstart
      have hsuffix := Number.suffix_token h (hstart.imp_right And.left)
      obtain ⟨value, octal, rfl⟩ := Number.token_eq h
      refine .of_literal trivial id hc (by rintro rfl; simp_all)
        (by rintro rfl; simp_all) hsuffix (fun d hd hstart => ?_) nofun
        fun h => (hquote h).elim
      rw [hends d hd] at hstart
      cases hstart
    split at h
    · obtain ⟨d, hd, hpart⟩ := Template.ends_token h
      obtain ⟨raw, cooked, tail, rfl⟩ := Template.token_eq h
      exact .of_literal trivial id hc (by rintro rfl; simp_all [Template.quote])
        (fun _ => ⟨_, _, _, _, rfl⟩)
        ((List.suffix_cons d t').trans hd) (fun _ _ _ => ⟨d, hd, hpart⟩) nofun
        fun h => (hquote h).elim
    split at h
    · obtain ⟨d, hd, hpart⟩ := Template.ends_token h
      obtain ⟨raw, cooked, tail, rfl⟩ := Template.token_eq h
      exact .of_literal trivial id hc (by rintro rfl; simp_all) (fun _ => ⟨_, _, _, _, rfl⟩)
        ((List.suffix_cons d t').trans hd) (fun _ _ _ => ⟨d, hd, hpart⟩) nofun
        fun h => (hquote h).elim
    split at h
    · next q hq =>
      cases h
      obtain ⟨d, hd, hpart⟩ := Punctuator.parted hq
      have hstarts : ¬∃ e ∈ (c :: t).head?, e.isNameStart = true := by simp [hc]
      refine ⟨nofun, ?_, fun hhead => ?_, fun hhead => .inl ?_, fun _ => ?_,
        iff_of_false id hstarts,
        fun h => (hstarts h).elim, fun _ _ _ => ⟨d, hd, hpart⟩, nofun, ?_, nofun⟩
      · rintro _ ⟨⟩ -
        exact Punctuator.eq_text_append_drop hq
      · obtain rfl : c = '(' := by simpa using hhead
        have hparen : Punctuator.longest? ('(' :: t) = some .leftParen := rfl
        rw [hparen] at hq
        cases hq
        rfl
      · obtain rfl : c = '}' := by simpa using hhead
        have hbrace : Punctuator.longest? ('}' :: t) = some .rightBrace := rfl
        rw [hbrace] at hq
        cases hq
        rfl
      · exact Nat.lt_of_succ_le hd.length_le
      · rintro ⟨_, ⟨⟩, hc⟩
        exact (hquote hc).elim
    · cases h

theorem spells_token {r r' : Reader} {a : Token} (h : r.token = .ok (a, r')) :
    a.kind.Spells r.rest r'.rest := by
  unfold token at h
  split at h
  case h_1 hkind =>
    cases h
    exact spells_kind hkind
  case h_2 => cases h

/-- A reader of a text leaves a gap behind where it stood. -/
theorem gap_skipSeparators {r r' : Reader} (hr : (Place.beginning t).Reaches t r.place r.rest)
    (h : r.skipSeparators = .ok r') : t.Gap r.place.index r'.place.index := by
  intro _
  rw [hr.drop_index, (hr.trans (reaches_skipSeparators h)).drop_index]
  unfold skipSeparators at h
  split at h
  case h_1 hskip =>
    cases h
    exact ⟨_, _, hskip⟩
  case h_2 => cases h

end Reader
end Elementwise
