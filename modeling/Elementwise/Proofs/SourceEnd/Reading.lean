import Elementwise.Proofs.SourceEnd.Literal
import Mathlib.Data.List.Find

/-!
# Reading in front of the end of a source

Tokens and what separates them are read alike in front of either ending as long as they lie in the
source.  Then the parenthesis behind the source is read, or nothing if a comment has taken it in.

## What is here

* `Separator.goesOn` — what separates tokens ends in the source, or goes on behind it.
* `Separator.skip_exchanges`, `Reader.kind_exchanges`, `Reader.peek_exchanges` — the two texts
  compared.
-/

set_option autoImplicit false
namespace Elementwise

open Anchor

variable {e : Trailing} {p p' : Place} {t t' u : Text}

/-! ## Symbols -/

namespace Punctuator

theorem isPrefixOf_exchanges {a : Text} (ha : ∀ c ∈ a, ¬c.IsOuter) (ht : e.Exchanges t t') :
    a.isPrefixOf t' = a.isPrefixOf t ∧
      (a.isPrefixOf t = true → e.Exchanges (t.drop a.length) (t'.drop a.length)) := by
  induction a generalizing t t' with
  | nil => exact ⟨rfl, fun _ => ht⟩
  | cons b a ih =>
    obtain ⟨hb, ha⟩ := List.forall_mem_cons.1 ha
    obtain ⟨c, t, rfl⟩ := ht.exists_eq_cons
    rcases ht.cons_cases with ⟨s, rfl, hs⟩ | ⟨hc, d, s, rfl, hd⟩
    · obtain ⟨heq, hdrop⟩ := ih ha hs
      refine ⟨by simp only [List.isPrefixOf, heq], fun h => hdrop ?_⟩
      exact (Bool.and_eq_true_iff.1 h).2
    · have hne {x : CodePoint} (hx : x.IsOuter) : (b == x) = false :=
        beq_eq_false_iff_ne.2 fun heq => hb (heq ▸ hx)
      simp [List.isPrefixOf, hne hc, hne hd]

/-- Nothing that stands behind a source goes on with a symbol. -/
theorem not_isOuter_of_mem_tail {q : Punctuator} (hq : q ∈ all) :
    ∀ c ∈ q.text.tail, ¬c.IsOuter := by
  have hall : ∀ q ∈ all, ∀ c ∈ q.text.tail, ¬c.IsOuter := by decide
  exact hall q hq

theorem longest?_exchanges {c : CodePoint} {q : Punctuator} (h : longest? (c :: t) = some q)
    (ht : e.Exchanges t t') :
    longest? (c :: t') = some q ∧
      e.Exchanges ((c :: t).drop q.spelling.length) ((c :: t').drop q.spelling.length) := by
  have hbegins (q : Punctuator) (hq : q ∈ all) :
      q.text.isPrefixOf (c :: t') = q.text.isPrefixOf (c :: t) ∧
        (q.text.isPrefixOf (c :: t) = true →
          e.Exchanges ((c :: t).drop q.text.length) ((c :: t').drop q.text.length)) := by
    have htail := not_isOuter_of_mem_tail hq
    cases hspell : q.text with
    | nil => exact ⟨rfl, fun _ => ht.cons_left c⟩
    | cons b a =>
      rw [hspell] at htail
      obtain ⟨heq, hdrop⟩ := isPrefixOf_exchanges htail ht
      exact ⟨congrArg ((b == c) && ·) heq, fun h => hdrop (Bool.and_eq_true_iff.1 h).2⟩
  have hlength : q.spelling.length = q.text.length := by simp [Punctuator.text, Text.ofChars]
  have hsame : longest? (c :: t') = longest? (c :: t) := by
    unfold longest?
    exact List.find?_congr fun q hq => (hbegins q hq).1
  rw [hlength]
  exact ⟨hsame.trans h, (hbegins q (List.mem_of_find?_eq_some h)).2
    (by simpa using List.find?_some h)⟩

end Punctuator

/-! ## Separators -/

namespace Separator

/-- What can stand first behind a source stands there. -/
def Closes (y : Text) : Prop := ∃ d s, y = d :: s ∧ d.IsOuter

theorem Closes.cons_of_append_eq {y v : Text} {c : CodePoint} (hy : Closes y) (h : t ++ y = c :: v)
    (hc : ¬c.IsOuter) : ∃ s, t = c :: s ∧ s ++ y = v := by
  obtain ⟨d, s, rfl, hd⟩ := hy
  cases t with
  | nil =>
    cases h
    exact (hc hd).elim
  | cons b t =>
    cases h
    exact ⟨t, rfl, rfl⟩

/-- A comment that is not closed in a text is not closed by what stands behind it. -/
theorem Closes.not_closes {y : Text} {c : CodePoint} (hy : Closes y)
    (hopen : ∀ v, c = '*' → t = .scalar '/' :: v → False) :
    ¬(c = '*' ∧ (t ++ y).head? = some '/') :=
  fun ⟨hc, hhead⟩ =>
    have ⟨_, hv⟩ := List.head?_eq_some_iff.1 hhead
    have ⟨s, hs, _⟩ := hy.cons_of_append_eq hv (by decide)
    hopen s hc hs

theorem BeginsPair.ne_nil {c : CodePoint} (h : BeginsPair c t) : t ≠ [] := by
  rintro rfl
  cases h.2

/-- Whether a line terminator is the first half of a pair is told by what stands behind it. -/
theorem beginsPair_append {c : CodePoint} (ht : t ≠ []) (y : Text) :
    BeginsPair c (t ++ y) ↔ BeginsPair c t := by
  cases t with
  | nil => exact (ht rfl).elim
  | cons => rfl

/-- Skipping in a text in front of another one either ends in it, whatever follows, or goes on
behind it.  A comment that has to be closed is then open for all that may follow or for none. -/
def GoesOn (mode : Mode) (fresh : Bool) (p : Place) (a : Text) : Prop :=
  (∃ q c v, ∀ y, Closes y → skip mode fresh p (a ++ y) = .ok (q, c :: v ++ y)) ∨
    ∃ isOpen : Prop, ∀ y, Closes y → ∃ mode' fresh' q,
      (mode' = .blockComment ↔ isOpen) ∧ skip mode fresh p (a ++ y) = skip mode' fresh' q y

theorem GoesOn.of_eq {mode mode' : Mode} {fresh fresh' : Bool} {p q : Place} {a b : Text}
    (h : GoesOn mode' fresh' q b)
    (heq : ∀ y, Closes y → skip mode fresh p (a ++ y) = skip mode' fresh' q (b ++ y)) :
    GoesOn mode fresh p a := by
  rcases h with ⟨r, c, v, h⟩ | ⟨isOpen, h⟩
  · exact .inl ⟨r, c, v, fun y hy => (heq y hy).trans (h y hy)⟩
  · refine .inr ⟨isOpen, fun y hy => ?_⟩
    obtain ⟨m, f, r, hm, hskip⟩ := h y hy
    exact ⟨m, f, r, hm, (heq y hy).trans hskip⟩

theorem goesOn (mode : Mode) (fresh : Bool) (p : Place) (a : Text) : GoesOn mode fresh p a := by
  fun_induction skip mode fresh p a with
  | case1 _ p t ih | case2 _ p t ih | case3 _ p t ih | case4 p t ih | case5 _ p t ih =>
    exact ih.of_eq fun y _ => by simp only [List.cons_append, skip]
  | case6 fresh p | case7 fresh p | case8 fresh p =>
    exact .inr ⟨_, fun y _ => ⟨_, fresh, p, Iff.rfl, rfl⟩⟩
  | case9 fresh p c t _ _ _ _ hblank ih =>
    refine ih.of_eq fun y _ => ?_
    rw [List.cons_append, skip_between_cons (.inl hblank), if_pos hblank]
  | case10 fresh p c t _ _ _ _ hblank hend hpair ih =>
    have hpair : BeginsPair c t := by simpa [BeginsPair] using hpair
    refine ih.of_eq fun y _ => ?_
    rw [List.cons_append, skip_between_cons (.inr hend), if_neg hblank,
      if_pos ((beginsPair_append hpair.ne_nil y).2 hpair)]
  -- at the end of the text it is told by what follows whether a pair is begun
  | case11 fresh p c t _ _ _ _ hblank hend hpair ih =>
    have hpair : ¬BeginsPair c t := by simpa [BeginsPair] using hpair
    by_cases ht : t = []
    · subst ht
      refine .inr ⟨False, fun y _ => ?_⟩
      rw [List.singleton_append, skip_between_cons (.inr hend), if_neg hblank]
      exact ⟨.between, true, _, by simp, rfl⟩
    · refine ih.of_eq fun y _ => ?_
      rw [List.cons_append, skip_between_cons (.inr hend), if_neg hblank,
        if_neg (mt (beginsPair_append ht y).1 hpair)]
  | case12 fresh p c t hline hblock hopen hclose hblank hend =>
    refine .inl ⟨p, c, t, fun y hy => ?_⟩
    rw [List.cons_append, skip.eq_9, if_neg hblank, if_neg hend]
    · intro v hc h
      obtain ⟨v, rfl, -⟩ := hy.cons_of_append_eq h (by decide)
      exact hline v hc rfl
    · intro v hc h
      obtain ⟨v, rfl, -⟩ := hy.cons_of_append_eq h (by decide)
      exact hblock v hc rfl
    · intro v hc h
      obtain ⟨_, rfl, h₁⟩ := hy.cons_of_append_eq h (by decide)
      obtain ⟨_, rfl, h₂⟩ := hy.cons_of_append_eq h₁ (by decide)
      obtain ⟨v, rfl, -⟩ := hy.cons_of_append_eq h₂ (by decide)
      exact hopen v hc rfl
    · intro v hfresh hc h
      obtain ⟨_, rfl, h₁⟩ := hy.cons_of_append_eq h (by decide)
      obtain ⟨v, rfl, -⟩ := hy.cons_of_append_eq h₁ (by decide)
      exact hclose v hfresh hc rfl
  | case13 fresh p c t hend hpair ih =>
    have hpair : BeginsPair c t := by simpa [BeginsPair] using hpair
    refine ih.of_eq fun y _ => ?_
    rw [List.cons_append, skip_lineComment_cons,
      if_neg fun h => h.2 ((beginsPair_append hpair.ne_nil y).2 hpair)]
  | case14 fresh p c t hend hpair ih =>
    have hpair : ¬BeginsPair c t := by simpa [BeginsPair] using hpair
    by_cases ht : t = []
    · subst ht
      refine .inr ⟨False, fun y _ => ?_⟩
      rw [List.singleton_append, skip_lineComment_cons]
      split
      · exact ⟨.between, _, _, by simp, rfl⟩
      · exact ⟨.lineComment, _, _, by simp, rfl⟩
    · refine ih.of_eq fun y _ => ?_
      rw [List.cons_append, skip_lineComment_cons,
        if_pos ⟨hend, mt (beginsPair_append ht y).1 hpair⟩]
  | case15 fresh p c t hend ih =>
    refine ih.of_eq fun y _ => ?_
    rw [List.cons_append, skip_lineComment_cons, if_neg fun h => hend h.1]
  | case16 fresh p c t hopen hend hpair ih =>
    have hpair : BeginsPair c t := by simpa [BeginsPair] using hpair
    refine ih.of_eq fun y hy => ?_
    rw [List.cons_append, skip_blockComment_cons (hy.not_closes hopen),
      if_neg fun h => h.2 ((beginsPair_append hpair.ne_nil y).2 hpair)]
  | case17 fresh p c t hopen hend hpair ih =>
    have hpair : ¬BeginsPair c t := by simpa [BeginsPair] using hpair
    by_cases ht : t = []
    · subst ht
      refine .inr ⟨True, fun y hy => ?_⟩
      rw [List.cons_append, skip_blockComment_cons (hy.not_closes hopen)]
      exact ⟨.blockComment, fresh, _, by simp, rfl⟩
    · refine ih.of_eq fun y hy => ?_
      rw [List.cons_append, skip_blockComment_cons (hy.not_closes hopen),
        if_pos ⟨hend, mt (beginsPair_append ht y).1 hpair⟩]
  | case18 fresh p c t hopen hend ih =>
    refine ih.of_eq fun y hy => ?_
    rw [List.cons_append, skip_blockComment_cons (hy.not_closes hopen), if_neg fun h => hend h.1]

/-- Behind a source a comment that has to be closed is not closed, and otherwise everything is
skipped or everything up to the parenthesis. -/
theorem skip_gap {w : Text} (hw : ∀ c ∈ w, c.IsGap) (mode : Mode) (fresh : Bool) (p : Place) :
    (mode = .blockComment ∧ ∃ f, skip mode fresh p (w ++ callSuffix) = .error f) ∨
      mode ≠ .blockComment ∧ ∃ q v, skip mode fresh p (w ++ callSuffix) = .ok (q, v) ∧
        (v = callSuffix ∨ v = []) := by
  induction w generalizing mode fresh p with
  | nil =>
    cases mode with
    | between => exact .inr ⟨by simp, p, callSuffix, skip_parenthesis (.inr rfl) .., .inl rfl⟩
    | lineComment => exact .inr ⟨by simp, _, [], rfl, .inr rfl⟩
    | blockComment => exact .inl ⟨rfl, _, rfl⟩
  | cons c w ih =>
    obtain ⟨hc, hw⟩ := List.forall_mem_cons.1 hw
    rw [List.cons_append]
    cases mode with
    | between =>
      rw [skip_between_cons hc]
      split
      · exact .inr ((ih hw .between _ _).resolve_left fun h => by simp at h)
      · exact .inr ((ih hw .between _ _).resolve_left fun h => by simp at h)
    | lineComment =>
      rw [skip_lineComment_cons]
      split
      · exact .inr ⟨by simp, ((ih hw .between _ _).resolve_left fun h => by simp at h).2⟩
      · exact .inr ((ih hw .lineComment _ _).resolve_left fun h => by simp at h)
    | blockComment =>
      rw [skip_blockComment_cons]
      · exact .inl ((ih hw .blockComment _ _).resolve_right fun h => h.1 rfl)
      · rintro ⟨rfl, -⟩
        exact absurd hc (by decide)

/-- **What separates tokens in a source ends in the source at the same place**, or it goes on over
all that stands behind the source or up to the parenthesis. -/
theorem skip_exchanges {mode : Mode} {fresh : Bool} (h : skip mode fresh p t = .ok (p', u))
    (ht : e.Exchanges t t') :
    (∃ c v v', u = c :: v ∧ skip mode fresh p t' = .ok (p', c :: v') ∧ e.Exchanges v v') ∨
      (u = callSuffix ∨ u = []) ∧
        ∃ q u', skip mode fresh p t' = .ok (q, u') ∧ (u' = callSuffix ∨ u' = []) := by
  obtain ⟨a, rfl, rfl⟩ := ht
  have hold := Trailing.exists_eq_cons e.old_gap
  have hnew := Trailing.exists_eq_cons e.new_gap
  rcases goesOn mode fresh p a with ⟨q, c, v, hskip⟩ | ⟨isOpen, hskip⟩
  · rw [hskip _ hold] at h
    cases h
    exact .inl ⟨c, v ++ (e.old ++ callSuffix), _, rfl, hskip _ hnew, v, rfl, rfl⟩
  · obtain ⟨m, f, q, hm, heq⟩ := hskip _ hold
    obtain ⟨m', f', q', hm', heq'⟩ := hskip _ hnew
    rw [heq] at h
    rw [heq']
    rcases skip_gap e.old_gap m f q with ⟨-, _, hfault⟩ | ⟨hno, r, v, hv, hend⟩
    · rw [hfault] at h
      cases h
    · rw [hv] at h
      cases h
      refine .inr ⟨hend, ?_⟩
      exact ((skip_gap e.new_gap m' f' q').resolve_left fun h => hno (hm.2 (hm'.1 h.1))).2

end Separator

/-! ## The reader -/

/-- Whether a token is what is read behind a source. -/
def TokenKind.IsClosing (kind : TokenKind) : Prop :=
  kind = .punctuator .rightParen ∨ kind = .endOfText

namespace Reader

theorem braces_skipSeparators {r r₁ : Reader} (h : r.skipSeparators = .ok r₁) :
    r₁.braces = r.braces := by
  unfold skipSeparators at h
  split at h
  · cases h
    rfl
  · cases h

theorem kind_exchanges {braces : List Brace} {c : CodePoint} {kind : TokenKind}
    (h : Reader.kind ⟨p, c :: t, braces⟩ = .ok (kind, p', u)) (ht : e.Exchanges t t') :
    ∃ u', Reader.kind ⟨p, c :: t', braces⟩ = .ok (kind, p', u') ∧ e.Exchanges u u' := by
  unfold Reader.kind at h ⊢
  dsimp only at h ⊢
  have hdigit := ht.any_head? fun _ => CodePoint.IsOuter.isDigit
  rw [hdigit]
  split at h
  · next hc =>
    rw [if_pos hc]
    exact Name.token_exchanges h ht
  next hc =>
  rw [if_neg hc]
  split at h
  · next hquote =>
    rw [if_pos hquote]
    refine StringLiteral.token_exchanges ?_ h ht
    have hquote : c = '\x27' ∨ c = '\x22' := by simpa using hquote
    rcases hquote with rfl | rfl <;> decide
  next hquote =>
  rw [if_neg hquote]
  split at h
  · next hnumber =>
    rw [if_pos hnumber]
    exact Number.token_exchanges h ht
  next hnumber =>
  rw [if_neg hnumber]
  split at h
  · next hopen =>
    rw [if_pos hopen]
    exact Template.token_exchanges h ht
  next hopen =>
  rw [if_neg hopen]
  split at h
  · next hclose =>
    rw [if_pos hclose]
    exact Template.token_exchanges h ht
  next hclose =>
  rw [if_neg hclose]
  split at h
  · next hq =>
    obtain ⟨hq', hdrop⟩ := Punctuator.longest?_exchanges hq ht
    rw [hq']
    cases h
    exact ⟨_, rfl, hdrop⟩
  · cases h

theorem token_exchanges {r : Reader} {braces : List Brace} {c : CodePoint} {a : Token}
    (h : Reader.token ⟨p, c :: t, braces⟩ = .ok (a, r)) (ht : e.Exchanges t t') :
    ∃ u', Reader.token ⟨p, c :: t', braces⟩ = .ok (a, { r with rest := u' }) ∧
      e.Exchanges r.rest u' := by
  unfold token at h ⊢
  split at h
  · next hkind =>
    cases h
    obtain ⟨u', hkind', hu⟩ := kind_exchanges hkind ht
    exact ⟨u', by rw [hkind'], hu⟩
  · cases h

theorem skipSeparators_exchanges {r r₁ : Reader} (h : r.skipSeparators = .ok r₁)
    (ht : e.Exchanges r.rest t') :
    (∃ c v v', r₁.rest = c :: v ∧
        skipSeparators { r with rest := t' } = .ok { r₁ with rest := c :: v' } ∧ e.Exchanges v v') ∨
      (r₁.rest = callSuffix ∨ r₁.rest = []) ∧
        ∃ q u', skipSeparators { r with rest := t' } = .ok ⟨q, u', r.braces⟩ ∧
          (u' = callSuffix ∨ u' = []) := by
  unfold skipSeparators at h
  split at h
  · next hskip =>
    cases h
    rcases Separator.skip_exchanges hskip ht with
      ⟨c, v, v', rfl, hskip', hv⟩ | ⟨hend, q, u', hskip', hend'⟩
    · refine .inl ⟨c, v, v', rfl, ?_, hv⟩
      simp only [skipSeparators, Place.skipSeparators, hskip']
    · refine .inr ⟨hend, q, u', ?_, hend'⟩
      simp only [skipSeparators, Place.skipSeparators, hskip']
  · cases h

/-- Behind a source a parenthesis is read, or the end of the text if that is in a comment. -/
theorem exists_token_of_closing {r : Reader} (h : r.rest = callSuffix ∨ r.rest = []) :
    ∃ a r₁, r.token = .ok (a, r₁) ∧ a.kind.IsClosing ∧ r₁.braces = r.braces := by
  obtain ⟨p, t, braces⟩ := r
  rcases h with rfl | rfl
  · exact ⟨_, _, rfl, .inl rfl, rfl⟩
  · exact ⟨_, _, rfl, .inr rfl, rfl⟩

/-- **The next token is the same**, or in both texts one that stands behind the source. -/
theorem peek_exchanges {r : Reader} {a : Token} {braces : List Brace} (h : r.peek = .ok (a, braces))
    (ht : e.Exchanges r.rest t') :
    peek { r with rest := t' } = .ok (a, braces) ∨
      a.kind.IsClosing ∧ braces = r.braces ∧
        ∃ a', peek { r with rest := t' } = .ok (a', braces) ∧ a'.kind.IsClosing := by
  unfold peek at h ⊢
  split at h
  · next r₁ hskip =>
    have hbraces := braces_skipSeparators hskip
    rcases skipSeparators_exchanges hskip ht with ⟨c, v, v', hrest, hskip', hv⟩ |
        ⟨hend, q, u', hskip', hend'⟩
    · obtain ⟨p₁, t₁, b₁⟩ := r₁
      obtain rfl : t₁ = c :: v := hrest
      split at h
      · next htoken =>
        cases h
        obtain ⟨u', htoken', -⟩ := token_exchanges htoken hv
        left
        simp only [hskip', htoken']
      · cases h
    · right
      obtain ⟨b, r₂, htoken, hkind, hb⟩ := exists_token_of_closing hend
      obtain ⟨b', r₂', htoken', hkind', hb'⟩ :=
        exists_token_of_closing (r := ⟨q, u', r.braces⟩) hend'
      simp only [htoken] at h
      cases h
      refine ⟨hkind, hb.trans hbraces, b', ?_, hkind'⟩
      simp only [hskip', htoken', hb', hb, hbraces]
  · cases h

end Reader

end Elementwise
