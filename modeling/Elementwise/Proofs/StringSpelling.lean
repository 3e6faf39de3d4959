import Elementwise.Proofs.TokenEnd

/-!
# How strings are spelled

What is read for a string is told by the text alone: the place where it stands plays no part in it.
Its spelling is what stands between its quotes, and where there is no escape in it the string is
what it is spelled as.

## What is here

* `StringLiteral.body_anywhere` — what stands between quotes is read alike at every place.
* `StringLiteral.Begins` — a text begins with a string of a given value and spelling;
  `StringLiteral.Begins.unique` says that it begins with one only, and `StringLiteral.Begins.quoted`
  how this string is written.
-/

set_option autoImplicit false
namespace Elementwise

/-- Whether a string can begin with a code point. -/
def CodePoint.IsQuote (c : CodePoint) : Prop := c = '\x27' ∨ c = '\x22'

instance (c : CodePoint) : Decidable c.IsQuote := inferInstanceAs (Decidable (_ ∨ _))

theorem CodePoint.IsQuote.isNameStart {c : CodePoint} (h : c.IsQuote) : c.isNameStart = false := by
  rcases h with rfl | rfl <;> decide

variable {p p' : Place} {t t' : Text}

/-! ## Reading at another place -/

namespace Escape

theorem hexDigits_anywhere {n value : Nat} {r : Option Nat} (q : Place)
    (h : hexDigits n value p t = (r, p', t')) : ∃ q', hexDigits n value q t = (r, q', t') := by
  fun_induction hexDigits n value p t generalizing q with
  | case1 | case2 =>
    cases h
    exact ⟨q, rfl⟩
  | case3 n value p c t d hd ih =>
    obtain ⟨q', hq'⟩ := ih (q.step 1) h
    exact ⟨q', by rwa [hexDigits, hd]⟩
  | case4 n value p c t hd =>
    cases h
    exact ⟨q, by rw [hexDigits, hd]⟩

theorem bracedDigits_anywhere {value : Nat} {c : CodePoint} (q : Place)
    (h : bracedDigits value p t = .ok (c, p', t')) :
    ∃ q', bracedDigits value q t = .ok (c, q', t') := by
  fun_induction bracedDigits value p t generalizing q with
  | case1 => cases h
  | case2 value p c t d hd ih =>
    obtain ⟨q', hq'⟩ := ih (q.step 1) h
    exact ⟨q', by rwa [bracedDigits, hd]⟩
  | case3 value p c t hd hend =>
    cases h
    exact ⟨q.step 1, by rw [bracedDigits, hd]; exact if_pos hend⟩
  | case4 => cases h

theorem braced_anywhere {c : CodePoint} (q : Place) (h : braced p t = .ok (c, p', t')) :
    ∃ q', braced q t = .ok (c, q', t') := by
  unfold braced at h ⊢
  split at h
  · cases h
  · next hempty =>
    rw [if_neg hempty]
    exact bracedDigits_anywhere q h

theorem octal_anywhere {first c : CodePoint} {isOctal : Bool} (q : Place)
    (h : octal first p t = (c, isOctal, p', t')) :
    ∃ q', octal first q t = (c, isOctal, q', t') := by
  unfold octal at h ⊢
  grind

end Escape

namespace StringLiteral

variable {quote : CodePoint} {start fuel : Nat} {done value spelling : Text} {octal octal' : Bool}

theorem escape_anywhere {c d : CodePoint} (q : Place) (h : escape c p t = .ok (d, octal, p', t')) :
    ∃ q', escape c q t = .ok (d, octal, q', t') := by
  unfold escape at h ⊢
  split at h
  · next hu =>
    rw [if_pos hu]
    split at h
    · next t =>
      cases hbraced : Escape.braced (p.step 1) t with
      | error e =>
        rw [hbraced] at h
        cases h
      | ok r =>
        obtain ⟨q', hq'⟩ := Escape.braced_anywhere (q.step 1) hbraced
        rw [hbraced] at h
        cases h
        exact ⟨q', by rw [hq']⟩
    · split at h
      · next hread =>
        cases h
        obtain ⟨q', hq'⟩ := Escape.hexDigits_anywhere q hread
        exact ⟨q', by rw [hq']⟩
      · cases h
  · next hu =>
    rw [if_neg hu]
    split at h
    · next hx =>
      rw [if_pos hx]
      split at h
      · next hread =>
        cases h
        obtain ⟨q', hq'⟩ := Escape.hexDigits_anywhere q hread
        exact ⟨q', by rw [hq']⟩
      · cases h
    · next hx =>
      rw [if_neg hx]
      split at h
      · cases h
      · next hdigit =>
        rw [if_neg hdigit]
        split at h
        · next hoctal =>
          obtain ⟨q', hq'⟩ := Escape.octal_anywhere q (Except.ok.inj h)
          exact ⟨q', by rw [if_pos hoctal, hq']⟩
        · next hoctal =>
          cases h
          exact ⟨q, if_neg hoctal⟩

/-- **What stands between quotes is read alike at every place.** -/
theorem body_anywhere (start' : Nat) (q : Place)
    (h : body quote start fuel done octal p t = .ok (value, octal', p', t')) :
    ∃ q', body quote start' fuel done octal q t = .ok (value, octal', q', t') := by
  fun_induction body quote start fuel done octal p t generalizing q with
  | case1 =>
    cases h
    exact ⟨q.step 1, by simp only [body, if_true]⟩
  | case2 fuel done octal p t hc ih =>
    obtain ⟨q', hq'⟩ := ih (q.newLine 3) h
    exact ⟨q', by simpa only [body, hc, if_true, if_false] using hq'⟩
  | case3 fuel done octal p d t hpair hend hc ih =>
    obtain ⟨q', hq'⟩ := ih (q.newLine 2) h
    exact ⟨q', by simpa only [body, hc, hend, if_true, if_false] using hq'⟩
  | case4 fuel done octal p d t hpair hend e isOctal r u hescape hc ih =>
    obtain ⟨r', hr'⟩ := escape_anywhere (q.step 2) hescape
    obtain ⟨q', hq'⟩ := ih r' h
    exact ⟨q', by simpa [body, hc, hend, hr'] using hq'⟩
  | case8 fuel done octal p c t hc hslash hend ih =>
    obtain ⟨q', hq'⟩ := ih (q.step 1) h
    exact ⟨q', by simpa [body, hc, hslash, hend] using hq'⟩
  | case5 | case6 | case7 | case9 => cases h

/-! ## Between the quotes -/

/-- What is read for a string ends with its quote, and without a backslash it is read as it
stands. -/
theorem exists_spelling_of_body
    (h : body quote start fuel done octal p t = .ok (value, octal', p', t')) :
    ∃ s, t = s ++ quote :: t' ∧ (.scalar '\\' ∉ s → value = done.reverse ++ s) := by
  -- behind a backslash nothing is said of the value
  have hescape {u v : Text} (hu : quote :: t' <:+ u) :
      ∃ s, .scalar '\\' :: u = s ++ quote :: t' ∧ (.scalar '\\' ∉ s → value = v ++ s) := by
    obtain ⟨s, rfl⟩ := hu
    exact ⟨.scalar '\\' :: s, rfl, fun hno => (hno List.mem_cons_self).elim⟩
  fun_induction body quote start fuel done octal p t with
  | case1 =>
    cases h
    exact ⟨[], rfl, fun _ => (List.append_nil _).symm⟩
  | case2 fuel done octal p t hc ih => exact hescape ((ends_body h).trans ⟨['\r', '\n'], rfl⟩)
  | case3 fuel done octal p d t hpair hend hc ih =>
    exact hescape ((ends_body h).trans (List.suffix_cons d t))
  | case4 fuel done octal p d t hpair hend e isOctal r u hread hc ih =>
    have hsuffix := (ends_body h).trans (reaches_escape hread).suffix
    exact hescape (hsuffix.trans (List.suffix_cons d t))
  | case8 fuel done octal p c t hc hslash hend ih =>
    obtain ⟨s, rfl, hs⟩ := ih h
    refine ⟨c :: s, rfl, fun hno => ?_⟩
    rw [hs (List.not_mem_of_not_mem_cons hno), List.reverse_cons, List.append_assoc,
      List.singleton_append]
  | case5 | case6 | case7 | case9 => cases h

theorem eq_spelling_append (h : token quote p t = .ok (.string value spelling octal, p', t')) :
    t = spelling ++ quote :: t' ∧ (.scalar '\\' ∉ spelling → value = spelling) := by
  have htotal := (reaches_token h).total
  unfold token at h
  split at h
  · next hbody =>
    cases h
    obtain ⟨s, rfl, hs⟩ := exists_spelling_of_body hbody
    have hlength : p'.index - p.index - 2 = s.length := by
      simp only [List.length_cons, List.length_append] at htotal
      omega
    rw [hlength, List.take_left]
    exact ⟨rfl, hs⟩
  · cases h

/-- A text begins with a string of a given value and spelling, whatever place it has. -/
def Begins (value spelling t t' : Text) : Prop :=
  ∃ (quote : CodePoint) (u : Text) (octal : Bool) (p p' : Place), quote.IsQuote ∧ t = quote :: u ∧
    token quote p u = .ok (.string value spelling octal, p', t')

variable {value' spelling' u : Text}

/-- The spelling of a string stands between its quotes, and if no backslash is in it, it is the
string. -/
theorem Begins.quoted (h : Begins value spelling t t') :
    ∃ quote : CodePoint, quote.IsQuote ∧ t = quote :: (spelling ++ quote :: t') ∧
      (.scalar '\\' ∉ spelling → value = spelling) := by
  obtain ⟨quote, u, octal, p, p', hquote, rfl, htoken⟩ := h
  obtain ⟨rfl, hplain⟩ := eq_spelling_append htoken
  exact ⟨quote, hquote, rfl, hplain⟩

/-- A text begins with one string only. -/
theorem Begins.unique (h : Begins value spelling t t') (h' : Begins value' spelling' t u) :
    value = value' ∧ spelling = spelling' := by
  obtain ⟨quote, w, octal, p, p', -, rfl, htoken⟩ := h
  obtain ⟨_, _, octal', q, q', -, ⟨⟩, htoken'⟩ := h'
  have hspelled := (eq_spelling_append htoken).1
  have hspelled' := (eq_spelling_append htoken').1
  unfold token at htoken htoken'
  split at htoken
  · next hbody =>
    obtain ⟨q'', hbody'⟩ := body_anywhere q.index (q.step 1) hbody
    rw [hbody'] at htoken'
    cases htoken
    cases htoken'
    exact ⟨rfl, List.append_cancel_right (hspelled.symm.trans hspelled')⟩
  · cases htoken

end StringLiteral
end Elementwise
