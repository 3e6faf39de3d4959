import Elementwise.Proofs.NameSpelling
import Elementwise.Proofs.SourceEnd.Trailing

/-!
# Words and numbers in front of the end of a source

A word goes on as far as the characters of names do, and a number as far as its digits, a point or
an exponent.  None of these can stand first behind a source.

## What is here

* `Name.token_exchanges`, `Number.token_exchanges` — a word and a number are read alike in front of
  either ending.
-/

set_option autoImplicit false
namespace Elementwise

open Anchor

variable {e : Trailing} {p p' : Place} {t t' u : Text}

/-! ## Escapes -/

namespace Escape

theorem hexDigits_exchanges {n value : Nat} {r : Option Nat}
    (h : hexDigits n value p t = (r, p', u)) (ht : e.Exchanges t t') :
    ∃ u', hexDigits n value p t' = (r, p', u') ∧ e.Exchanges u u' := by
  fun_induction hexDigits n value p t generalizing t' with
  | case1 =>
    cases h
    exact ⟨t', rfl, ht⟩
  | case2 => exact (Trailing.Exchanges.not_nil ht).elim
  | case3 n value p c t d hd ih =>
    obtain ⟨s, rfl, hs⟩ := ht.cons fun hc => by simp [hc.hexValue?] at hd
    rw [hexDigits, hd]
    exact ih h hs
  | case4 n value p c t hd =>
    cases h
    rcases ht.cons_cases with ⟨s, rfl, hs⟩ | ⟨-, c', s, rfl, hc'⟩
    · exact ⟨c :: s, by rw [hexDigits, hd], ht⟩
    · exact ⟨c' :: s, by rw [hexDigits, hc'.hexValue?], ht⟩

theorem bracedDigits_exchanges {value : Nat} {c : CodePoint}
    (h : bracedDigits value p t = .ok (c, p', u)) (ht : e.Exchanges t t') :
    ∃ u', bracedDigits value p t' = .ok (c, p', u') ∧ e.Exchanges u u' := by
  fun_induction bracedDigits value p t generalizing t' with
  | case1 => cases h
  | case2 value p d t n hd ih =>
    obtain ⟨s, rfl, hs⟩ := ht.cons fun hc => by simp [hc.hexValue?] at hd
    rw [bracedDigits, hd]
    exact ih h hs
  | case3 value p d t hd hend =>
    cases h
    have hbrace : d = '}' := by simpa using (Bool.and_eq_true_iff.1 hend).1
    obtain ⟨s, rfl, hs⟩ := ht.cons (by rw [hbrace]; decide)
    exact ⟨s, by rw [bracedDigits, hd]; exact if_pos hend, hs⟩
  | case4 => cases h

theorem braced_exchanges {c : CodePoint} (h : braced p t = .ok (c, p', u))
    (ht : e.Exchanges t t') : ∃ u', braced p t' = .ok (c, p', u') ∧ e.Exchanges u u' := by
  unfold braced at h ⊢
  split at h
  · cases h
  · next hempty =>
    have hempty' : ¬t'.head? = some '}' := fun h => hempty ((ht.head?_eq_iff (by decide)).1 h)
    rw [if_neg hempty']
    exact bracedDigits_exchanges h ht

theorem octal_exchanges {first c : CodePoint} {isOctal : Bool}
    (h : octal first p t = (c, isOctal, p', u)) (ht : e.Exchanges t t') :
    ∃ u', octal first p t' = (c, isOctal, p', u') ∧ e.Exchanges u u' := by
  obtain ⟨a, b, s, rfl⟩ : ∃ a b s, t = a :: b :: s := by
    have := ht.length_pos
    match t with
    | a :: b :: s => exact ⟨a, b, s, rfl⟩
  obtain ⟨a', b', s', rfl⟩ : ∃ a' b' s', t' = a' :: b' :: s' := by
    have := ht.symm.length_pos
    match t' with
    | a :: b :: s => exact ⟨a, b, s, rfl⟩
  rcases ht.cons_cases with ⟨_, ⟨⟩, hs⟩ | ⟨ha, _, _, ⟨⟩, ha'⟩
  · rcases hs.cons_cases with ⟨_, ⟨⟩, hs'⟩ | ⟨hb, _, _, ⟨⟩, hb'⟩
    · grind [octal]
    · grind [octal, CodePoint.IsOuter.isOctalDigit]
  · grind [octal, CodePoint.IsOuter.isOctalDigit]

end Escape

/-! ## Names -/

namespace Name

theorem escape_exchanges {allowed : CodePoint → Bool} {c : CodePoint}
    (h : escape allowed p t = .ok (c, p', u)) (ht : e.Exchanges t t') :
    ∃ u', escape allowed p t' = .ok (c, p', u') ∧ e.Exchanges u u' := by
  unfold escape at h
  split at h
  · obtain ⟨_, rfl, hs⟩ := ht.cons (by decide)
    obtain ⟨_, rfl, hs'⟩ := hs.cons (by decide)
    exact Escape.braced_exchanges h hs'
  · next t hbrace =>
    obtain ⟨s, rfl, hs⟩ := ht.cons (by decide)
    have hbrace' (v : Text) : s ≠ .scalar '{' :: v := by
      rintro rfl
      obtain ⟨v, hv⟩ := List.head?_eq_some_iff.1 ((hs.head?_eq_iff (by decide)).1 rfl)
      exact hbrace v hv
    split at h
    · next hread =>
      obtain ⟨u', hread', hu⟩ := Escape.hexDigits_exchanges hread hs
      dsimp only at h
      split at h
      · next hallowed =>
        cases h
        refine ⟨u', ?_, hu⟩
        rw [escape, hread']
        · exact if_pos hallowed
        · exact hbrace'
      · cases h
    · cases h
  · cases h

theorem rest_exchanges {fuel fuel' : Nat} {done name : Text}
    (h : rest fuel done p t = .ok (name, p', u)) (ht : e.Exchanges t t') (hfuel : t.length ≤ fuel)
    (hfuel' : t'.length ≤ fuel') :
    ∃ u', rest fuel' done p t' = .ok (name, p', u') ∧ e.Exchanges u u' := by
  have hbackslash : ¬CodePoint.IsOuter '\\' := by decide
  fun_induction rest fuel done p t generalizing t' fuel' with
  | case1 fuel done p t d q v hescape ih =>
    obtain ⟨s, rfl, hs⟩ := ht.cons hbackslash
    obtain ⟨v', hescape', hv⟩ := escape_exchanges hescape hs
    have hle := (reaches_escape hescape).suffix.length_le
    have hle' := (reaches_escape hescape').suffix.length_le
    simp only [List.length_cons] at hfuel hfuel'
    obtain ⟨fuel', rfl⟩ : ∃ n, fuel' = n + 1 := ⟨fuel' - 1, by omega⟩
    rw [rest, if_pos rfl, hescape']
    exact ih h hv (by omega) (by omega)
  | case2 => cases h
  | case3 fuel done p c t hc hpart ih =>
    obtain ⟨s, rfl, hs⟩ := ht.cons fun hout => by simp [hout.isNamePart] at hpart
    simp only [List.length_cons] at hfuel hfuel'
    obtain ⟨fuel', rfl⟩ : ∃ n, fuel' = n + 1 := ⟨fuel' - 1, by omega⟩
    rw [rest, if_neg hc, if_pos hpart]
    exact ih h hs (by omega) (by omega)
  | case4 fuel done p c t hc hpart =>
    cases h
    refine ⟨t', ?_, ht⟩
    obtain ⟨d, s, rfl, hd, hpart'⟩ : ∃ d s, t' = d :: s ∧ d ≠ '\\' ∧ ¬d.isNamePart = true := by
      rcases ht.cons_cases with ⟨s, rfl, -⟩ | ⟨-, d, s, rfl, hd⟩
      · exact ⟨c, s, rfl, hc, hpart⟩
      · exact ⟨d, s, rfl, fun heq => hbackslash (heq ▸ hd), by simp [hd.isNamePart]⟩
    obtain ⟨fuel', rfl⟩ : ∃ n, fuel' = n + 1 :=
      ⟨fuel' - 1, by rw [List.length_cons] at hfuel'; omega⟩
    rw [rest, if_neg hd, if_neg hpart']
  | case5 fuel done p t hne =>
    obtain ⟨c, s, rfl⟩ := ht.exists_eq_cons
    obtain ⟨n, rfl⟩ : ∃ n, fuel = n + 1 := ⟨fuel - 1, by rw [List.length_cons] at hfuel; omega⟩
    exact (hne n c s rfl rfl).elim

theorem read_exchanges {c : CodePoint} {name : Text}
    (h : read p (c :: t) = .ok (name, p', u)) (ht : e.Exchanges t t') :
    ∃ u', read p (c :: t') = .ok (name, p', u') ∧ e.Exchanges u u' := by
  unfold read at h ⊢
  dsimp only at h ⊢
  split at h
  · next hbackslash =>
    split at h
    · next hescape =>
      obtain ⟨v', hescape', hv⟩ := escape_exchanges hescape ht
      rw [if_pos hbackslash, hescape']
      exact rest_exchanges h hv (reaches_escape hescape).suffix.length_le
        (reaches_escape hescape').suffix.length_le
    · cases h
  · next hbackslash =>
    rw [if_neg hbackslash]
    exact rest_exchanges h ht (Nat.le_refl _) (Nat.le_refl _)

theorem token_exchanges {c : CodePoint} {kind : TokenKind}
    (h : token p (c :: t) = .ok (kind, p', u)) (ht : e.Exchanges t t') :
    ∃ u', token p (c :: t') = .ok (kind, p', u') ∧ e.Exchanges u u' := by
  unfold token at h ⊢
  split at h
  · cases h
  · next hread =>
    obtain ⟨v', hread', hv⟩ := read_exchanges hread ht
    rw [hread']
    dsimp only at h ⊢
    split at h
    · next hkind =>
      cases h
      exact ⟨v', rfl, hv⟩
    · next hkind =>
      split at h
      · next hplain =>
        cases h
        exact ⟨v', if_pos hplain, hv⟩
      · cases h

end Name

/-! ## Numbers -/

namespace Number

theorem inBase_exchanges {base : Nat} {isDigit stops : CodePoint → Bool} {octal : Bool}
    {kind : TokenKind} (hdigit : ∀ c : CodePoint, c.IsOuter → isDigit c = false)
    (hstops : ∀ c : CodePoint, c.IsOuter → stops c = false)
    (h : inBase base isDigit stops octal p t = .ok (kind, p', u)) (ht : e.Exchanges t t') :
    ∃ u', inBase base isDigit stops octal p t' = .ok (kind, p', u') ∧ e.Exchanges u u' := by
  obtain ⟨htake, hdrop⟩ := ht.takeWhile hdigit
  unfold inBase at h ⊢
  dsimp only at h ⊢
  rw [htake, hdrop.any_head? hstops]
  split at h
  · cases h
  · next hgood =>
    cases h
    exact ⟨_, if_neg hgood, hdrop⟩

/-- Reading the digits of an exponent. -/
theorem exponent_eq_of_unsigned (hplus : t.head? ≠ some '+') (hminus : t.head? ≠ some '-') :
    exponent p t =
      if (t.takeWhile CodePoint.isDigit).isEmpty then .error (p.fault .illegal)
      else .ok (1 * (Text.toNat 10 (t.takeWhile CodePoint.isDigit) : Nat),
        p.step (t.takeWhile CodePoint.isDigit).length, t.dropWhile CodePoint.isDigit) := by
  unfold exponent
  split
  next heq =>
  split at heq
  · exact (hplus rfl).elim
  · exact (hminus rfl).elim
  · cases heq
    rfl

theorem exponent_exchanges {n : Int} (h : exponent p t = .ok (n, p', u)) (ht : e.Exchanges t t') :
    ∃ u', exponent p t' = .ok (n, p', u') ∧ e.Exchanges u u' := by
  -- behind the sign
  have hdigits {s s' : Text} {sign : Int} {q : Place} (hs : e.Exchanges s s')
      (h : (if (s.takeWhile CodePoint.isDigit).isEmpty then .error (q.fault .illegal)
        else .ok (sign * (Text.toNat 10 (s.takeWhile CodePoint.isDigit) : Nat),
          q.step (s.takeWhile CodePoint.isDigit).length, s.dropWhile CodePoint.isDigit) :
        Except ParseError (Int × Place × Text)) = .ok (n, p', u)) :
      ∃ u', (if (s'.takeWhile CodePoint.isDigit).isEmpty then .error (q.fault .illegal)
        else .ok (sign * (Text.toNat 10 (s'.takeWhile CodePoint.isDigit) : Nat),
          q.step (s'.takeWhile CodePoint.isDigit).length, s'.dropWhile CodePoint.isDigit) :
        Except ParseError (Int × Place × Text)) = .ok (n, p', u') ∧ e.Exchanges u u' := by
    obtain ⟨htake, hdrop⟩ := hs.takeWhile fun _ => CodePoint.IsOuter.isDigit
    rw [htake]
    split at h
    · cases h
    · next hsome =>
      cases h
      exact ⟨_, if_neg hsome, hdrop⟩
  by_cases hplus : t.head? = some '+'
  · obtain ⟨t, rfl⟩ := List.head?_eq_some_iff.1 hplus
    obtain ⟨s, rfl, hs⟩ := ht.cons (by decide)
    exact hdigits hs h
  by_cases hminus : t.head? = some '-'
  · obtain ⟨t, rfl⟩ := List.head?_eq_some_iff.1 hminus
    obtain ⟨s, rfl, hs⟩ := ht.cons (by decide)
    exact hdigits hs h
  rw [exponent_eq_of_unsigned hplus hminus] at h
  rw [exponent_eq_of_unsigned (mt (ht.head?_eq_iff (by decide)).1 hplus)
    (mt (ht.head?_eq_iff (by decide)).1 hminus)]
  exact hdigits ht h

theorem exponent?_exchanges {n : Int} (h : exponent? p t = .ok (n, p', u)) (ht : e.Exchanges t t') :
    ∃ u', exponent? p t' = .ok (n, p', u') ∧ e.Exchanges u u' := by
  have hletter := or_congr (ht.head?_eq_iff (d := .scalar 'e') (by decide))
    (ht.head?_eq_iff (d := .scalar 'E') (by decide))
  rw [exponent?_eq] at h ⊢
  split at h
  · next hsome =>
    rw [if_pos (hletter.2 hsome)]
    obtain ⟨c, t, rfl⟩ := ht.exists_eq_cons
    obtain ⟨s, rfl, hs⟩ := ht.cons fun hc => by
      rcases hsome with hsome | hsome <;> cases hsome <;> exact absurd hc (by decide)
    exact exponent_exchanges h hs
  · next hnone =>
    rw [if_neg (mt hletter.1 hnone)]
    cases h
    exact ⟨t', rfl, ht⟩

theorem behindDigits_exchanges {whole fraction : Text} {kind : TokenKind}
    (h : behindDigits whole fraction p t = .ok (kind, p', u)) (ht : e.Exchanges t t') :
    ∃ u', behindDigits whole fraction p t' = .ok (kind, p', u') ∧ e.Exchanges u u' := by
  unfold behindDigits at h ⊢
  split at h
  · cases h
  · next n q v hread =>
    obtain ⟨v', hread', hv⟩ := exponent?_exchanges hread ht
    rw [hread']
    dsimp only at h ⊢
    rw [hv.any_head? fun _ => CodePoint.IsOuter.isNameStart]
    split at h
    · cases h
    · next hend =>
      cases h
      exact ⟨v', if_neg hend, hv⟩

theorem decimal_exchanges {kind : TokenKind} (h : decimal p t = .ok (kind, p', u))
    (ht : e.Exchanges t t') : ∃ u', decimal p t' = .ok (kind, p', u') ∧ e.Exchanges u u' := by
  have hdigits {s s' : Text} (hs : e.Exchanges s s') :=
    hs.takeWhile (f := CodePoint.isDigit) fun _ => CodePoint.IsOuter.isDigit
  obtain ⟨htake, hdrop⟩ := hdigits ht
  rw [decimal_eq_behindDigits rfl] at h
  rw [decimal_eq_behindDigits rfl, htake]
  by_cases hpoint : (t.dropWhile CodePoint.isDigit).head? = some (.scalar '.')
  · obtain ⟨v, hv⟩ := List.head?_eq_some_iff.1 hpoint
    rw [hv] at hdrop h
    obtain ⟨v', hv', hs⟩ := hdrop.cons (by decide)
    obtain ⟨htake', hdrop'⟩ := hdigits hs
    rw [hv']
    simp only [List.head?_cons, if_true, List.drop_succ_cons, List.drop_zero, htake'] at h ⊢
    exact behindDigits_exchanges h hdrop'
  · have hpoint' := mt (hdrop.head?_eq_iff (by decide)).1 hpoint
    rw [if_neg hpoint] at h
    rw [if_neg hpoint']
    exact behindDigits_exchanges h hdrop

theorem isOldOctal_exchanges (ht : e.Exchanges t t') : isOldOctal t' = isOldOctal t := by
  induction t generalizing t' with
  | nil => exact (Trailing.Exchanges.not_nil ht).elim
  | cons c t ih =>
    have hends {d : CodePoint} {s : Text} (hd : d.IsOuter) : isOldOctal (d :: s) = true := by
      have hdigit : ¬(d = '8' || d = '9') = true := fun h => by
        rcases Bool.or_eq_true_iff.1 h with h | h <;>
          exact absurd (of_decide_eq_true h ▸ hd) (by decide)
      rw [isOldOctal, if_neg hdigit, hd.isOctalDigit]
      rfl
    rcases ht.cons_cases with ⟨s, rfl, hs⟩ | ⟨hc, d, s, rfl, hd⟩
    · rw [isOldOctal, isOldOctal, ih hs]
    · rw [hends hc, hends hd]

/-- The letters that name a base behind a zero. -/
def baseLetters : Text := .ofChars ['x', 'X', 'b', 'B', 'o', 'O']

theorem token_eq_of_zero {c : CodePoint} (hc : c ∉ baseLetters) :
    token p ('0' :: c :: t) =
      if c.isOctalDigit && isOldOctal t then
        inBase 8 CodePoint.isOctalDigit runsOn true (p.step 1) (c :: t)
      else decimal p ('0' :: c :: t) := by
  unfold token
  split
  case h_7 heq => cases heq; rfl
  case h_8 hne heq => exact (heq _ _ rfl).elim
  all_goals
    next heq =>
    cases heq
    exact absurd hc (by decide)

theorem token_eq_decimal {c : CodePoint} (hc : c ≠ '0') :
    token p (c :: t) = decimal p (c :: t) := by
  unfold token
  split
  case h_8 => rfl
  all_goals
    next heq =>
    cases heq
    exact (hc rfl).elim

theorem token_exchanges {c : CodePoint} {kind : TokenKind}
    (h : token p (c :: t) = .ok (kind, p', u)) (ht : e.Exchanges t t') :
    ∃ u', token p (c :: t') = .ok (kind, p', u') ∧ e.Exchanges u u' := by
  have hruns (d : CodePoint) (hd : d.IsOuter) : runsOn d = false := by
    rw [runsOn, hd.isNameStart, hd.isDigit]
    rfl
  have hhex (d : CodePoint) (hd : d.IsOuter) : isHexDigit d = false := by
    rw [isHexDigit, hd.hexValue?]
    rfl
  have hbinary (d : CodePoint) (hd : d.IsOuter) : isBinaryDigit d = false := by
    refine Bool.eq_false_iff.2 fun h => ?_
    rcases Bool.or_eq_true_iff.1 h with h | h <;>
      exact absurd (of_decide_eq_true h ▸ hd) (by decide)
  have hdecimal (h : decimal p (c :: t) = .ok (kind, p', u)) := decimal_exchanges h (ht.cons_left c)
  by_cases hzero : c = '0'
  case neg =>
    rw [token_eq_decimal hzero] at h ⊢
    exact hdecimal h
  subst hzero
  obtain ⟨d, t, rfl⟩ := ht.exists_eq_cons
  rcases ht.cons_cases with ⟨s, rfl, hs⟩ | ⟨hd, d', s, rfl, hd'⟩
  · by_cases hletter : d ∈ baseLetters
    · have hletter : d = 'x' ∨ d = 'X' ∨ d = 'b' ∨ d = 'B' ∨ d = 'o' ∨ d = 'O' := by
        simpa [baseLetters, Text.ofChars] using hletter
      rcases hletter with rfl | rfl | rfl | rfl | rfl | rfl
      · exact inBase_exchanges hhex (fun _ => CodePoint.IsOuter.isNameStart) h hs
      · exact inBase_exchanges hhex (fun _ => CodePoint.IsOuter.isNameStart) h hs
      · exact inBase_exchanges hbinary hruns h hs
      · exact inBase_exchanges hbinary hruns h hs
      · exact inBase_exchanges (fun _ => CodePoint.IsOuter.isOctalDigit) hruns h hs
      · exact inBase_exchanges (fun _ => CodePoint.IsOuter.isOctalDigit) hruns h hs
    · rw [token_eq_of_zero hletter] at h ⊢
      rw [isOldOctal_exchanges hs]
      split at h
      · next hold =>
        rw [if_pos hold]
        exact inBase_exchanges (fun _ => CodePoint.IsOuter.isOctalDigit) hruns h ht
      · next hold =>
        rw [if_neg hold]
        exact hdecimal h
  · have hplain {b : CodePoint} (hb : b.IsOuter) : b ∉ baseLetters := fun hmem => by
      have hall : ∀ b ∈ baseLetters, ¬b.IsOuter := by decide
      exact hall b hmem hb
    rw [token_eq_of_zero (hplain hd), hd.isOctalDigit] at h
    rw [token_eq_of_zero (hplain hd'), hd'.isOctalDigit]
    exact hdecimal h

end Number

end Elementwise
