import Elementwise.Proofs.SingleFunction
import Elementwise.Proofs.TokenEnd

/-!
# What stands behind a source

What is written behind a source begins with a blank, a line terminator or a closing parenthesis.
None of these goes on with a token, so each token of the source is read alike whatever of them
follows.

## What is here

* `CodePoint.IsOuter` — what can stand first behind a source: it belongs to no name and to no
  number.
* `Trailing` — two texts of blanks and line terminators that may stand behind a source.
* `Trailing.Exchanges` — two texts that differ in that alone, and what is the same in them.
-/

set_option autoImplicit false
namespace Elementwise

open Anchor

/-! ## What stands behind a source -/

namespace CodePoint

/-- Whether a code point separates tokens and is no part of a comment. -/
def IsGap (c : CodePoint) : Prop := c.isBlank = true ∨ c.isLineTerminator = true

/-- What can stand first behind a source. -/
def IsOuter (c : CodePoint) : Prop := c.IsGap ∨ c = ')'

instance (c : CodePoint) : Decidable c.IsGap := inferInstanceAs (Decidable (_ ∨ _))

instance (c : CodePoint) : Decidable c.IsOuter := inferInstanceAs (Decidable (_ ∨ _))

variable {c : CodePoint}

theorem IsOuter.isNamePart (h : c.IsOuter) : c.isNamePart = false := by
  rcases h with (h | h) | rfl
  · exact isNamePart_of_isBlank h
  · exact isNamePart_of_isLineTerminator h
  · decide +kernel

theorem IsOuter.isNameStart (h : c.IsOuter) : c.isNameStart = false :=
  Bool.eq_false_iff.2 fun hstart =>
    Bool.eq_false_iff.1 h.isNamePart (isNamePart_of_isNameStart hstart)

/-- A digit in base sixteen belongs to a name. -/
theorem isNamePart_of_hexValue? (h : c.hexValue?.isSome = true) : c.isNamePart = true := by
  cases c with
  | surrogate k => cases h
  | scalar c =>
    have hc : 48 ≤ c.toNat ∧ c.toNat ≤ 57 ∨ 97 ≤ c.toNat ∧ c.toNat ≤ 102 ∨
        65 ≤ c.toNat ∧ c.toNat ≤ 70 := by
      simp only [hexValue?, Char.isDigit, Bool.and_eq_true, decide_eq_true_eq, Char.le_def,
        UInt32.le_iff_toNat_le, ge_iff_le] at h
      change ((if 48 ≤ c.toNat ∧ c.toNat ≤ 57 then _
        else if 97 ≤ c.toNat ∧ c.toNat ≤ 102 then _
        else if 65 ≤ c.toNat ∧ c.toNat ≤ 70 then _ else _) : Option Nat).isSome = true at h
      split at h
      · exact .inl ‹_›
      split at h
      · exact .inr (.inl ‹_›)
      split at h
      · exact .inr (.inr ‹_›)
      · cases h
    have hval : (scalar c).val = c.toNat := rfl
    have hlt : (scalar c).val < 0x80 := by omega
    simp only [isNamePart, hlt, if_true, Bool.or_eq_true, Bool.and_eq_true, decide_eq_true_eq,
      beq_iff_eq]
    omega

theorem IsOuter.hexValue? (h : c.IsOuter) : c.hexValue? = none := by
  rw [← Option.not_isSome_iff_eq_none]
  intro hsome
  have := isNamePart_of_hexValue? hsome
  rw [h.isNamePart] at this
  cases this

theorem IsOuter.isDigit (h : c.IsOuter) : c.isDigit = false := by
  have hnone := h.hexValue?
  cases c with
  | surrogate k => rfl
  | scalar c =>
    refine Bool.eq_false_iff.2 fun hdigit => ?_
    simp [CodePoint.hexValue?, show c.isDigit = true from hdigit] at hnone

theorem IsOuter.isOctalDigit (h : c.IsOuter) : c.isOctalDigit = false := by
  have hnone := h.isDigit
  cases c with
  | surrogate k => rfl
  | scalar c =>
    refine Bool.eq_false_iff.2 fun hoctal => ?_
    simp only [CodePoint.isOctalDigit, CodePoint.isDigit, Char.isDigit, Bool.and_eq_true,
      Bool.and_eq_false_iff, decide_eq_true_eq, decide_eq_false_iff_not, Char.le_def,
      UInt32.le_iff_toNat_le, ge_iff_le] at hoctal hnone
    change 48 ≤ c.val.toNat ∧ c.val.toNat ≤ 55 at hoctal
    change ¬48 ≤ c.val.toNat ∨ ¬c.val.toNat ≤ 57 at hnone
    omega

end CodePoint

/-- Two texts of blanks and line terminators, either of which may stand behind a source, in front of
the suffix by which it is called. -/
structure Trailing where
  old : Text
  new : Text
  old_gap : ∀ c ∈ old, c.IsGap
  new_gap : ∀ c ∈ new, c.IsGap

namespace Trailing

variable {e : Trailing} {t t' u : Text} {c d : CodePoint}

/-- The other way round. -/
def swap (e : Trailing) : Trailing := ⟨e.new, e.old, e.new_gap, e.old_gap⟩

/-- Two texts are the same but for what stands behind the source. -/
def Exchanges (e : Trailing) (t t' : Text) : Prop :=
  ∃ u, t = u ++ (e.old ++ callSuffix) ∧ t' = u ++ (e.new ++ callSuffix)

theorem exists_eq_cons {w : Text} (hw : ∀ c ∈ w, c.IsGap) :
    ∃ d s, w ++ callSuffix = d :: s ∧ d.IsOuter := by
  cases w with
  | nil => exact ⟨_, _, rfl, .inr rfl⟩
  | cons d w => exact ⟨d, w ++ callSuffix, rfl, .inl (hw d List.mem_cons_self)⟩

theorem mem_old (h : d ∈ e.old ++ callSuffix) : d.IsOuter ∨ d = '(' := by
  rcases List.mem_append.1 h with h | h
  · exact .inl (.inl (e.old_gap d h))
  · have hall : ∀ d ∈ callSuffix, d.IsOuter ∨ d = '(' := by decide
    exact hall d h

namespace Exchanges

theorem symm (h : e.Exchanges t t') : e.swap.Exchanges t' t :=
  have ⟨u, ht, ht'⟩ := h
  ⟨u, ht', ht⟩

theorem length_pos (h : e.Exchanges t t') : callSuffix.length ≤ t.length := by
  obtain ⟨u, rfl, rfl⟩ := h
  simp only [List.length_append]
  omega

theorem exists_eq_cons (h : e.Exchanges t t') : ∃ c s, t = c :: s :=
  List.exists_cons_of_length_pos (Nat.lt_of_lt_of_le (by decide) h.length_pos)

theorem not_nil : ¬e.Exchanges [] t' := fun h => by
  obtain ⟨c, s, hs⟩ := h.exists_eq_cons
  cases hs

/-- The first characters are the same, or both of them stand behind the source. -/
theorem cons_cases (h : e.Exchanges (c :: t) t') :
    (∃ s, t' = c :: s ∧ e.Exchanges t s) ∨ c.IsOuter ∧ ∃ d s, t' = d :: s ∧ d.IsOuter := by
  obtain ⟨u, ht, rfl⟩ := h
  cases u with
  | nil =>
    obtain ⟨d, s, hs, hd⟩ := Trailing.exists_eq_cons e.old_gap
    rw [List.nil_append, hs] at ht
    cases ht
    exact .inr ⟨hd, Trailing.exists_eq_cons e.new_gap⟩
  | cons d u =>
    cases ht
    exact .inl ⟨_, rfl, u, rfl, rfl⟩

theorem cons_left (c : CodePoint) (h : e.Exchanges t t') : e.Exchanges (c :: t) (c :: t') :=
  have ⟨u, ht, ht'⟩ := h
  ⟨c :: u, congrArg _ ht, congrArg _ ht'⟩

/-- What cannot stand first behind a source stands in both texts. -/
theorem cons (h : e.Exchanges (c :: t) t') (hc : ¬c.IsOuter) :
    ∃ s, t' = c :: s ∧ e.Exchanges t s := h.cons_cases.resolve_right fun h => hc h.1

/-- What stands in front of something that does not stand behind a source does so in both texts. -/
theorem cons_of_mem (h : e.Exchanges (c :: t) t') (hd : d ∈ c :: t)
    (hout : ¬(d.IsOuter ∨ d = '(')) : ∃ s, t' = c :: s ∧ e.Exchanges t s := by
  obtain ⟨u, ht, rfl⟩ := h
  cases u with
  | nil =>
    rw [ht] at hd
    exact (hout (mem_old hd)).elim
  | cons d u =>
    cases ht
    exact ⟨_, rfl, u, rfl, rfl⟩

/-- In front of something that does not stand behind a source both texts begin alike. -/
theorem head?_eq (h : e.Exchanges t t') (hd : d ∈ t) (hout : ¬(d.IsOuter ∨ d = '(')) :
    t'.head? = t.head? := by
  obtain ⟨c, s, rfl⟩ := h.exists_eq_cons
  obtain ⟨s', rfl, -⟩ := h.cons_of_mem hd hout
  rfl

theorem ne_cons {v : Text} (h : e.Exchanges t (c :: v)) (hd : d ∈ t)
    (hout : ¬(d.IsOuter ∨ d = '(')) (hne : ∀ v, t = c :: v → False) : False :=
  have ⟨v, hv⟩ := List.head?_eq_some_iff.1 (h.head?_eq hd hout).symm
  hne v hv

theorem any_head? {f : CodePoint → Bool} (h : e.Exchanges t t')
    (hf : ∀ c : CodePoint, c.IsOuter → f c = false) : t'.head?.any f = t.head?.any f := by
  obtain ⟨c, s, rfl⟩ := h.exists_eq_cons
  rcases h.cons_cases with ⟨s', rfl, -⟩ | ⟨hc, d, s', rfl, hd⟩
  · rfl
  · simp [hf c hc, hf d hd]

theorem head?_eq_iff (h : e.Exchanges t t') (hd : ¬d.IsOuter) :
    t'.head? = some d ↔ t.head? = some d := by
  have hany := h.any_head? (f := (· = d)) fun c hc => decide_eq_false fun heq => hd (heq ▸ hc)
  obtain ⟨c, s, rfl⟩ := h.exists_eq_cons
  obtain ⟨c', s', rfl⟩ := h.symm.exists_eq_cons
  simpa using hany

theorem takeWhile {f : CodePoint → Bool} (h : e.Exchanges t t')
    (hf : ∀ c : CodePoint, c.IsOuter → f c = false) :
    t'.takeWhile f = t.takeWhile f ∧ e.Exchanges (t.dropWhile f) (t'.dropWhile f) := by
  induction t generalizing t' with
  | nil => exact (not_nil h).elim
  | cons c t ih =>
    rcases h.cons_cases with ⟨s, rfl, hs⟩ | ⟨hc, d, s, rfl, hd⟩
    · obtain ⟨htake, hdrop⟩ := ih hs
      by_cases hc : f c = true
      · simp only [List.takeWhile_cons_of_pos hc, List.dropWhile_cons_of_pos hc, htake]
        exact ⟨trivial, hdrop⟩
      · simp only [List.takeWhile_cons_of_neg hc, List.dropWhile_cons_of_neg hc]
        exact ⟨trivial, h⟩
    · have hc : ¬f c = true := by simp [hf c hc]
      have hd : ¬f d = true := by simp [hf d hd]
      simp only [List.takeWhile_cons_of_neg hc, List.dropWhile_cons_of_neg hc,
        List.takeWhile_cons_of_neg hd, List.dropWhile_cons_of_neg hd]
      exact ⟨trivial, h⟩

/-- What is read of two texts, up to where they differ in what stands behind the source alone. -/
theorem take_eq {v v' : Text} {n : Nat} (h : e.Exchanges t t') (hv : e.Exchanges v v')
    (hn : n + v.length ≤ t.length) : t'.take n = t.take n := by
  obtain ⟨u, rfl, rfl⟩ := h
  obtain ⟨w, rfl, rfl⟩ := hv
  simp only [List.length_append] at hn
  rw [List.take_append_of_le_length (by omega), List.take_append_of_le_length (by omega)]

end Exchanges
end Trailing

end Elementwise
