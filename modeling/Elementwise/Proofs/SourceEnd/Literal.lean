import Elementwise.Proofs.SourceEnd.Word
import Elementwise.Proofs.StringSpelling

/-!
# Strings, templates and regular expressions in front of the end of a source

What ends with a mark of its own is read up to this mark.  If it is not found in the source, it is
not found behind it.

## What is here

* `StringLiteral.token_exchanges`, `Template.token_exchanges`, `Regex.read_exchanges` — one for each
  of them.
-/

set_option autoImplicit false
namespace Elementwise

open Anchor

variable {e : Trailing} {p p' : Place} {t t' u : Text}

/-! ## Strings -/

namespace StringLiteral

theorem escape_exchanges {c d : CodePoint} {octal : Bool}
    (h : escape c p t = .ok (d, octal, p', u)) (ht : e.Exchanges t t') :
    ∃ u', escape c p t' = .ok (d, octal, p', u') ∧ e.Exchanges u u' := by
  unfold escape at h ⊢
  split at h
  · next hu =>
    rw [if_pos hu]
    split at h
    · next t =>
      obtain ⟨s, rfl, hs⟩ := ht.cons (by decide)
      split at h
      · next hread =>
        cases h
        obtain ⟨u', hread', hu'⟩ := Escape.braced_exchanges hread hs
        exact ⟨u', by simp only [hread'], hu'⟩
      · cases h
    · next hbrace =>
      split at h
      · next hread =>
        cases h
        obtain ⟨u', hread', hu'⟩ := Escape.hexDigits_exchanges hread ht
        refine ⟨u', ?_, hu'⟩
        split
        · next s =>
          obtain ⟨v, hv⟩ := List.head?_eq_some_iff.1 ((ht.head?_eq_iff (by decide)).1 rfl)
          exact (hbrace v hv).elim
        · rw [hread']
      · cases h
  · next hu =>
    rw [if_neg hu]
    split at h
    · next hx =>
      rw [if_pos hx]
      split at h
      · next hread =>
        cases h
        obtain ⟨u', hread', hu'⟩ := Escape.hexDigits_exchanges hread ht
        exact ⟨u', by rw [hread'], hu'⟩
      · cases h
    · next hx =>
      rw [if_neg hx]
      split at h
      · cases h
      · next hdigit =>
        rw [if_neg hdigit]
        split at h
        · next hoctal =>
          obtain ⟨u', hread', hu'⟩ := Escape.octal_exchanges (Except.ok.inj h) ht
          exact ⟨u', by rw [if_pos hoctal, hread'], hu'⟩
        · next hoctal =>
          cases h
          exact ⟨t', if_neg hoctal, ht⟩

/-- What stands behind a source holds no quote, so a string that ends ends in the source. -/
theorem body_exchanges {quote : CodePoint} {start fuel fuel' : Nat} {done value : Text}
    {octal octal' : Bool} (hquote : ¬(quote.IsOuter ∨ quote = '('))
    (h : body quote start fuel done octal p t = .ok (value, octal', p', u)) (ht : e.Exchanges t t')
    (hfuel' : t'.length < fuel') :
    ∃ u', body quote start fuel' done octal p t' = .ok (value, octal', p', u') ∧
      e.Exchanges u u' := by
  have hmem {s : Text} (hs : quote :: u <:+ s) : quote ∈ s := hs.subset List.mem_cons_self
  have hends := ends_body h
  fun_induction body quote start fuel done octal p t generalizing t' fuel' with
  | case1 fuel done octal p t =>
    cases h
    obtain ⟨s, rfl, hs⟩ := ht.cons_of_mem (hmem hends) hquote
    obtain ⟨fuel', rfl⟩ : ∃ n, fuel' = n + 1 := ⟨fuel' - 1, by omega⟩
    exact ⟨s, by simp only [body, if_true], hs⟩
  | case2 fuel done octal p t hc ih =>
    have hends := ends_body h
    have hmem' := hmem hends
    obtain ⟨s₁, rfl, hs₁⟩ := ht.cons_of_mem (by simp [hmem']) hquote
    obtain ⟨s₂, rfl, hs₂⟩ := hs₁.cons_of_mem (by simp [hmem']) hquote
    obtain ⟨s, rfl, hs⟩ := hs₂.cons_of_mem (by simp [hmem']) hquote
    simp only [List.length_cons] at hfuel'
    obtain ⟨fuel', rfl⟩ : ∃ n, fuel' = n + 1 := ⟨fuel' - 1, by omega⟩
    simp only [body, hc, if_true, if_false]
    exact ih h hs (by omega) hends
  | case3 fuel done octal p d t hpair hend hc ih =>
    have hends := ends_body h
    have hmem' := hmem hends
    obtain ⟨s₁, rfl, hs₁⟩ := ht.cons_of_mem (by simp [hmem']) hquote
    obtain ⟨s, rfl, hs⟩ := hs₁.cons_of_mem (by simp [hmem']) hquote
    simp only [List.length_cons] at hfuel'
    obtain ⟨fuel', rfl⟩ : ∃ n, fuel' = n + 1 := ⟨fuel' - 1, by omega⟩
    have hpair' (v : Text) (hd : d = .scalar '\r') (hv : s = .scalar '\n' :: v) : False :=
      (hv ▸ hs).ne_cons hmem' hquote fun v => hpair v hd
    simp only [body, hc, hend, if_true, if_false]
    exact ih h hs (by omega) hends
  | case4 fuel done octal p d t hpair hend x isOctal q v hescape hc ih =>
    have hends := ends_body h
    have hmem' := (reaches_escape hescape).suffix.subset (hmem hends)
    obtain ⟨s₁, rfl, hs₁⟩ := ht.cons_of_mem (by simp [hmem']) hquote
    obtain ⟨s, rfl, hs⟩ := hs₁.cons_of_mem (by simp [hmem']) hquote
    obtain ⟨v', hescape', hv⟩ := escape_exchanges hescape hs
    have hle := (reaches_escape hescape').suffix.length_le
    simp only [List.length_cons] at hfuel'
    obtain ⟨fuel', rfl⟩ : ∃ n, fuel' = n + 1 := ⟨fuel' - 1, by omega⟩
    have hpair' (v : Text) (hd : d = .scalar '\r') (hv : s = .scalar '\n' :: v) : False :=
      (hv ▸ hs).ne_cons hmem' hquote fun v => hpair v hd
    simp only [body, hc, hend, hescape', if_true, if_false]
    exact ih h hv (by omega) hends
  | case8 fuel done octal p c t hc hslash hend ih =>
    obtain ⟨s, rfl, hs⟩ := ht.cons_of_mem (hmem hends) hquote
    rw [List.length_cons] at hfuel'
    obtain ⟨fuel', rfl⟩ : ∃ n, fuel' = n + 1 := ⟨fuel' - 1, by omega⟩
    simp only [body, if_neg hc, if_neg hslash, if_neg hend]
    exact ih h hs (by omega) (ends_body h)
  | case5 | case6 | case7 | case9 => cases h

theorem token_exchanges {quote : CodePoint} {kind : TokenKind}
    (hquote : ¬(quote.IsOuter ∨ quote = '('))
    (h : token quote p t = .ok (kind, p', u)) (ht : e.Exchanges t t') :
    ∃ u', token quote p t' = .ok (kind, p', u') ∧ e.Exchanges u u' := by
  unfold token at h ⊢
  split at h
  · next hbody =>
    cases h
    obtain ⟨u', hbody', hu⟩ := body_exchanges hquote hbody ht (Nat.lt_succ_self _)
    have htotal := (reaches_body hbody).total
    have htake : t'.take (p'.index - p.index - 2) = t.take (p'.index - p.index - 2) :=
      ht.take_eq hu
        (by have := (reaches_body hbody).le; simp only [Place.step] at this htotal; omega)
    exact ⟨u', by simp only [hbody', htake], hu⟩
  · cases h

end StringLiteral

/-! ## Templates -/

namespace Template

theorem escape_exchanges {c d : CodePoint} (h : escape c p t = .ok (d, p', u))
    (ht : e.Exchanges t t') : ∃ u', escape c p t' = .ok (d, p', u') ∧ e.Exchanges u u' := by
  unfold escape at h ⊢
  split at h
  · next hu =>
    rw [if_pos hu]
    split at h
    · next t =>
      obtain ⟨s, rfl, hs⟩ := ht.cons (by decide)
      exact Escape.braced_exchanges h hs
    · next hbrace =>
      split
      · next s =>
        obtain ⟨v, hv⟩ := List.head?_eq_some_iff.1 ((ht.head?_eq_iff (by decide)).1 rfl)
        exact (hbrace v hv).elim
      split at h
      · next hread =>
        cases h
        obtain ⟨u', hread', hu'⟩ := Escape.hexDigits_exchanges hread ht
        exact ⟨u', by rw [hread'], hu'⟩
      · next hread =>
        cases h
        obtain ⟨u', hread', -⟩ := Escape.hexDigits_exchanges hread ht
        exact ⟨t', by rw [hread'], ht⟩
  · next hu =>
    rw [if_neg hu]
    split at h
    · next hx =>
      rw [if_pos hx]
      split at h
      · next hread =>
        cases h
        obtain ⟨u', hread', hu'⟩ := Escape.hexDigits_exchanges hread ht
        exact ⟨u', by rw [hread'], hu'⟩
      · cases h
    · next hx =>
      rw [if_neg hx, ht.any_head? fun _ => CodePoint.IsOuter.isDigit]
      split at h
      · next hzero =>
        rw [if_pos hzero]
        split at h
        · cases h
        · next hdigit =>
          cases h
          exact ⟨t', if_neg hdigit, ht⟩
      · next hzero =>
        rw [if_neg hzero]
        split at h
        · cases h
        · next hoctal =>
          cases h
          exact ⟨t', if_neg hoctal, ht⟩

/-- What is read for a piece of a template holds a back quote or a brace. -/
theorem exists_mem_body {fuel : Nat} {done value : Text} {tail : Bool}
    (h : body fuel done p t = .ok (value, tail, p', u)) :
    ∃ c ∈ t, ¬(c.IsOuter ∨ c = '(') := by
  fun_induction body fuel done p t
  case case1 => exact ⟨quote, List.mem_cons_self, by decide⟩
  case case2 c t _ hbrace =>
    obtain ⟨-, hhead⟩ : c = '$' ∧ t.head? = some (.scalar '{') := by simpa using hbrace
    exact ⟨'{', List.mem_cons_of_mem _ (List.mem_of_mem_head? hhead), by decide⟩
  case case5 hescape _ _ ih =>
    obtain ⟨c, hc, hout⟩ := ih h
    have hc := (reaches_escape hescape).suffix.subset hc
    exact ⟨c, List.mem_cons_of_mem _ (List.mem_cons_of_mem _ hc), hout⟩
  case case8 ih =>
    obtain ⟨c, hc, hout⟩ := ih h
    exact ⟨c, List.mem_cons_of_mem _ (List.mem_of_mem_drop hc), hout⟩
  case case6 | case7 | case11 => cases h
  all_goals
    next ih =>
    obtain ⟨c, hc, hout⟩ := ih h
    exact ⟨c, by simp [hc], hout⟩

theorem body_exchanges {fuel fuel' : Nat} {done value : Text} {tail : Bool}
    (h : body fuel done p t = .ok (value, tail, p', u)) (ht : e.Exchanges t t')
    (hfuel' : t'.length < fuel') :
    ∃ u', body fuel' done p t' = .ok (value, tail, p', u') ∧ e.Exchanges u u' := by
  obtain ⟨fuel', rfl⟩ : ∃ n, fuel' = n + 1 := ⟨fuel' - 1, by omega⟩
  fun_induction body fuel done p t generalizing t' fuel' with
  | case1 fuel done p t =>
    cases h
    obtain ⟨s, rfl, hs⟩ := ht.cons (by decide)
    exact ⟨s, by simp only [body, if_true], hs⟩
  | case2 fuel done p c t hc hbrace =>
    cases h
    obtain ⟨rfl, hhead⟩ : c = '$' ∧ t.head? = some (.scalar '{') := by simpa using hbrace
    obtain ⟨u, rfl⟩ := List.head?_eq_some_iff.1 hhead
    obtain ⟨s₁, rfl, hs₁⟩ := ht.cons (by decide)
    obtain ⟨s, rfl, hs⟩ := hs₁.cons (by decide)
    exact ⟨s, rfl, hs⟩
  | case3 fuel done p t hc hbrace ih =>
    obtain ⟨q, hq, hout⟩ := exists_mem_body h
    obtain ⟨s₁, rfl, hs₁⟩ := ht.cons_of_mem (by simp [hq]) hout
    obtain ⟨s₂, rfl, hs₂⟩ := hs₁.cons_of_mem (by simp [hq]) hout
    obtain ⟨s, rfl, hs⟩ := hs₂.cons_of_mem (by simp [hq]) hout
    simp only [List.length_cons] at hfuel'
    obtain ⟨fuel', rfl⟩ : ∃ n, fuel' = n + 1 := ⟨fuel' - 1, by omega⟩
    exact ih h hs _ (by omega)
  | case4 fuel done p d t hpair hend hc hbrace ih =>
    obtain ⟨q, hq, hout⟩ := exists_mem_body h
    obtain ⟨s₁, rfl, hs₁⟩ := ht.cons_of_mem (by simp [hq]) hout
    obtain ⟨s, rfl, hs⟩ := hs₁.cons_of_mem (by simp [hq]) hout
    simp only [List.length_cons] at hfuel'
    obtain ⟨fuel', rfl⟩ : ∃ n, fuel' = n + 1 := ⟨fuel' - 1, by omega⟩
    have hpair' (v : Text) (hd : d = .scalar '\r') (hv : s = .scalar '\n' :: v) : False :=
      (hv ▸ hs).ne_cons hq hout fun v => hpair v hd
    simp only [body, hc, hend, if_true, if_false]
    exact ih h hs _ (by omega)
  | case5 fuel done p d t hpair hend x r v hescape hc hbrace ih =>
    obtain ⟨q, hq, hout⟩ := exists_mem_body h
    have hq := (reaches_escape hescape).suffix.subset hq
    obtain ⟨s₁, rfl, hs₁⟩ := ht.cons_of_mem (by simp [hq]) hout
    obtain ⟨s, rfl, hs⟩ := hs₁.cons_of_mem (by simp [hq]) hout
    obtain ⟨v', hescape', hv⟩ := escape_exchanges hescape hs
    have hle := (reaches_escape hescape').suffix.length_le
    simp only [List.length_cons] at hfuel'
    obtain ⟨fuel', rfl⟩ : ∃ n, fuel' = n + 1 := ⟨fuel' - 1, by omega⟩
    have hpair' (v : Text) (hd : d = .scalar '\r') (hv : s = .scalar '\n' :: v) : False :=
      (hv ▸ hs).ne_cons hq hout fun v => hpair v hd
    simp only [body, hc, hend, hescape', if_true, if_false]
    exact ih h hv _ (by omega)
  | case8 fuel done p c t hc hbrace hslash hend hpair ih =>
    obtain ⟨rfl, hhead⟩ : c = '\r' ∧ t.head? = some (.scalar '\n') := by simpa using hpair
    obtain ⟨t, rfl⟩ := List.head?_eq_some_iff.1 hhead
    obtain ⟨q, hq, hout⟩ := exists_mem_body h
    have hq : q ∈ t := hq
    obtain ⟨s₁, rfl, hs₁⟩ := ht.cons_of_mem (by simp [hq]) hout
    obtain ⟨s, rfl, hs⟩ := hs₁.cons_of_mem (by simp [hq]) hout
    simp only [List.length_cons] at hfuel'
    obtain ⟨fuel', rfl⟩ : ∃ n, fuel' = n + 1 := ⟨fuel' - 1, by omega⟩
    exact ih h hs _ (by omega)
  | case9 fuel done p c t hc hbrace hslash hend hpair ih =>
    obtain ⟨q, hq, hout⟩ := exists_mem_body h
    obtain ⟨s, rfl, hs⟩ := ht.cons_of_mem (by simp [hq]) hout
    rw [← hs.head?_eq hq hout] at hbrace hpair
    simp only [List.length_cons] at hfuel'
    obtain ⟨fuel', rfl⟩ : ∃ n, fuel' = n + 1 := ⟨fuel' - 1, by omega⟩
    simp only [body, if_neg hc, if_neg hbrace, if_neg hslash, if_pos hend, if_neg hpair]
    exact ih h hs _ (by omega)
  | case10 fuel done p c t hc hbrace hslash hend ih =>
    obtain ⟨q, hq, hout⟩ := exists_mem_body h
    obtain ⟨s, rfl, hs⟩ := ht.cons_of_mem (by simp [hq]) hout
    rw [← hs.head?_eq hq hout] at hbrace
    simp only [List.length_cons] at hfuel'
    obtain ⟨fuel', rfl⟩ : ∃ n, fuel' = n + 1 := ⟨fuel' - 1, by omega⟩
    simp only [body, if_neg hc, if_neg hbrace, if_neg hslash, if_neg hend]
    exact ih h hs _ (by omega)
  | case6 | case7 | case11 => cases h

theorem token_exchanges {head : Bool} {kind : TokenKind} (h : token head p t = .ok (kind, p', u))
    (ht : e.Exchanges t t') : ∃ u', token head p t' = .ok (kind, p', u') ∧ e.Exchanges u u' := by
  unfold token at h ⊢
  split at h
  · next tail _ _ hbody =>
    cases h
    obtain ⟨u', hbody', hu⟩ := body_exchanges hbody ht (Nat.lt_succ_self _)
    have hreach := reaches_body hbody
    have hle := hreach.le
    have htotal := hreach.total
    simp only [Place.step] at hle htotal
    have htake := ht.take_eq (n := p'.index - p.index - (if tail then 2 else 3)) hu
      (by split <;> omega)
    refine ⟨u', ?_, hu⟩
    simp only [hbody']
    rw [htake]
  · cases h

end Template

/-! ## Regular expressions -/

namespace Regex

theorem mem_pattern {inClass : Bool} {done body : Text}
    (h : pattern inClass done p t = .ok (body, p', u)) : .scalar '/' ∈ t := by
  fun_induction pattern inClass done p t
  case case1 | case2 | case4 => cases h
  case case3 ih => exact List.mem_cons_of_mem _ (List.mem_cons_of_mem _ (ih h))
  case case5 ih | case7 ih => exact List.mem_cons_of_mem _ (ih h)
  case case6 => exact List.mem_cons_self

/-- A pattern ends with its slash, and none stands behind a source. -/
theorem pattern_exchanges {inClass : Bool} {done body : Text}
    (h : pattern inClass done p t = .ok (body, p', u)) (ht : e.Exchanges t t') :
    ∃ u', pattern inClass done p t' = .ok (body, p', u') ∧ e.Exchanges u u' := by
  have hslash : ¬(CodePoint.IsOuter '/' ∨ (.scalar '/' : CodePoint) = '(') := by decide
  fun_induction pattern inClass done p t generalizing t' with
  | case3 inClass done p c t hend ih =>
    have hmem := mem_pattern h
    obtain ⟨s₁, rfl, hs₁⟩ := ht.cons_of_mem (by simp [hmem]) hslash
    obtain ⟨s, rfl, hs⟩ := hs₁.cons_of_mem (by simp [hmem]) hslash
    rw [pattern, if_neg hend]
    exact ih h hs
  | case5 done p c t hne hend ih =>
    have hmem := mem_pattern h
    obtain ⟨s, rfl, hs⟩ := ht.cons_of_mem (by simp [hmem]) hslash
    have hc : c ≠ '\\' := fun hc =>
      have ⟨d, v, hv⟩ := List.exists_cons_of_ne_nil (List.ne_nil_of_mem hmem)
      hne d v hc hv
    rw [pattern, if_neg hend, if_pos rfl]
    · exact ih h hs
    · exact fun _ _ h _ => hc h
  | case6 inClass done p t hclass hne hend =>
    cases h
    obtain ⟨s, rfl, hs⟩ := ht.cons (by decide)
    exact ⟨s, by simp [pattern, hclass, hend], hs⟩
  | case7 inClass done p c t hne hend hclass hc ih =>
    have hmem := mem_pattern h
    obtain ⟨s, rfl, hs⟩ := ht.cons_of_mem (by simp [hmem]) hslash
    have hbackslash : c ≠ '\\' := fun hc =>
      have ⟨d, v, hv⟩ := List.exists_cons_of_ne_nil (List.ne_nil_of_mem hmem)
      hne d v hc hv
    rw [pattern, if_neg hend, if_neg hclass, if_neg hc]
    · exact ih h hs
    · exact fun _ _ h _ => hbackslash h
  | case1 | case2 | case4 => cases h

theorem flags_exchanges {done marks : Text} (h : flags done p t = .ok (marks, p', u))
    (ht : e.Exchanges t t') : ∃ u', flags done p t' = .ok (marks, p', u') ∧ e.Exchanges u u' := by
  fun_induction flags done p t generalizing t' with
  | case4 done p c t hc hpart ih =>
    obtain ⟨s, rfl, hs⟩ := ht.cons fun hout => by simp [hout.isNamePart] at hpart
    unfold flags
    rw [if_neg hc, if_pos hpart]
    exact ih h hs
  | case5 done p c t hc hpart =>
    cases h
    obtain ⟨d, s, rfl⟩ := ht.symm.exists_eq_cons
    have hd : d ≠ '\\' ∧ ¬d.isNamePart = true := by
      rcases ht.cons_cases with ⟨_, ⟨⟩, -⟩ | ⟨-, _, _, ⟨⟩, hd⟩
      · exact ⟨hc, hpart⟩
      · exact ⟨fun heq => absurd (heq ▸ hd) (by decide), by simp [hd.isNamePart]⟩
    refine ⟨d :: s, ?_, ht⟩
    unfold flags
    rw [if_neg hd.1, if_neg hd.2]
  | case6 => exact (Trailing.Exchanges.not_nil ht).elim
  | case1 | case2 | case3 => cases h

theorem mem_of_read {body marks : Text} (h : read p t = .ok (body, marks, p', u)) :
    .scalar '/' ∈ t := by
  unfold read at h
  split at h
  · cases h
  · next hpattern => exact mem_pattern hpattern

theorem read_exchanges {body marks : Text} (h : read p t = .ok (body, marks, p', u))
    (ht : e.Exchanges t t') : ∃ u', read p t' = .ok (body, marks, p', u') ∧ e.Exchanges u u' := by
  unfold read at h ⊢
  split at h
  · cases h
  · next hpattern =>
    obtain ⟨v, hpattern', hv⟩ := pattern_exchanges hpattern ht
    rw [hpattern']
    dsimp only
    split at h
    · cases h
    · next hflags =>
      obtain ⟨w, hflags', hw⟩ := flags_exchanges hflags hv
      rw [hflags']
      dsimp only
      split at h
      · next hgood =>
        cases h
        exact ⟨w, if_pos hgood, hw⟩
      · cases h

end Regex

end Elementwise
