import Elementwise.Proofs.TokenEnd

/-!
# How names are spelled

A name is told by its own spelling, escapes included.  Neither the place where it stands plays a
part in it nor what follows, as long as no name goes on there.  So a name that is left as it was
written is the same name wherever it has moved.

## What is here

* `Escape.hexDigits_local`, `Escape.braced_local`, `Name.escape_local` — an escape is read alike
  whatever follows it.
* `Name.Begins` — a text begins with a name; `Name.Begins.spelled` says how it is spelled,
  `Name.Begins.head_spelled` that its first character does not depend on what follows either, and
  `Name.Begins.unique` that a text begins with one name only.
-/

set_option autoImplicit false
namespace Elementwise

variable {p p' : Place} {t t' : Text}

/-! ## Escapes -/

namespace Escape

theorem hexDigits_local {n value r : Nat} (h : hexDigits n value p t = (some r, p', t')) :
    ∃ w, t = w ++ t' ∧ ∀ u q, ∃ q', hexDigits n value q (w ++ u) = (some r, q', u) := by
  fun_induction hexDigits n value p t with
  | case1 =>
    cases h
    exact ⟨[], rfl, fun u q => ⟨q, rfl⟩⟩
  | case2 => cases h
  | case3 n value p c t d hd ih =>
    obtain ⟨w, rfl, hw⟩ := ih h
    refine ⟨c :: w, rfl, fun u q => ?_⟩
    rw [List.cons_append, hexDigits, hd]
    exact hw u _
  | case4 => cases h

theorem bracedDigits_local {value : Nat} {c : CodePoint}
    (h : bracedDigits value p t = .ok (c, p', t')) :
    ∃ w, w ≠ [] ∧ t = w ++ t' ∧
      ∀ u q, ∃ q', bracedDigits value q (w ++ u) = .ok (c, q', u) := by
  fun_induction bracedDigits value p t with
  | case1 => cases h
  | case2 value p c t d hd ih =>
    obtain ⟨w, -, rfl, hw⟩ := ih h
    refine ⟨c :: w, List.cons_ne_nil c w, rfl, fun u q => ?_⟩
    rw [List.cons_append, bracedDigits, hd]
    exact hw u _
  | case3 value p c t hd hend =>
    cases h
    refine ⟨[c], List.cons_ne_nil c [], rfl, fun u q => ⟨q.step 1, ?_⟩⟩
    rw [List.singleton_append, bracedDigits, hd]
    exact if_pos hend
  | case4 => cases h

theorem braced_local {c : CodePoint} (h : braced p t = .ok (c, p', t')) :
    ∃ w, t = w ++ t' ∧ ∀ u q, ∃ q', braced q (w ++ u) = .ok (c, q', u) := by
  unfold braced at h
  split at h
  · cases h
  · next hempty =>
    obtain ⟨w, hne, rfl, hw⟩ := bracedDigits_local h
    refine ⟨w, rfl, fun u q => ?_⟩
    -- what follows is not looked at
    have hhead (u : Text) : (w ++ u).head? = w.head? := by
      cases w with
      | nil => exact (hne rfl).elim
      | cons => rfl
    rw [hhead] at hempty
    rw [braced, hhead, if_neg hempty]
    exact hw u q

end Escape

namespace Name

variable {allowed : CodePoint → Bool} {c : CodePoint} {fuel : Nat} {done name name' u u' : Text}

/-- **An escape is read alike whatever follows it.** -/
theorem escape_local (h : escape allowed p t = .ok (c, p', t')) :
    ∃ w, t = w ++ t' ∧ ∀ u q, ∃ q', escape allowed q (w ++ u) = .ok (c, q', u) := by
  unfold escape at h
  split at h
  · obtain ⟨w, rfl, hw⟩ := Escape.braced_local h
    exact ⟨.scalar 'u' :: .scalar '{' :: w, rfl, fun u q => hw u (q.step 2)⟩
  · next t hbrace =>
    split at h
    · next hread =>
      dsimp only at h
      split at h
      · next hallowed =>
        cases h
        obtain ⟨w, rfl, hw⟩ := Escape.hexDigits_local hread
        refine ⟨.scalar 'u' :: w, rfl, fun u q => ?_⟩
        obtain ⟨q', hq'⟩ := hw u (q.step 1)
        -- four digits do not begin with a brace
        have hbrace (v : Text) : w ++ u ≠ .scalar '{' :: v := by
          intro heq
          rw [heq] at hq'
          cases hq'
        refine ⟨q', ?_⟩
        rw [List.cons_append, escape, hq']
        · exact if_pos hallowed
        · exact hbrace
      · cases h
    · cases h
  · cases h

/-! ## Names -/

theorem rest_local (h : rest fuel done p t = .ok (name, p', t')) :
    ∃ w, t = w ++ t' ∧ ∀ u, (∀ c ∈ u.head?, c.isNamePart = false) → ∀ fuel' q,
      (w ++ u).length ≤ fuel' → ∃ q', rest fuel' done q (w ++ u) = .ok (name, q', u) := by
  have hend {done u : Text} (hu : ∀ c ∈ u.head?, c.isNamePart = false) (fuel' : Nat) (q : Place) :
      rest fuel' done q u = .ok (done.reverse, q, u) := by
    cases u with
    | nil => cases fuel' <;> rfl
    | cons c u =>
      cases fuel' with
      | zero => rfl
      | succ fuel' =>
        have hc : c.isNamePart = false := hu c rfl
        have hbackslash : c ≠ '\\' := by
          rintro rfl
          exact absurd hc (by decide)
        rw [rest, if_neg hbackslash, hc]
        rfl
  fun_induction rest fuel done p t with
  | case1 fuel done p t d r v hescape ih =>
    obtain ⟨a, rfl, ha⟩ := escape_local hescape
    obtain ⟨w, rfl, hw⟩ := ih h
    refine ⟨.scalar '\\' :: (a ++ w), by simp, fun u hu fuel' q hfuel => ?_⟩
    obtain ⟨fuel', rfl⟩ : ∃ n, fuel' = n + 1 := ⟨fuel' - 1, by simp at hfuel; omega⟩
    obtain ⟨q', hq'⟩ := ha (w ++ u) (q.step 1)
    rw [List.cons_append, List.append_assoc, rest, if_pos rfl, hq']
    exact hw u hu fuel' q' (by simp at hfuel ⊢; omega)
  | case2 => cases h
  | case3 fuel done p c t hc hpart ih =>
    obtain ⟨w, rfl, hw⟩ := ih h
    refine ⟨c :: w, rfl, fun u hu fuel' q hfuel => ?_⟩
    obtain ⟨fuel', rfl⟩ : ∃ n, fuel' = n + 1 := ⟨fuel' - 1, by simp at hfuel; omega⟩
    rw [List.cons_append, rest, if_neg hc, if_pos hpart]
    exact hw u hu fuel' _ (by simp at hfuel ⊢; omega)
  | case4 | case5 =>
    cases h
    exact ⟨[], rfl, fun u hu fuel' q _ => ⟨q, hend hu fuel' q⟩⟩

/-- What has been read of a name stays. -/
theorem prefix_of_rest (h : rest fuel done p t = .ok (name, p', t')) : done.reverse <+: name := by
  fun_induction rest fuel done p t with
  | case1 fuel done p t d r v _ ih =>
    exact .trans (by rw [List.reverse_cons]; exact List.prefix_append _ _) (ih h)
  | case2 => cases h
  | case3 fuel done p c t _ _ ih =>
    exact .trans (by rw [List.reverse_cons]; exact List.prefix_append _ _) (ih h)
  | case4 | case5 =>
    cases h
    exact List.prefix_rfl

/-- A text begins with a name, whatever place it has. -/
def Begins (name t t' : Text) : Prop :=
  (∃ c ∈ t.head?, c.isNameStart = true) ∧ ∃ p p', read p t = .ok (name, p', t')

/-- **A name is read alike wherever it stands**, in front of what does not go on with one. -/
theorem Begins.spelled (h : Begins name t t') :
    ∃ w, t = w ++ t' ∧ (∃ c ∈ w.head?, c.isNameStart = true) ∧
      ∀ u, (∀ c ∈ u.head?, c.isNamePart = false) →
        ∀ q, ∃ q', read q (w ++ u) = .ok (name, q', u) := by
  obtain ⟨⟨c, hc, hstart⟩, p, p', hread⟩ := h
  obtain ⟨t, rfl⟩ := List.head?_eq_some_iff.1 hc
  rw [read] at hread
  split at hread
  · next hbackslash =>
    split at hread
    · next hescape =>
      obtain ⟨a, rfl, ha⟩ := escape_local hescape
      obtain ⟨w, rfl, hw⟩ := rest_local hread
      refine ⟨c :: (a ++ w), by simp, ⟨c, rfl, hstart⟩, fun u hu q => ?_⟩
      obtain ⟨q', hq'⟩ := ha (w ++ u) (q.step 1)
      rw [List.cons_append, List.append_assoc, read, if_pos hbackslash, hq']
      exact hw u hu _ q' (by simp)
    · cases hread
  · next hbackslash =>
    obtain ⟨w, rfl, hw⟩ := rest_local hread
    refine ⟨c :: w, rfl, ⟨c, rfl, hstart⟩, fun u hu q => ?_⟩
    rw [List.cons_append, read, if_neg hbackslash]
    exact hw u hu _ _ (Nat.le_refl _)

/-- A name keeps its first character, even where it goes on. -/
theorem Begins.head_spelled (h : Begins name t t') :
    ∃ w, t = w ++ t' ∧ (∃ c ∈ w.head?, c.isNameStart = true) ∧
      ∀ u q name' q' u', read q (w ++ u) = .ok (name', q', u') → name'.head? = name.head? := by
  obtain ⟨⟨c, hc, hstart⟩, p, p', hread⟩ := h
  obtain ⟨t, rfl⟩ := List.head?_eq_some_iff.1 hc
  have hhead {d : CodePoint} {name : Text} (h : [d] <+: name) : name.head? = some d := by
    obtain ⟨_, rfl⟩ := h
    rfl
  rw [read] at hread
  split at hread
  · next hbackslash =>
    split at hread
    · next d r v hescape =>
      obtain ⟨a, rfl, ha⟩ := escape_local hescape
      have hname := hhead (prefix_of_rest hread)
      obtain ⟨w, rfl, -⟩ := rest_local hread
      refine ⟨c :: (a ++ w), by simp, ⟨c, rfl, hstart⟩, fun u q name' q' u' hread' => ?_⟩
      obtain ⟨q'', hq⟩ := ha (w ++ u) (q.step 1)
      rw [List.cons_append, List.append_assoc, read, if_pos hbackslash, hq] at hread'
      rw [hname, hhead (prefix_of_rest hread')]
    · cases hread
  · next hbackslash =>
    have hname := hhead (prefix_of_rest hread)
    obtain ⟨w, rfl, -⟩ := rest_local hread
    refine ⟨c :: w, rfl, ⟨c, rfl, hstart⟩, fun u q name' q' u' hread' => ?_⟩
    rw [List.cons_append, read, if_neg hbackslash] at hread'
    rw [hname, hhead (prefix_of_rest hread')]

theorem Begins.ends (h : Begins name t t') : ∀ c ∈ t'.head?, c.isNamePart = false :=
  have ⟨_, _, _, hread⟩ := h
  ends_read hread

/-- A text begins with one name only. -/
theorem Begins.unique (h : Begins name t u) (h' : Begins name' t u') : name = name' ∧ u = u' := by
  obtain ⟨w, rfl, -, hw⟩ := h.spelled
  obtain ⟨-, p, p', hread⟩ := h'
  obtain ⟨q', hq'⟩ := hw u h.ends p
  rw [hq'] at hread
  cases hread
  exact ⟨rfl, rfl⟩

end Name
end Elementwise
