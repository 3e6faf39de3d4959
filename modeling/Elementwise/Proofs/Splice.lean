import Elementwise.Edit
import Mathlib.Data.List.Sort

/-!
# Editing a window of a text

Edits that do not overlap can be applied in the order of their places, one pass over the text, and
that is what `EditBuffer.apply` does.  `Text.substitute` says what comes out: between two edits the
text stays as it is, and in the place of every edit stands its replacement.

## What is here

* `Text.substitute` — the text of a window in which some parts are replaced.
* `Edit.sort_perm`, `Edit.sort_apart` — sorting loses no edit, and puts edits that do not overlap
  one behind the other.
* `EditBuffer.apply_eq_substitute` — edits inside a window that do not overlap are applied, each
  once and in the order of their places.
-/

set_option autoImplicit false
namespace Elementwise

/-- The text from an offset to the end of a window, with some parts of it replaced. -/
def Text.substitute (t : Text) (position stop : Nat) : List Edit → Text
  | [] => t.slice ⟨position, stop⟩
  | e :: es =>
    t.slice ⟨position, e.span.start⟩ ++ e.replacement ++ t.substitute e.span.stop stop es

/-! ## Spans -/

namespace Span

/-- Whether two spans have no code point in common. -/
def Apart (a b : Span) : Prop := a.stop ≤ b.start ∨ b.stop ≤ a.start

theorem Apart.symm {a b : Span} (h : a.Apart b) : b.Apart a := Or.symm h

instance (a b : Span) : Decidable (a.Apart b) := inferInstanceAs (Decidable (_ ∨ _))

/-- Whether a span goes forward and lies between two offsets. -/
def Within (start stop : Nat) (s : Span) : Prop :=
  start ≤ s.start ∧ s.start ≤ s.stop ∧ s.stop ≤ stop

instance (start stop : Nat) (s : Span) : Decidable (s.Within start stop) :=
  inferInstanceAs (Decidable (_ ∧ _ ∧ _))

end Span

/-! ## Sorting edits -/

namespace Edit

theorem precedes_iff {a b : Edit} : a.precedes b = true ↔
    a.span.start < b.span.start ∨ a.span.start = b.span.start ∧ a.span.stop ≤ b.span.stop := by
  simp [precedes]

theorem precedes_total (a b : Edit) : a.precedes b = true ∨ b.precedes a = true := by
  rw [precedes_iff, precedes_iff]
  omega

theorem precedes_trans {a b c : Edit} (hab : a.precedes b = true) (hbc : b.precedes c = true) :
    a.precedes c = true := by
  rw [precedes_iff] at *
  omega

theorem insert_eq_orderedInsert (e : Edit) (es : List Edit) :
    insert e es = es.orderedInsert (fun a b => a.precedes b = true) e := by
  induction es with
  | nil => rfl
  | cons f fs ih => rw [insert, List.orderedInsert_cons, ih]

theorem sort_eq_insertionSort (es : List Edit) :
    sort es = es.insertionSort fun a b => a.precedes b = true := by
  induction es with
  | nil => rfl
  | cons e es ih => rw [sort, List.insertionSort_cons, ih, insert_eq_orderedInsert]

/-- Sorting neither loses nor repeats an edit. -/
theorem sort_perm (es : List Edit) : (sort es).Perm es := by
  rw [sort_eq_insertionSort]
  exact List.perm_insertionSort _ es

theorem sort_pairwise (es : List Edit) : (sort es).Pairwise fun a b => a.precedes b = true := by
  have : Std.Total fun a b : Edit => a.precedes b = true := ⟨precedes_total⟩
  have : IsTrans Edit fun a b => a.precedes b = true := ⟨fun _ _ _ => precedes_trans⟩
  rw [sort_eq_insertionSort]
  exact List.pairwise_insertionSort _ es

/-- Of two edits that do not overlap, the one that comes first in the order ends before the other
begins. -/
theorem stop_le_of_precedes {a b : Edit} (h : a.precedes b = true) (ha : a.span.Apart b.span)
    (hb : b.span.start ≤ b.span.stop) : a.span.stop ≤ b.span.start := by
  rw [precedes_iff] at h
  rcases ha with hab | hba
  · exact hab
  · omega

/-- **Sorting puts edits that do not overlap one behind the other.** -/
theorem sort_apart {es : List Edit} (hforward : ∀ e ∈ es, e.span.start ≤ e.span.stop)
    (hapart : es.Pairwise fun a b => a.span.Apart b.span) :
    (sort es).Pairwise fun a b => a.span.stop ≤ b.span.start := by
  have hsorted : (sort es).Pairwise fun a b => a.span.Apart b.span :=
    ((sort_perm es).pairwise_iff fun h => h.symm).2 hapart
  refine ((sort_pairwise es).and hsorted).imp_of_mem ?_
  rintro a b - hb ⟨hle, hab⟩
  exact stop_le_of_precedes hle hab (hforward b ((sort_perm es).mem_iff.1 hb))

/-- An edit that lies inside a window belongs to it. -/
theorem isIn_of_within {e : Edit} {start stop : Nat} (h : e.span.Within start stop) :
    e.isIn start stop = true := by
  obtain ⟨h₁, h₂, h₃⟩ := h
  simp only [isIn, Bool.or_eq_true, Bool.and_eq_true, decide_eq_true_eq]
  omega

end Edit

/-! ## Applying edits -/

theorem Text.clamp_ofNat (t : Text) (i : Nat) : t.clamp i = min i t.length := by
  rw [clamp, if_neg (by omega), Int.toNat_natCast]

theorem Text.between_ofNat (t : Text) (i j : Nat) : t.between i j = t.slice ⟨i, j⟩ := by
  rw [between, clamp_ofNat, clamp_ofNat, slice, slice]
  rcases Nat.le_total i t.length with hi | hi
  · rw [Nat.min_eq_left hi]
    exact congrArg (List.drop i) List.take_eq_take_min.symm
  · rw [List.drop_eq_nil_of_le (by simp; omega), List.drop_eq_nil_of_le (by simp; omega)]

namespace EditBuffer

/-- What is left of a window is put together from edits that lie in it, each behind the one
before. -/
theorem splice_eq_substitute {text : Text} {start stop : Nat} :
    ∀ {es : List Edit} {position : Nat} {previous : Option Edit},
      (∀ e ∈ es, e.span.Within start stop) →
      es.Pairwise (fun a b => a.span.stop ≤ b.span.start) →
      (∀ f ∈ previous, ∀ e ∈ es, f.span.stop ≤ e.span.start) →
      splice text start stop position previous es = .ok (text.substitute position stop es)
  | [], position, _, _, _, _ => by rw [splice, Text.between_ofNat, Text.substitute]
  | e :: es, position, previous, hwithin, hapart, hprevious => by
    obtain ⟨hnext, hapart⟩ := List.pairwise_cons.1 hapart
    have he : e.span.Within start stop := hwithin e (by simp)
    have hcrosses : ¬((e.span.start : Int) < start ∨ (stop : Int) < e.span.stop) := by
      obtain ⟨h₁, h₂, h₃⟩ := he
      omega
    have hoverlaps : (previous.filter fun f => e.span.start < f.span.stop) = none := by
      rw [Option.filter_eq_none_iff]
      intro f hf
      have := hprevious f hf e (by simp)
      simpa using this
    have hrest : splice text start stop e.span.stop (some e) es =
        .ok (text.substitute e.span.stop stop es) :=
      splice_eq_substitute (fun f hf => hwithin f (by simp [hf])) hapart
        (by rintro f ⟨⟩; exact hnext)
    rw [splice, if_pos (Edit.isIn_of_within he), if_neg hcrosses, hoverlaps, hrest]
    rw [Text.substitute, Text.between_ofNat]

/-- **Edits that do not overlap are applied in the order of their places.**  Every edit is applied
once, and between the edits the text is kept. -/
theorem apply_eq_substitute {b : EditBuffer} {start stop : Nat}
    (hwithin : ∀ e ∈ b.edits, e.span.Within start stop)
    (hapart : b.edits.Pairwise fun a b => a.span.Apart b.span) :
    b.apply start stop = .ok (b.text.substitute start stop (Edit.sort b.edits)) :=
  splice_eq_substitute (fun e he => hwithin e ((Edit.sort_perm _).mem_iff.1 he))
    (Edit.sort_apart (fun e he => (hwithin e he).2.1) hapart) (by rintro f ⟨⟩)

end EditBuffer
end Elementwise
