import Elementwise.Proofs.RecordingOrder
import Elementwise.Proofs.Spelling
import Mathlib.Algebra.Ring.Int.Defs

/-!
# Undoing edits

A text comes back from what its edits made of it if every replacement is replaced by what stood in
its place.  What is behind an edit has moved by the growth of all edits in front of it, so the edits
that undo them are at other offsets; but they lie one behind the other as the edits did, and this
also holds if an insertion is undone by a deletion or the reverse.

## What is here

* `Edit.growth`, `Edit.undoing` — by how much an edit makes a text longer, and the replacements that
  undo a list of edits.
* `Edit.sort_eq_self` — edits that lie one behind the other are sorted already.
* `EditBuffer.apply_of_behind` — edits that lie in a window one behind the other are applied in the
  order in which they were recorded.
* `EditBuffer.restores_undoing` — undoing the edits behind an offset gives back the text behind it.
* `EditBuffer.apply_undoing` — the replacements that undo all edits of a text are accepted, and give
  the text back.
-/

set_option autoImplicit false
namespace Elementwise
namespace Edit

/-- By how much an edit makes a text longer. -/
def growth (e : Edit) : Int := e.replacement.length - (e.span.stop - e.span.start)

/-- The replacements that undo edits of a text which has grown by some number in front of them.
Each puts back what the edit replaced; its place has moved by the growth of the edits before. -/
def undoing (t : Text) (grown : Int) (es : List Edit) : List (Int × Int × Text) :=
  es.mapIdx fun i e =>
    let start := e.span.start + grown + ((es.take i).map growth).sum
    (start, start + e.replacement.length, t.slice e.span)

theorem undoing_cons (t : Text) (grown : Int) (e : Edit) (es : List Edit) :
    undoing t grown (e :: es) =
      (e.span.start + grown, e.span.start + grown + e.replacement.length, t.slice e.span) ::
        undoing t (grown + e.growth) es := by
  have hstart (i : Nat) (f : Edit) : (f.span.start : Int) + grown +
      (((e :: es).take (i + 1)).map growth).sum =
        f.span.start + (grown + e.growth) + ((es.take i).map growth).sum := by
    rw [List.take_succ_cons, List.map_cons, List.sum_cons]
    omega
  rw [undoing, List.mapIdx_cons, undoing]
  simp only [hstart, List.take_zero, List.map_nil, List.sum_nil, Int.add_zero]

/-- Edits that lie one behind the other are sorted already. -/
theorem sort_eq_self {es : List Edit} (hforward : ∀ e ∈ es, e.span.start ≤ e.span.stop)
    (hbehind : es.Pairwise fun a b => a.span.stop ≤ b.span.start) : sort es = es := by
  rw [sort_eq_insertionSort]
  refine List.Pairwise.insertionSort_eq (hbehind.imp_of_mem fun ha hb hab => precedes_iff.2 ?_)
  have := hforward _ ha
  have := hforward _ hb
  omega

end Edit

namespace Text

theorem length_slice {t : Text} {s : Span} (h : s.stop ≤ t.length) :
    (t.slice s).length = s.stop - s.start := by
  rw [slice, List.length_drop, List.length_take, Nat.min_eq_left h]

/-- What stands in the middle of a text. -/
theorem slice_middle (front middle back : Text) :
    (front ++ middle ++ back).slice ⟨front.length, front.length + middle.length⟩ = middle := by
  rw [slice, ← List.length_append, List.take_left, List.drop_left]

end Text

namespace EditBuffer

/-- Edits that lie in a window one behind the other are applied in the order in which they were
recorded. -/
theorem apply_of_behind {b : EditBuffer} {start stop : Nat}
    (hwithin : ∀ e ∈ b.edits, e.span.Within start stop)
    (hbehind : b.edits.Pairwise fun a b => a.span.stop ≤ b.span.start) :
    b.apply start stop = .ok (b.text.substitute start stop b.edits) := by
  rw [apply, sorted, Edit.sort_eq_self (fun e he => (hwithin e he).2.1) hbehind]
  exact splice_eq_substitute hwithin hbehind (by simp)

/-- Replacements behind an offset of a text, one behind the other, that are accepted and make
something of the text behind the offset. -/
structure Restores (t : Text) (position : Nat) (changes : List (Int × Int × Text)) (out : Text) :
    Prop where
  accepts : ∀ c ∈ changes, (position : Int) ≤ c.1 ∧ Accepts t c
  behind : (changes.map editOf).Pairwise fun a b => a.span.stop ≤ b.span.start
  substitute : t.substitute position t.length (changes.map editOf) = out

/-- **Undoing the edits behind an offset gives back the text behind it**, whatever stands in
front. -/
theorem restores_undoing {t : Text} {stop : Nat} (hstop : stop ≤ t.length) :
    ∀ {es : List Edit} {position : Nat} {grown : Int} {front : Text}, position ≤ stop →
      (front.length : Int) = position + grown →
      (∀ e ∈ es, e.span.Within position stop) →
      es.Pairwise (fun a b => a.span.stop ≤ b.span.start) →
      Restores (front ++ t.substitute position stop es) front.length (Edit.undoing t grown es)
        (t.slice ⟨position, stop⟩)
  | [], position, grown, front, _, _, _, _ => by
    refine ⟨nofun, .nil, ?_⟩
    rw [Edit.undoing, List.mapIdx_nil, List.map_nil, Text.substitute, Text.substitute, Text.slice,
      List.take_length]
    exact List.drop_left
  | e :: es, position, grown, front, hposition, hfront, hwithin, hbehind => by
    obtain ⟨hnext, hbehind⟩ := List.pairwise_cons.1 hbehind
    obtain ⟨⟨h₁, h₂, h₃⟩, hwithin⟩ := List.forall_mem_cons.1 hwithin
    have hgap : (t.slice ⟨position, e.span.start⟩).length = e.span.start - position :=
      Text.length_slice (h₂.trans (h₃.trans hstop))
    -- what was written for the edit begins at `k`, and the rest behind it
    obtain ⟨k, hk⟩ : ∃ k, front.length + (e.span.start - position) = k := ⟨_, rfl⟩
    obtain ⟨front', hfront'⟩ :
      ∃ u, front ++ t.slice ⟨position, e.span.start⟩ ++ e.replacement = u := ⟨_, rfl⟩
    have hlength : front'.length = k + e.replacement.length := by
      rw [← hfront', List.length_append, List.length_append, hgap, hk]
    have htext : front ++ t.substitute position stop (e :: es) =
        front' ++ t.substitute e.span.stop stop es := by
      simp only [← hfront', Text.substitute, List.append_assoc]
    have hrest : Restores (front' ++ t.substitute e.span.stop stop es) front'.length
        (Edit.undoing t (grown + e.growth) es) (t.slice ⟨e.span.stop, stop⟩) := by
      refine restores_undoing hstop h₃ ?_ (fun f hf => ⟨hnext f hf, (hwithin f hf).2⟩) hbehind
      rw [hlength, Edit.growth]
      omega
    have hstart : (e.span.start : Int) + grown = k := by omega
    have hedit : editOf (k, k + e.replacement.length, t.slice e.span) =
        ⟨⟨k, front'.length⟩, t.slice e.span⟩ := by
      rw [hlength]
      rfl
    have hkept : (front' ++ t.substitute e.span.stop stop es).slice ⟨front.length, k⟩ =
        t.slice ⟨position, e.span.start⟩ := by
      rw [← hk, ← hgap, ← hfront', List.append_assoc _ e.replacement]
      exact Text.slice_middle _ _ _
    rw [htext, Edit.undoing_cons, hstart]
    refine ⟨List.forall_mem_cons.2 ⟨⟨by omega, ?_⟩, fun c hc => ?_⟩, ?_, ?_⟩
    · have hend : (k : Int) + e.replacement.length ≤
          (front' ++ t.substitute e.span.stop stop es).length := by
        rw [List.length_append]
        omega
      exact ⟨Int.natCast_nonneg k, Int.le_add_of_nonneg_right (Int.natCast_nonneg _), hend⟩
    · obtain ⟨hle, haccepts⟩ := hrest.accepts c hc
      exact ⟨by omega, haccepts⟩
    · rw [List.map_cons, hedit]
      refine .cons (List.forall_mem_map.2 fun c hc => ?_) hrest.behind
      have hle := (hrest.accepts c hc).1
      simp only [editOf]
      omega
    · rw [List.map_cons, hedit, Text.substitute, hrest.substitute, hkept, Text.slice_append t h₁ h₂,
        Text.slice_append t (h₁.trans h₂) h₃]

/-- **Edits can be undone.**  If the edits of a text can be applied to all of it, then the
replacements that undo them, in the order of their places, are accepted for what comes out, and
applied to all of it they give the text back. -/
theorem apply_undoing {text r : Text} {changes : List (Int × Int × Text)} {b : EditBuffer}
    (hb : replaceAll { text } changes = .ok b) (hr : b.apply 0 text.length = .ok r) :
    ∃ b', replaceAll { text := r } (Edit.undoing text 0 b.sorted) = .ok b' ∧
      b'.apply 0 r.length = .ok text := by
  obtain ⟨haccepts, rfl⟩ := replaceAll_eq_ok_iff.1 hb
  have hedits : ∀ e ∈ [] ++ changes.map editOf, e.span.Within 0 text.length := by
    rw [List.nil_append, List.forall_mem_map]
    exact fun c hc => (haccepts c hc).within
  generalize [] ++ changes.map editOf = edits at hr hedits
  have hforward : ∀ e ∈ edits, e.span.start ≤ e.span.stop := fun e he => (hedits e he).2.1
  have hall : edits.filter (fun e => e.Concerns 0 text.length) = edits :=
    List.filter_eq_self.2 fun e he =>
      decide_eq_true (Edit.isIn_iff.1 (Edit.isIn_of_within (hedits e he)))
  have hes := Edit.sort_arranges (edits.filter fun e => e.Concerns 0 text.length)
  rw [hall] at hes
  obtain ⟨hclash, hsubstitute⟩ := (apply_eq_ok_iff hforward (by rwa [hall])).1 hr
  obtain ⟨hwithin, hbehind⟩ := (not_clash_iff fun e he =>
    hforward e ((Edit.sort_perm edits).mem_iff.1 he)).1 hclash
  have hrestores : Restores r 0 (Edit.undoing text 0 (Edit.sort edits))
      (text.slice ⟨0, text.length⟩) := by
    have hfront : (([] : Text).length : Int) = (0 : Nat) + 0 := rfl
    rw [hsubstitute]
    exact restores_undoing (Nat.le_refl _) (Nat.zero_le _) hfront hwithin hbehind
  have hundone :
      ∀ e ∈ (Edit.undoing text 0 (Edit.sort edits)).map editOf, e.span.Within 0 r.length :=
    List.forall_mem_map.2 fun c hc => (hrestores.accepts c hc).2.within
  have hwhole : text.slice ⟨0, text.length⟩ = text := by
    rw [Text.slice, List.take_length, List.drop_zero]
  refine ⟨_, replaceAll_eq_ok_iff.2 ⟨fun c hc => (hrestores.accepts c hc).2, rfl⟩, ?_⟩
  exact (apply_of_behind hundone hrestores.behind).trans
    (congrArg Except.ok (hrestores.substitute.trans hwhole))

/-- In `abcd` the letter `a` is left out, something is inserted behind it and again in front of `c`,
and `c` is replaced by two letters. -/
theorem apply_undoing_abcd :
    let text := Text.ofChars ['a', 'b', 'c', 'd']
    let r := Text.ofChars ['x', 'b', 'y', 'C', 'C', 'd']
    let changes := [(2, 3, Text.ofChars ['C', 'C']), (2, 2, Text.ofChars ['y']), (0, 1, []),
      (1, 1, Text.ofChars ['x'])]
    ∃ b b', replaceAll { text } changes = .ok b ∧ b.apply 0 4 = .ok r ∧
      Edit.undoing text 0 b.sorted =
        [(0, 0, Text.ofChars ['a']), (0, 1, []), (2, 3, []), (3, 5, Text.ofChars ['c'])] ∧
      replaceAll { text := r } (Edit.undoing text 0 b.sorted) = .ok b' ∧
      b'.apply 0 6 = .ok text := by
  intro text r changes
  have hb : replaceAll { text } changes = .ok ⟨text, changes.map editOf⟩ := by decide
  have hr : apply ⟨text, changes.map editOf⟩ 0 4 = .ok r := by decide
  obtain ⟨b', hb', hback⟩ := apply_undoing hb hr
  exact ⟨_, b', hb, hr, by decide, hb', hback⟩

end EditBuffer
end Elementwise
