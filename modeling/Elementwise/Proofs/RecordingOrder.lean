import Elementwise.Proofs.Window

/-!
# The order of recording

Edits are put in the order of their places before a window is put together.  So it makes no
difference in which order they were recorded, but for insertions at one offset, which stay in the
order in which they came.  Two edits of one part of the text would do so as well, if they could both
be applied.  They cannot: the second one begins inside the first.

Why a window is refused is told by the places of its edits alone, and once they are sorted these are
the same in whatever order the edits came.

## What is here

* `EditBuffer.replaceAll_eq_ok_iff` — which recordings are accepted, and what is recorded.
* `Edit.Reorders` — the same edits in another order, which keeps insertions at one offset in theirs.
* `Edit.Arranges.of_reorders` — edits that do not overlap are arranged in one way only, however they
  were recorded.
* `EditBuffer.refusal?`, `EditBuffer.splice_eq_error_iff` — why a window is refused is told by the
  places of the edits.
* `EditBuffer.apply_replaceAll_perm` — every window is the same, or is refused for the same reason.
-/

set_option autoImplicit false
namespace Elementwise

/-! ## What is recorded -/

namespace EditBuffer

/-- A replacement lies inside a text. -/
def Accepts (t : Text) (c : Int × Int × Text) : Prop :=
  0 ≤ c.1 ∧ c.1 ≤ c.2.1 ∧ c.2.1 ≤ t.length

theorem Accepts.within {t : Text} {c : Int × Int × Text} (h : Accepts t c) :
    (editOf c).span.Within 0 t.length := by
  obtain ⟨h₁, h₂, h₃⟩ := h
  refine ⟨Nat.zero_le _, ?_, ?_⟩ <;> simp only [editOf] <;> omega

/-- **Replacements are accepted exactly if all of them lie inside the text**, and are then recorded
in order. -/
theorem replaceAll_eq_ok_iff {changes : List (Int × Int × Text)} {b b' : EditBuffer} :
    b.replaceAll changes = .ok b' ↔ (∀ c ∈ changes, Accepts b.text c) ∧
      b' = { b with edits := b.edits ++ changes.map editOf } := by
  induction changes generalizing b with
  | nil =>
    have hnone : b.replaceAll [] = .ok b := rfl
    simp [hnone, eq_comm]
  | cons c changes ih =>
    rw [replaceAll, List.foldlM_cons, List.forall_mem_cons]
    by_cases hc : Accepts b.text c
    · have hrecord : b.replace c.1 c.2.1 c.2.2 =
          .ok { b with edits := b.edits ++ [editOf c] } := if_pos hc
      have hrest := ih (b := { b with edits := b.edits ++ [editOf c] })
      rw [List.append_assoc] at hrest
      rw [hrecord, eq_true hc, true_and]
      exact hrest
    · have hrefuse : b.replace c.1 c.2.1 c.2.2 = .error (.outside c.1 c.2.1 b.text.length) :=
        if_neg hc
      rw [hrefuse, eq_false hc, false_and, false_and]
      refine iff_false_intro ?_
      rintro ⟨⟩

end EditBuffer

/-! ## Edits in another order -/

namespace Edit

/-- The same edits in another order, in which insertions at one offset come one after another as
before. -/
structure Reorders (as bs : List Edit) : Prop where
  perm : as.Perm bs
  insertions : ∀ i, as.filter (·.span = ⟨i, i⟩) = bs.filter (·.span = ⟨i, i⟩)

theorem Reorders.filter {as bs : List Edit} (h : Reorders as bs) (p : Edit → Bool) :
    Reorders (as.filter p) (bs.filter p) :=
  ⟨h.perm.filter p, fun i => by rw [List.filter_comm, h.insertions, List.filter_comm]⟩

/-- Once they are sorted, edits are at the same places in whatever order they were recorded. -/
theorem map_span_sort {as bs : List Edit} (h : as.Perm bs) :
    (sort as).map Edit.span = (sort bs).map Edit.span := by
  have hsorted (es : List Edit) : ((sort es).map Edit.span).Pairwise fun s t =>
      s.start < t.start ∨ s.start = t.start ∧ s.stop ≤ t.stop :=
    List.pairwise_map.2 ((sort_pairwise es).imp precedes_iff.1)
  refine (((sort_perm as).trans (h.trans (sort_perm bs).symm)).map Edit.span).eq_of_pairwise ?_
    (hsorted as) (hsorted bs)
  rintro ⟨i, j⟩ ⟨k, l⟩ - - hst hts
  obtain ⟨hstart, hstop⟩ : i = k ∧ j = l := by
    dsimp only at hst hts
    omega
  rw [hstart, hstop]

/-- Of edits that lie one behind the other no two replace the same part of the text. -/
theorem pairwise_filter_span {es : List Edit} {s : Span} (hs : s.start < s.stop)
    (hbehind : es.Pairwise fun a b => a.span.stop ≤ b.span.start) :
    (es.filter (·.span = s)).Pairwise fun _ _ => False := by
  refine (hbehind.filter _).imp_of_mem fun ha hb hab => ?_
  rw [of_decide_eq_true (List.mem_filter.1 ha).2, of_decide_eq_true (List.mem_filter.1 hb).2] at hab
  omega

/-- **Edits that do not overlap are arranged in one way only**, in whatever order they were
recorded. -/
theorem Arranges.of_reorders {es as bs : List Edit} (h : Arranges es as)
    (hreorders : Reorders as bs) (hforward : ∀ e ∈ es, e.span.start ≤ e.span.stop)
    (hbehind : es.Pairwise fun a b => a.span.stop ≤ b.span.start) : Arranges es bs := by
  refine ⟨h.perm.trans hreorders.perm, h.sorted, fun s => ?_⟩
  have hperm : (es.filter (·.span = s)).Perm (bs.filter (·.span = s)) :=
    (h.perm.trans hreorders.perm).filter _
  rcases lt_trichotomy s.start s.stop with hlt | heq | hgt
  · -- at most one edit replaces the part, and there is one order of that
    have hnone := pairwise_filter_span hlt hbehind
    exact hperm.eq_of_pairwise (fun _ _ _ _ h => h.elim) hnone (hnone.perm hperm id)
  · obtain ⟨i, j⟩ := s
    obtain rfl : i = j := heq
    exact (h.stable _).trans (hreorders.insertions i)
  · have hnone : es.filter (·.span = s) = [] := List.filter_eq_nil_iff.2 fun e he hspan => by
      have := hforward e he
      rw [of_decide_eq_true hspan] at this
      omega
    rw [hnone] at hperm ⊢
    exact hperm.nil_eq

end Edit

/-! ## Windows -/

namespace EditBuffer

/-- Why a window is refused, told from the places of its edits: one of them crosses an end of the
window, or begins before the end of the one in front of it. -/
def refusal? (start stop : Int) : Option Span → List Span → Option EditError
  | _, [] => none
  | previous, s :: ss =>
    if Edit.isIn start stop ⟨s, []⟩ then
      if (s.start : Int) < start ∨ stop < s.stop then some (.straddles s start stop)
      else
        match previous.filter fun p => s.start < p.stop with
        | some p => some (.overlaps p s)
        | none => refusal? start stop (some s) ss
    else refusal? start stop previous ss

/-- **The places of the edits tell why a window is refused.** -/
theorem splice_eq_error_iff {text : Text} {start stop : Int} {err : EditError} {es : List Edit}
    {position : Int} {previous : Option Edit} :
    splice text start stop position previous es = .error err ↔
      refusal? start stop (previous.map Edit.span) (es.map Edit.span) = some err := by
  induction es generalizing position previous with
  | nil => exact iff_of_false nofun nofun
  | cons e es ih =>
    have hisIn : Edit.isIn start stop ⟨e.span, []⟩ = e.isIn start stop := rfl
    have hbegun : ((previous.map Edit.span).filter fun p => e.span.start < p.stop) =
        (previous.filter fun f => e.span.start < f.span.stop).map Edit.span := Option.filter_map
    rw [splice, List.map_cons, refusal?, hisIn, hbegun]
    split
    · split
      · simp
      · cases hprevious : previous.filter fun f => e.span.start < f.span.stop with
        | some f => simp
        | none =>
          have hrest : splice text start stop e.span.stop (some e) es = .error err ↔
              refusal? start stop (some e.span) (es.map Edit.span) = some err := ih
          rw [Option.map_none, ← hrest]
          cases splice text start stop e.span.stop (some e) es <;> simp
    · exact ih

/-- A window is the same, or is refused for the same reason, in whatever order its edits were
recorded. -/
theorem apply_eq_of_reorders {text : Text} {as bs : List Edit} (h : Edit.Reorders as bs)
    (hforward : ∀ e ∈ as, e.span.start ≤ e.span.stop) (start stop : Nat) :
    apply ⟨text, bs⟩ start stop = apply ⟨text, as⟩ start stop := by
  cases happly : apply ⟨text, as⟩ start stop with
  | error err =>
    rw [apply, splice_eq_error_iff] at happly ⊢
    rwa [sorted, ← Edit.map_span_sort h.perm]
  | ok out =>
    have hes := Edit.sort_arranges (as.filter fun e => e.Concerns start stop)
    generalize Edit.sort _ = es at hes
    obtain ⟨hclash, rfl⟩ := (apply_eq_ok_iff hforward hes).1 happly
    have hmem {e : Edit} (he : e ∈ es) : e.span.start ≤ e.span.stop :=
      hforward e (List.mem_of_mem_filter (hes.perm.mem_iff.1 he))
    obtain ⟨-, hbehind⟩ := (not_clash_iff fun e => hmem).1 hclash
    have hes' := hes.of_reorders (h.filter _) (fun e => hmem) hbehind
    exact (apply_eq_ok_iff (fun e he => hforward e (h.perm.mem_iff.2 he)) hes').2 ⟨hclash, rfl⟩

/-- **It makes no difference in which order edits are recorded**, as long as insertions at one
offset come in the same order: they are accepted as before, and every window of the text is the same
or is refused for the same reason. -/
theorem apply_replaceAll_perm {text : Text} {changes changes' : List (Int × Int × Text)}
    {b : EditBuffer} (hb : replaceAll { text } changes = .ok b) (hperm : changes.Perm changes')
    (hinsertions : ∀ i : Int, (changes.filter fun c => c.1 = i ∧ c.2.1 = i) =
      changes'.filter fun c => c.1 = i ∧ c.2.1 = i) :
    ∃ b', replaceAll { text } changes' = .ok b' ∧
      ∀ start stop : Nat, b'.apply start stop = b.apply start stop := by
  obtain ⟨haccepts, rfl⟩ := replaceAll_eq_ok_iff.1 hb
  have haccepts' : ∀ c ∈ changes', Accepts text c := fun c hc => haccepts c (hperm.mem_iff.2 hc)
  refine ⟨_, replaceAll_eq_ok_iff.2 ⟨haccepts', rfl⟩,
    apply_eq_of_reorders ⟨hperm.map _, fun i => ?_⟩ ?_⟩
  · have hmap {cs : List (Int × Int × Text)} (hcs : ∀ c ∈ cs, Accepts text c) :
        (cs.map editOf).filter (·.span = ⟨i, i⟩) =
          (cs.filter fun c => c.1 = (i : Int) ∧ c.2.1 = (i : Int)).map editOf := by
      rw [List.filter_map]
      refine congrArg _ (List.filter_congr fun c hc => decide_eq_decide.2 ?_)
      obtain ⟨h₁, h₂, -⟩ := hcs c hc
      simp only [editOf, Span.mk.injEq]
      omega
    rw [List.nil_append, List.nil_append, hmap haccepts, hmap haccepts', hinsertions]
  · rw [List.nil_append, List.forall_mem_map]
    exact fun c hc => (haccepts c hc).within.2.1

/-- What is inserted in front of `b` is recorded before or after the edits around it, but `x` in
front of `z` in either case. -/
theorem apply_replaceAll_perm_insertions :
    let text := Text.ofChars ['a', 'b']
    let x : Int × Int × Text := (1, 1, .ofChars ['x'])
    let z : Int × Int × Text := (1, 1, .ofChars ['z'])
    let A : Int × Int × Text := (0, 1, .ofChars ['A'])
    ∃ b', replaceAll { text } [x, z, A] = .ok b' ∧
      b'.apply 0 2 = .ok (.ofChars ['A', 'x', 'z', 'b']) := by
  intro text x z A
  have hb : replaceAll { text } [A, x, z] = .ok ⟨text, [A, x, z].map editOf⟩ := by decide
  have hinsertions (i : Int) : ([A, x, z].filter fun c => c.1 = i ∧ c.2.1 = i) =
      [x, z, A].filter fun c => c.1 = i ∧ c.2.1 = i := by
    have hA : ¬(A.1 = i ∧ A.2.1 = i) := by
      rintro ⟨h₁, h₂⟩
      exact absurd (h₁.trans h₂.symm) (by decide)
    rw [List.filter_cons_of_neg (by simpa using hA), List.filter_cons, List.filter_cons]
    simp [List.filter_cons, hA]
  obtain ⟨b', hb', happly⟩ := apply_replaceAll_perm hb (by decide) hinsertions
  exact ⟨b', hb', (happly 0 2).trans (by decide)⟩

end EditBuffer
end Elementwise
