import Elementwise.Proofs.Splice
import Mathlib.Data.List.DropRight

/-!
# Windows of an edited text

A window of an edited text is put together in one pass: the edits that have a part in it are taken
in the order of their places, and each is compared with the window and with the edit before it only.
This is as good as comparing every two of them and applying them to the text one at a time, from the
last to the first, because applying an edit leaves everything in front of it where it was.

## What is here

* `Edit.Concerns` — which edits have a part in a window.
* `Edit.Arranges` — lists of edits in the order of their places; `Edit.Arranges.eq` says that there
  is one such order only.
* `EditBuffer.replaceAll` — recording edits one after another.
* `EditBuffer.splice_eq_ok_iff` — when putting a window together succeeds, and what it gives.
* `EditBuffer.apply_eq_applyEach` — when a window is refused, and what it is if it is not.
-/

set_option autoImplicit false
namespace Elementwise
namespace Edit

/-! ## Edits of a window -/

/-- Whether an edit has a part in a window: it has some text in common with it, or it is empty and
lies in the window or at one of its ends. -/
def Concerns (start stop : Nat) (e : Edit) : Prop :=
  e.span.start < stop ∧ start < e.span.stop ∨
    e.span.start = e.span.stop ∧ start ≤ e.span.start ∧ e.span.start ≤ stop

instance (start stop : Nat) (e : Edit) : Decidable (e.Concerns start stop) :=
  inferInstanceAs (Decidable (_ ∨ _))

theorem isIn_iff {start stop : Nat} {e : Edit} :
    e.isIn start stop = true ↔ e.Concerns start stop := by
  simp only [isIn, Concerns, Bool.or_eq_true, Bool.and_eq_true, decide_eq_true_eq]
  omega

/-! ## The order of edits -/

/-- A list holds the edits of another one in the order of their places, and as they were recorded
where the places are the same. -/
structure Arranges (es recorded : List Edit) : Prop where
  perm : es.Perm recorded
  sorted : es.Pairwise fun a b => a.precedes b = true
  stable : ∀ s, es.filter (·.span = s) = recorded.filter (·.span = s)

theorem span_eq_of_precedes {a b : Edit} (hab : a.precedes b = true) (hba : b.precedes a = true) :
    a.span = b.span := by
  rw [precedes_iff] at hab hba
  obtain ⟨hstart, hstop⟩ : a.span.start = b.span.start ∧ a.span.stop = b.span.stop := by omega
  exact congrArg₂ Span.mk hstart hstop

/-- **There is one order only**: sorted lists that agree at every place are the same. -/
theorem eq_of_filter_span : ∀ {as bs : List Edit},
    (as.Pairwise fun a b => a.precedes b = true) → (bs.Pairwise fun a b => a.precedes b = true) →
    (∀ s, as.filter (·.span = s) = bs.filter (·.span = s)) → as = bs
  | [], [], _, _, _ => rfl
  | [], b :: bs, _, _, h => by simpa using h b.span
  | a :: as, [], _, _, h => by simpa using h a.span
  | a :: as, b :: bs, has, hbs, h => by
    have hmem {e : Edit} : e ∈ a :: as ↔ e ∈ b :: bs := by
      have := congrArg (e ∈ ·) (h e.span)
      simpa only [List.mem_filter, decide_true, and_true, eq_iff_iff] using this
    obtain ⟨hafter, has⟩ := List.pairwise_cons.1 has
    obtain ⟨hbehind, hbs⟩ := List.pairwise_cons.1 hbs
    -- each of the two first edits comes before the other, so both are first at the same place
    have hspan : a.span = b.span := by
      rcases List.mem_cons.1 (hmem.1 List.mem_cons_self) with rfl | ha
      · rfl
      rcases List.mem_cons.1 (hmem.2 List.mem_cons_self) with rfl | hb
      · rfl
      exact span_eq_of_precedes (hafter b hb) (hbehind a ha)
    have hfirst := h a.span
    rw [List.filter_cons_of_pos (by simp), List.filter_cons_of_pos (by simp [hspan])] at hfirst
    obtain ⟨hab, -⟩ := List.cons.inj hfirst
    rw [hab, eq_of_filter_span has hbs fun s => ?_]
    have hs := h s
    rw [List.filter_cons, List.filter_cons, hab] at hs
    split at hs
    · exact (List.cons.inj hs).2
    · exact hs

theorem Arranges.eq {as bs recorded : List Edit} (ha : Arranges as recorded)
    (hb : Arranges bs recorded) : as = bs :=
  eq_of_filter_span ha.sorted hb.sorted fun s => (ha.stable s).trans (hb.stable s).symm

/-- Leaving some edits out does not change the order of the others. -/
theorem Arranges.filter {es recorded : List Edit} (h : Arranges es recorded) (p : Edit → Bool) :
    Arranges (es.filter p) (recorded.filter p) := by
  refine ⟨h.perm.filter p, h.sorted.filter p, fun s => ?_⟩
  rw [List.filter_comm, h.stable s, List.filter_comm]

theorem filter_span_insert (e : Edit) (es : List Edit) (s : Span) :
    (insert e es).filter (·.span = s) = (e :: es).filter (·.span = s) := by
  induction es with
  | nil => rfl
  | cons f fs ih =>
    rw [insert]
    split
    · rfl
    · next hprecedes =>
      -- an edit is only moved behind one at another place
      have hne : ¬(e.span = s ∧ f.span = s) := by
        rintro ⟨he, hf⟩
        rw [precedes_iff, he, hf] at hprecedes
        omega
      rw [List.filter_cons, ih]
      by_cases he : e.span = s <;> by_cases hf : f.span = s <;> simp_all

/-- Sorting arranges edits. -/
theorem sort_arranges (es : List Edit) : Arranges (sort es) es := by
  refine ⟨sort_perm es, sort_pairwise es, fun s => ?_⟩
  induction es with
  | nil => rfl
  | cons e es ih => rw [sort, filter_span_insert, List.filter_cons, ih, List.filter_cons]

/-- A text with an edit applied to it. -/
def applyTo (e : Edit) (t : Text) : Text :=
  t.take e.span.start ++ e.replacement ++ t.drop e.span.stop

end Edit

/-! ## One edit at a time -/

namespace Text

/-- A text with edits applied to it one at a time, from the last to the first. -/
def applyEach (t : Text) (es : List Edit) : Text := es.foldr Edit.applyTo t

theorem take_append_slice (t : Text) {i j : Nat} (hij : i ≤ j) :
    t.take i ++ t.slice ⟨i, j⟩ = t.take j := by
  have htake : (t.take j).take i = t.take i := by rw [List.take_take, Nat.min_eq_left hij]
  rw [slice, ← htake]
  exact List.take_append_drop i (t.take j)

/-- **Edits that lie one behind the other are all applied, and keep what is around them.** -/
theorem applyEach_eq {t : Text} {stop : Nat} (hstop : stop ≤ t.length) :
    ∀ {es : List Edit} {position : Nat}, position ≤ stop →
      (∀ e ∈ es, e.span.Within position stop) →
      es.Pairwise (fun a b => a.span.stop ≤ b.span.start) →
      t.applyEach es = t.take position ++ t.substitute position stop es ++ t.drop stop
  | [], position, hposition, _, _ => by
    rw [substitute, take_append_slice t hposition, List.take_append_drop]
    rfl
  | e :: es, position, hposition, hwithin, hbehind => by
    obtain ⟨hnext, hbehind⟩ := List.pairwise_cons.1 hbehind
    obtain ⟨h₁, h₂, h₃⟩ := hwithin e List.mem_cons_self
    have hrest : t.applyEach es =
        t.take e.span.stop ++ t.substitute e.span.stop stop es ++ t.drop stop := by
      refine applyEach_eq hstop h₃ (fun f hf => ?_) hbehind
      obtain ⟨-, h₅, h₆⟩ := hwithin f (List.mem_cons_of_mem e hf)
      exact ⟨hnext f hf, h₅, h₆⟩
    have hlength : (t.take e.span.stop).length = e.span.stop := by
      rw [List.length_take]
      omega
    have hfront : (t.applyEach es).take e.span.start = t.take e.span.start := by
      rw [hrest, List.append_assoc, List.take_append_of_le_length (by omega), List.take_take,
        Nat.min_eq_left h₂]
    have hback : (t.applyEach es).drop e.span.stop =
        t.substitute e.span.stop stop es ++ t.drop stop := by
      rw [hrest, List.append_assoc, List.drop_left' hlength]
    calc t.applyEach (e :: es)
        = (t.applyEach es).take e.span.start ++ e.replacement ++
            (t.applyEach es).drop e.span.stop := rfl
      _ = t.take position ++ t.slice ⟨position, e.span.start⟩ ++ e.replacement ++
            (t.substitute e.span.stop stop es ++ t.drop stop) := by
          rw [hfront, hback, take_append_slice t h₁]
      _ = t.take position ++ t.substitute position stop (e :: es) ++ t.drop stop := by
          simp only [substitute, List.append_assoc]

/-- What is left of a text in which edits inside a window are applied one at a time, without the
parts in front of the window and behind it. -/
theorem applyEach_window {t : Text} {start stop : Nat} {es : List Edit} (hle : start ≤ stop)
    (hstop : stop ≤ t.length) (hwithin : ∀ e ∈ es, e.span.Within start stop)
    (hbehind : es.Pairwise fun a b => a.span.stop ≤ b.span.start) :
    ((t.applyEach es).drop start).rdrop (t.length - stop) = t.substitute start stop es := by
  have hfront : (t.take start).length = start := by
    rw [List.length_take]
    omega
  have hback : (t.drop stop).length = t.length - stop := List.length_drop
  rw [applyEach_eq hstop hle hwithin hbehind, List.append_assoc, List.drop_left' hfront,
    ← hback, List.rdrop_append_length]

end Text

/-! ## Recording -/

namespace EditBuffer

/-- Records replacements one after another, each given by its two ends and the new text. -/
def replaceAll (b : EditBuffer) (changes : List (Int × Int × Text)) : Except EditError EditBuffer :=
  changes.foldlM (fun b c => b.replace c.1 c.2.1 c.2.2) b

/-- The edit for a replacement that is accepted. -/
def editOf (c : Int × Int × Text) : Edit := ⟨⟨c.1.toNat, c.2.1.toNat⟩, c.2.2⟩

theorem replace_eq_ok {b b' : EditBuffer} {start stop : Int} {replacement : Text}
    (h : b.replace start stop replacement = .ok b') :
    (editOf (start, stop, replacement)).span.Within 0 b.text.length ∧
      b' = { b with edits := b.edits ++ [editOf (start, stop, replacement)] } := by
  rw [replace] at h
  split at h
  · obtain rfl := Except.ok.inj h
    refine ⟨⟨Nat.zero_le _, ?_, ?_⟩, rfl⟩ <;> simp only [editOf] <;> omega
  · cases h

/-- What is recorded is recorded in order, and lies inside the text. -/
theorem replaceAll_eq_ok : ∀ {changes : List (Int × Int × Text)} {b b' : EditBuffer},
    b.replaceAll changes = .ok b' →
      b'.text = b.text ∧ b'.edits = b.edits ++ changes.map editOf ∧
      ∀ c ∈ changes, (editOf c).span.Within 0 b.text.length
  | [], b, b', h => by
    obtain rfl := Except.ok.inj h
    simp
  | c :: changes, b, b', h => by
    rw [replaceAll, List.foldlM_cons] at h
    cases hc : b.replace c.1 c.2.1 c.2.2 with
    | error e =>
      rw [hc] at h
      cases h
    | ok b₁ =>
      rw [hc] at h
      obtain ⟨hwithin, rfl⟩ := replace_eq_ok hc
      have hrest : replaceAll _ changes = .ok b' := h
      obtain ⟨htext, hedits, hrest⟩ := replaceAll_eq_ok hrest
      refine ⟨htext, ?_, List.forall_mem_cons.2 ⟨hwithin, hrest⟩⟩
      rw [hedits, List.append_assoc]
      rfl

/-! ## Putting a window together -/

/-- Edits that do not concern a window play no part in it. -/
theorem splice_filter (text : Text) (start stop : Int) :
    ∀ (es : List Edit) (position : Int) (previous : Option Edit),
      splice text start stop position previous (es.filter fun e => e.isIn start stop) =
        splice text start stop position previous es
  | [], _, _ => rfl
  | e :: es, position, previous => by
    rw [List.filter_cons, splice]
    split
    · next h => rw [splice, if_pos h, splice_filter text start stop es]
    · next h => rw [splice_filter text start stop es]

/-- **A window is put together exactly if its edits lie in it, each behind the one before.**  It is
enough to compare each edit with the one before it, because no edit ends before it begins. -/
theorem splice_eq_ok_iff {text out : Text} {start stop : Nat} :
    ∀ {es : List Edit} {position : Nat} {previous : Option Edit},
      (∀ e ∈ es, e.isIn start stop = true ∧ e.span.start ≤ e.span.stop) →
      (splice text start stop position previous es = .ok out ↔
        (∀ e ∈ es, e.span.Within start stop) ∧
        es.Pairwise (fun a b => a.span.stop ≤ b.span.start) ∧
        (∀ f ∈ previous, ∀ e ∈ es, f.span.stop ≤ e.span.start) ∧
        out = text.substitute position stop es) := by
  intro es position previous hes
  constructor
  · intro h
    induction es generalizing position previous out with
    | nil =>
      rw [splice, Text.between_ofNat] at h
      exact ⟨by simp, .nil, by simp, (Except.ok.inj h).symm⟩
    | cons e es ih =>
      obtain ⟨⟨hin, hforward⟩, hes⟩ := List.forall_mem_cons.1 hes
      rw [splice, if_pos hin] at h
      split at h
      · cases h
      next hcrosses =>
      split at h
      · cases h
      next hoverlaps =>
      split at h
      case h_2 => cases h
      next rest hrest =>
      obtain ⟨hwithin, hbehind, hafter, rfl⟩ := ih hes hrest
      have he : e.span.Within start stop := ⟨by omega, hforward, by omega⟩
      have hprevious : ∀ f ∈ previous, f.span.stop ≤ e.span.start := by
        simpa [Option.filter_eq_none_iff] using hoverlaps
      refine ⟨List.forall_mem_cons.2 ⟨he, hwithin⟩, .cons (hafter e rfl) hbehind,
        fun f hf => List.forall_mem_cons.2 ⟨hprevious f hf, fun g hg => ?_⟩, ?_⟩
      · exact (hprevious f hf).trans (hforward.trans (hafter e rfl g hg))
      · rw [Text.substitute, ← Text.between_ofNat]
        exact (Except.ok.inj h).symm
  · rintro ⟨hwithin, hbehind, hprevious, rfl⟩
    exact splice_eq_substitute hwithin hbehind hprevious

/-- Edits of a window that cannot all be applied to it: one of them reaches out of the window, or
one begins before another one, in front of it in the list, has ended. -/
def Clash (start stop : Nat) (es : List Edit) : Prop :=
  (∃ e ∈ es, e.span.start < start ∨ stop < e.span.stop) ∨
    ∃ a b, [a, b].Sublist es ∧ b.span.start < a.span.stop

theorem not_clash_iff {start stop : Nat} {es : List Edit}
    (hforward : ∀ e ∈ es, e.span.start ≤ e.span.stop) :
    ¬Clash start stop es ↔
      (∀ e ∈ es, e.span.Within start stop) ∧ es.Pairwise fun a b => a.span.stop ≤ b.span.start := by
  rw [Clash, not_or, List.pairwise_iff_forall_sublist]
  refine and_congr ⟨fun h e he => ?_, ?_⟩ ⟨fun h a b hab => ?_, ?_⟩
  · have hreach : ¬(e.span.start < start ∨ stop < e.span.stop) := fun hr => h ⟨e, he, hr⟩
    exact ⟨by omega, hforward e he, by omega⟩
  · rintro h ⟨e, he, hreach⟩
    obtain ⟨h₁, -, h₃⟩ := h e he
    omega
  · exact Nat.le_of_not_lt fun hlt => h ⟨a, b, hab, hlt⟩
  · rintro h ⟨a, b, hab, hlt⟩
    exact absurd (h hab) (Nat.not_le.2 hlt)

/-- **When a window is put together, and what it is then.** -/
theorem apply_eq_ok_iff {b : EditBuffer} {start stop : Nat} {es : List Edit} {out : Text}
    (hforward : ∀ e ∈ b.edits, e.span.start ≤ e.span.stop)
    (hes : Edit.Arranges es (b.edits.filter fun e => e.Concerns start stop)) :
    b.apply start stop = .ok out ↔
      ¬Clash start stop es ∧ out = b.text.substitute start stop es := by
  have hsorted : (b.sorted.filter fun e => e.isIn start stop) = es := by
    have hisIn : (fun e : Edit => e.isIn start stop) = fun e => e.Concerns start stop :=
      funext fun e => Bool.eq_iff_iff.2 (Edit.isIn_iff.trans decide_eq_true_iff.symm)
    rw [hisIn]
    exact ((Edit.sort_arranges b.edits).filter _).eq hes
  have hin : ∀ e ∈ es, e.isIn start stop = true ∧ e.span.start ≤ e.span.stop := by
    intro e he
    obtain ⟨hmem, hconcerns⟩ := List.mem_filter.1 (hes.perm.mem_iff.1 he)
    exact ⟨Edit.isIn_iff.2 (of_decide_eq_true hconcerns), hforward e hmem⟩
  rw [apply, ← splice_filter, hsorted, splice_eq_ok_iff hin,
    not_clash_iff fun e he => (hin e he).2]
  simp [and_assoc]

/-- **Putting a window together in one pass is as good as applying its edits one at a time.**  The
window is refused exactly if one of its edits reaches out of it or two of them overlap; else it is
what stands in it when its edits have been applied to the whole text, from the last to the first.
Edits that do not concern the window make no difference. -/
theorem apply_eq_applyEach {text : Text} {changes : List (Int × Int × Text)} {b : EditBuffer}
    (hb : replaceAll { text } changes = .ok b) {start stop : Nat} (hle : start ≤ stop)
    (hstop : stop ≤ text.length) {es : List Edit}
    (hes : Edit.Arranges es ((changes.map editOf).filter fun e => e.Concerns start stop)) :
    ((∃ e, b.apply start stop = .error e) ↔ Clash start stop es) ∧
      (¬Clash start stop es → b.apply start stop =
        .ok (((text.applyEach es).drop start).rdrop (text.length - stop))) := by
  obtain ⟨htext, hedits, hchanges⟩ := replaceAll_eq_ok hb
  obtain rfl : b.text = text := htext
  have hedits : b.edits = changes.map editOf := by rw [hedits, List.nil_append]
  have hforward : ∀ e ∈ b.edits, e.span.start ≤ e.span.stop := by
    rw [hedits, List.forall_mem_map]
    exact fun c hc => (hchanges c hc).2.1
  rw [← hedits] at hes
  have hok (out : Text) : b.apply start stop = .ok out ↔
      ¬Clash start stop es ∧ out = b.text.substitute start stop es := apply_eq_ok_iff hforward hes
  constructor
  · constructor
    · rintro ⟨e, he⟩
      by_contra hclash
      have := (hok _).2 ⟨hclash, rfl⟩
      rw [he] at this
      cases this
    · intro hclash
      cases happly : b.apply start stop with
      | ok out => exact absurd hclash ((hok out).1 happly).1
      | error e => exact ⟨e, rfl⟩
  · intro hclash
    have hforward' : ∀ e ∈ es, e.span.start ≤ e.span.stop := fun e he =>
      hforward e (List.mem_of_mem_filter (hes.perm.mem_iff.1 he))
    obtain ⟨hwithin, hbehind⟩ := (not_clash_iff hforward').1 hclash
    rw [(hok _).2 ⟨hclash, rfl⟩, Text.applyEach_window hle hstop hwithin hbehind]

/-- In a window of `abcdef`, from `b` to `d`: `b` and `c` are replaced, something is inserted in
front of each of them and behind `d`, and an edit behind the window plays no part. -/
theorem apply_eq_applyEach_abcdef :
    let text := Text.ofChars ['a', 'b', 'c', 'd', 'e', 'f']
    let changes : List (Int × Int × Text) :=
      [(4, 4, .ofChars ['4']), (2, 3, .ofChars ['C']), (2, 2, .ofChars ['2']), (5, 6, []),
        (1, 1, .ofChars ['1']), (1, 2, .ofChars ['B']), (1, 1, .ofChars ['0'])]
    ∃ b es, replaceAll { text } changes = .ok b ∧ ¬Clash 1 4 es ∧
      b.apply 1 4 = .ok (.ofChars ['1', '0', 'B', '2', 'C', 'd', '4']) := by
  intro text changes
  have hes := Edit.sort_arranges ((changes.map editOf).filter fun e => e.Concerns 1 4)
  have hb : replaceAll { text } changes = .ok ⟨text, changes.map editOf⟩ := by decide
  obtain ⟨hclash, happly⟩ := apply_eq_applyEach hb (by decide) (by decide) hes
  have hnone : ¬Clash 1 4 (Edit.sort ((changes.map editOf).filter fun e => e.Concerns 1 4)) := by
    rw [not_clash_iff (by decide)]
    decide
  refine ⟨_, _, hb, hnone, (happly hnone).trans (congrArg Except.ok ?_)⟩
  decide

end EditBuffer
end Elementwise
