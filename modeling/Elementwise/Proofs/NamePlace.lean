import Elementwise.Proofs.WordBoundary
import Mathlib.Data.List.Chain

/-!
# Where a name stands in a text

A name stands in a text as a whole where no longer name holds it.  If a text is put together from
parts so that no name goes on from one part to the next, the places of a name in it are those in the
parts.  What the rewriter writes for something else holds no name of a parameter: such a name ends
in a digit and one underscore, while underscores are doubled in the names of variables and
properties, and stand behind backslashes in strings.

## What is here

* `Text.places` — where a name stands in a text as a whole; `Text.places_append` — the places in a
  text put together from two.
* `length_lt_of_append_underscore` — where an underscore stands alone in a generated name.
* `Namer.not_infix_escapeString` — no written string holds a generated name, not even inside a word.
* `Trace` — a text in which it is marked what was left in place and what was written.
* `Trace.Tallies` — a name stands in what was left in place or is written as a whole, the latter so
  many times.
-/

set_option autoImplicit false
namespace Elementwise

/-! ## Places -/

namespace Text

variable {name t u v a b : Text} {i k : Nat}

/-- Whether a name stands at an offset of a text as a whole: neither in front of it nor behind it a
name goes on. -/
def StandsAt (name t : Text) (i : Nat) : Prop :=
  name <+: t.drop i ∧ (∀ c ∈ (t.take i).getLast?, ¬Name.IsPlain c) ∧
    ∀ c ∈ (t.drop (i + name.length)).head?, ¬Name.IsPlain c

instance (name t : Text) (i : Nat) : Decidable (name.StandsAt t i) :=
  inferInstanceAs (Decidable (_ ∧ _ ∧ _))

/-- The offsets at which a name stands in a text as a whole. -/
def places (name t : Text) : List Nat := (List.range t.length).filter fun i => name.StandsAt t i

theorem mem_places_iff : i ∈ name.places t ↔ i < t.length ∧ name.StandsAt t i := by
  simp [places]

theorem length_le_of_mem_places (h : i ∈ name.places t) : i + name.length ≤ t.length := by
  obtain ⟨hi, hprefix, -⟩ := mem_places_iff.1 h
  have hle := hprefix.length_le
  rw [List.length_drop] at hle
  omega

theorem standsAt_length : name.StandsAt (a ++ name ++ b) a.length ↔
    (∀ c ∈ a.getLast?, ¬Name.IsPlain c) ∧ ∀ c ∈ b.head?, ¬Name.IsPlain c := by
  rw [StandsAt, ← List.length_append, List.drop_left, List.append_assoc, List.drop_left,
    List.take_left]
  exact and_iff_right (List.prefix_append _ _)

/-- A text in which a name stands consists of the name, of what is in front of it and of what is
behind it. -/
theorem StandsAt.exists_append (h : name.StandsAt t i) (hi : i < t.length) :
    ∃ a b, t = a ++ name ++ b ∧ a.length = i ∧ (∀ c ∈ a.getLast?, ¬Name.IsPlain c) ∧
      ∀ c ∈ b.head?, ¬Name.IsPlain c := by
  obtain ⟨b, hb⟩ := h.1
  have ht : t = t.take i ++ name ++ b := by rw [List.append_assoc, hb, List.take_append_drop]
  have hlength : (t.take i).length = i := List.length_take_of_le (Nat.le_of_lt hi)
  have hsplit : name.StandsAt (t.take i ++ name ++ b) (t.take i).length := by
    rw [← ht, hlength]
    exact h
  exact ⟨t.take i, b, ht, hlength, standsAt_length.1 hsplit⟩

theorem zero_mem_places_self (hne : name ≠ []) : 0 ∈ name.places name :=
  mem_places_iff.2 ⟨List.length_pos_iff.2 hne, by simp [StandsAt]⟩

theorem ne_of_places_eq_nil (hne : name ≠ []) (h : name.places t = []) : t ≠ name := by
  rintro rfl
  have hmem := zero_mem_places_self hne
  rw [h] at hmem
  cases hmem

/-- In a text that goes on like a name from its beginning to its end stands no name but itself. -/
theorem length_places_of_plain (hne : name ≠ []) (ht : ∀ c ∈ t, Name.IsPlain c) :
    (name.places t).length = if t = name then 1 else 0 := by
  have hmem {i : Nat} (hi : i ∈ name.places t) : i = 0 ∧ t = name := by
    obtain ⟨hlt, hstands⟩ := mem_places_iff.1 hi
    obtain ⟨a, b, rfl, rfl, hfront, hbehind⟩ := hstands.exists_append hlt
    have ha : a = [] := List.getLast?_eq_none_iff.1 <| Option.eq_none_iff_forall_not_mem.2
      fun c hc => hfront c hc (ht c (by simp [List.mem_of_getLast? hc]))
    have hb : b = [] := List.head?_eq_none_iff.1 <| Option.eq_none_iff_forall_not_mem.2
      fun c hc => hbehind c hc (ht c (by simp [List.mem_of_head? hc]))
    simp [ha, hb]
  split
  · next heq =>
    subst heq
    have hiff : ∀ i, i ∈ t.places t ↔ i ∈ [0] := fun i =>
      ⟨fun hi => List.mem_singleton.2 (hmem hi).1,
        fun hi => List.mem_singleton.1 hi ▸ zero_mem_places_self hne⟩
    exact ((List.perm_ext_iff_of_nodup (List.nodup_range.filter _) (List.pairwise_singleton _ 0)).2
      hiff).length_eq
  · next hne =>
    refine List.length_eq_zero_iff.2 (List.eq_nil_iff_forall_not_mem.2 fun i hi => ?_)
    exact hne (hmem hi).2

/-- No name goes on from a text to the one behind it. -/
def Splits (u v : Text) : Prop := ∀ c ∈ u.getLast?, ∀ d ∈ v.head?, Name.IsPlain c → ¬Name.IsPlain d

theorem Splits.of_last (h : ∀ c ∈ u.getLast?, ¬Name.IsPlain c) : u.Splits v :=
  fun c hc _ _ hplain => (h c hc hplain).elim

theorem Splits.of_head (h : ∀ d ∈ v.head?, ¬Name.IsPlain d) : u.Splits v :=
  fun _ _ d hd _ => h d hd

variable (hne : name ≠ []) (hname : ∀ c ∈ name, Name.IsPlain c) (huv : u.Splits v)

include hname huv

/-- In front of the place where a text is split nothing changes. -/
theorem standsAt_append_left (hi : i < u.length) :
    name.StandsAt (u ++ v) i ↔ name.StandsAt u i := by
  refine ⟨fun h => ?_, fun h => ?_⟩
  · obtain ⟨a, b, heq, rfl, hfront, hbehind⟩ :=
      h.exists_append (Nat.lt_of_lt_of_le hi (by simp))
    rcases List.append_eq_append_iff.1 heq with ⟨w, hw, hv⟩ | ⟨w, rfl, rfl⟩
    · -- the name would go on behind the split
      obtain ⟨m, rfl, hm⟩ : ∃ m, u = a ++ m ∧ name = m ++ w := by
        rcases List.append_eq_append_iff.1 hw with ⟨m, rfl, hm⟩ | ⟨m, rfl, -⟩
        · exact ⟨m, rfl, hm⟩
        · rw [List.length_append] at hi
          omega
      have hmne : m ≠ [] := by
        rintro rfl
        simp at hi
      cases w with
      | nil =>
        rw [List.append_nil] at hm
        rw [← hm, ← List.append_nil (a ++ name)]
        exact standsAt_length.2 ⟨hfront, nofun⟩
      | cons d w =>
        have hlast := huv (m.getLast hmne)
          (by rw [List.getLast?_append_of_ne_nil _ hmne, List.getLast?_eq_some_getLast hmne]; rfl) d
          (by rw [hv]; rfl)
        exact (hlast (hname _ (by simp [hm])) (hname d (by simp [hm]))).elim
    · refine standsAt_length.2 ⟨hfront, fun c hc => hbehind c ?_⟩
      obtain ⟨w', rfl⟩ := List.head?_eq_some_iff.1 hc
      rfl
  · obtain ⟨a, b, rfl, rfl, hfront, hbehind⟩ := h.exists_append hi
    have hsome : name ≠ [] ∨ b ≠ [] := by
      by_contra hnone
      simp_all
    rw [List.append_assoc]
    refine standsAt_length.2 ⟨hfront, fun c hc => ?_⟩
    cases b with
    | cons d b => exact hbehind c hc
    | nil =>
      rw [List.append_nil] at huv
      have hne : name ≠ [] := hsome.resolve_right (by simp)
      exact huv (name.getLast hne)
        (by rw [List.getLast?_append_of_ne_nil _ hne, List.getLast?_eq_some_getLast hne]; rfl) c hc
        (hname _ (List.getLast_mem hne))

include hne

/-- Behind the place where a text is split a name stands as it does in the second part. -/
theorem standsAt_append_right (hk : k < v.length) :
    name.StandsAt (u ++ v) (u.length + k) ↔ name.StandsAt v k := by
  refine ⟨fun h => ?_, fun h => ?_⟩
  · obtain ⟨a, b, heq, hlength, hfront, hbehind⟩ := h.exists_append (by simpa using hk)
    obtain ⟨w, rfl, rfl⟩ : ∃ w, a = u ++ w ∧ v = w ++ name ++ b := by
      rw [List.append_assoc] at heq
      rcases List.append_eq_append_iff.1 heq with ⟨w, rfl, hw⟩ | ⟨w, rfl, hw⟩
      · exact ⟨w, rfl, by rw [hw, List.append_assoc]⟩
      · rw [List.length_append] at hlength
        obtain rfl : w = [] := List.eq_nil_of_length_eq_zero (by omega)
        exact ⟨[], by simp, by simpa using hw.symm⟩
    obtain rfl : w.length = k := by simpa using hlength
    refine standsAt_length.2 ⟨fun c hc => hfront c ?_, hbehind⟩
    rw [List.getLast?_append, hc]
    rfl
  · obtain ⟨a, b, rfl, rfl, hfront, hbehind⟩ := h.exists_append hk
    rw [← List.length_append, ← List.append_assoc, ← List.append_assoc]
    refine standsAt_length.2 ⟨fun c hc => ?_, hbehind⟩
    rw [List.getLast?_append] at hc
    cases a with
    | cons d a => exact hfront c (by simpa [List.getLast?_cons] using hc)
    | nil =>
      obtain ⟨d, w, rfl⟩ := List.exists_cons_of_ne_nil hne
      exact fun hplain => huv c hc d rfl hplain (hname d (by simp))

/-- **The places of a name in a text that is put together are those in the parts**, if no name goes
on from one to the other. -/
theorem places_append :
    name.places (u ++ v) = name.places u ++ (name.places v).map (u.length + ·) := by
  rw [places, List.length_append, List.range_add, List.filter_append, List.filter_map]
  congr 1
  · refine List.filter_congr fun i hi => decide_eq_decide.2 ?_
    exact standsAt_append_left hname huv (List.mem_range.1 hi)
  · refine congrArg _ (List.filter_congr fun k hk => decide_eq_decide.2 ?_)
    exact standsAt_append_right hne hname huv (List.mem_range.1 hk)

end Text

/-! ## Underscores that stand alone -/

/-- An underscore next to none other stands in front of what is escaped. -/
theorem length_lt_of_append_underscore {u x a b : Text}
    (h : u ++ escapeIdentifier x = a ++ underscore :: b) (ha : a.getLast? ≠ some underscore)
    (hb : b.head? ≠ some underscore) : a.length < u.length := by
  -- what has been escaped of `x` moves over to `u`
  induction x generalizing u with
  | nil =>
    rw [escapeIdentifier_nil, List.append_nil] at h
    rw [h, List.length_append, List.length_cons]
    omega
  | cons c x ih =>
    by_cases hc : c = underscore
    · subst hc
      rw [escapeIdentifier_underscore] at h
      have hlt := ih (u := u ++ [underscore, underscore]) (by simpa using h)
      rw [List.length_append, List.length_cons, List.length_singleton] at hlt
      have hne : u.length ≠ a.length := fun hlength => by
        obtain ⟨-, heq⟩ := List.append_inj h hlength
        obtain rfl := (List.cons.inj heq).2
        exact hb rfl
      have hne' : (u ++ [underscore]).length ≠ a.length := fun hlength => by
        rw [List.append_cons] at h
        obtain ⟨rfl, -⟩ := List.append_inj h hlength
        exact ha (by simp)
      rw [List.length_append, List.length_singleton] at hne'
      omega
    · rw [escapeIdentifier_cons_of_ne hc] at h
      have hlt := ih (u := u ++ [c]) (by simpa using h)
      rw [List.length_append, List.length_singleton] at hlt
      refine Nat.lt_of_le_of_ne (Nat.le_of_lt_succ hlt) fun hlength => ?_
      obtain ⟨-, heq⟩ := List.append_inj h hlength.symm
      exact hc (List.cons.inj heq).1

/-- Whether a code point may stand in front of another one in a written string. -/
def Guards (c d : CodePoint) : Prop := d = underscore → c = .scalar '\\'

theorem isChain_escapeStringChar {t : Text} (ht : ∀ c, (c :: t).IsChain Guards) (c d : CodePoint) :
    (c :: (escapeStringChar d ++ t)).IsChain Guards := by
  unfold escapeStringChar
  split
  case h_8 =>
    have hplain : d ≠ underscore := by
      rintro rfl
      contradiction
    exact .cons_cons (fun h => (hplain h).elim) (ht d)
  all_goals simpa [Guards, underscore] using ht _

/-- In a written string every underscore stands behind a backslash. -/
theorem isChain_escapeString (v : Text) : (escapeString v).IsChain Guards := by
  have hrest : ∀ c, (c :: (v.flatMap escapeStringChar ++ [.scalar '\x27'])).IsChain Guards := by
    induction v with
    | nil => simp [Guards, underscore]
    | cons d v ih =>
      rw [List.flatMap_cons, List.append_assoc]
      exact fun c => isChain_escapeStringChar ih c d
  exact hrest _

/-- In a written string no text stands in which an underscore is guarded by nothing. -/
theorem not_infix_of_ne_backslash {c : CodePoint} (hc : c ≠ .scalar '\\') (a b v : Text) :
    ¬(a ++ c :: underscore :: b) <:+: escapeString v := by
  rintro ⟨s, t, h⟩
  have hchain := isChain_escapeString v
  rw [← h, ← List.append_assoc, List.append_assoc (s ++ a)] at hchain
  exact hc ((List.isChain_append_cons_cons.1 hchain).2.1 rfl)

/-! ## Strings that spell a generated name -/

/-- In front of the underscore that ends a prefix stands a digit. -/
theorem PrefixSequence.exists_prefixFor_eq (stem : Text) (number : Nat) :
    ∃ a c, c ≠ .scalar '\\' ∧ prefixFor stem number = a ++ [c, underscore] := by
  obtain ⟨d, hd, hdigit⟩ := getLast?_append_ofNat stem number
  obtain ⟨a, ha⟩ := List.getLast?_eq_some_iff.1 hd
  refine ⟨a, d, ?_, ?_⟩
  · rintro rfl
    exact absurd hdigit (by decide)
  · rw [prefixFor, ha, List.append_assoc]
    rfl

/-- **A string that was written holds no generated name**, not even as a part of a longer word and
whatever the string spells: inside every generated name an underscore stands behind a digit or a
letter, and every underscore of a written string behind a backslash. -/
theorem Namer.not_infix_escapeString (stem : Text) (s : PrefixSequence)
    (locals properties : List Text) (index : Int) (name v : Text) :
    let n : Namer := ⟨(s.drawPrefix stem).1, stem, locals, properties⟩
    ¬n.argument index <:+: escapeString v ∧ ¬(n.useLocal name).1 <:+: escapeString v ∧
      ¬(n.useProperty name).1 <:+: escapeString v := by
  intro n
  obtain ⟨a, c, hc, hscope⟩ := PrefixSequence.exists_prefixFor_eq stem s.next
  have hprefix (t : Text) : ¬(n.scope ++ t) <:+: escapeString v := by
    have hn : n.scope ++ t = a ++ c :: underscore :: t := by
      rw [show n.scope = PrefixSequence.prefixFor stem s.next from rfl, hscope, List.append_assoc]
      rfl
    rw [hn]
    exact not_infix_of_ne_backslash hc a t v
  refine ⟨?_, hprefix _, ?_⟩
  · have hargument : n.argument index =
        n.scope ++ (argumentWord ++ (.ofInt index ++ [underscore])) := by
      simp [argument, argumentAt]
    rw [hargument]
    exact hprefix _
  · exact not_infix_of_ne_backslash (c := .scalar 's') (by decide) (.ofChars ['t', 'h', 'i'])
      (escapeIdentifier name) v

/-! ## Names that end in a digit and an underscore -/

section

variable {front t u v x p : Text} {d : CodePoint} {i : Nat}

/-- In front of the underscore that ends the name, and behind it, stands no other one. -/
theorem exists_of_mem_places (h : i ∈ (front ++ [underscore]).places t) :
    ∃ a b, t = (a ++ front) ++ underscore :: b ∧ a.length = i ∧ b.head? ≠ some underscore := by
  obtain ⟨hi, hstands⟩ := Text.mem_places_iff.1 h
  obtain ⟨a, b, rfl, rfl, -, hbehind⟩ := hstands.exists_append hi
  exact ⟨a, b, by simp, rfl, fun hb => hbehind _ hb (by decide)⟩

variable (hd : front.getLast? = some d) (hdigit : d.isDigit = true)

include hd hdigit

theorem getLast?_append_ne_underscore (a : Text) : (a ++ front).getLast? ≠ some underscore := by
  rw [List.getLast?_append, hd]
  rintro ⟨⟩
  exact absurd hdigit (by decide)

/-- The name does not stand where an underscore is doubled. -/
theorem places_append_escapeIdentifier (hlength : u.length ≤ front.length) :
    (front ++ [underscore]).places (u ++ escapeIdentifier x) = [] := by
  refine List.eq_nil_iff_forall_not_mem.2 fun i hi => ?_
  obtain ⟨a, b, heq, rfl, hb⟩ := exists_of_mem_places hi
  have hlt := length_lt_of_append_underscore heq (getLast?_append_ne_underscore hd hdigit a) hb
  rw [List.length_append] at hlt
  omega

/-- The name does not go on into the name of a property. -/
theorem length_le_of_mem_places_propertyName
    (h : i ∈ (front ++ [underscore]).places (u ++ Namer.propertyName p)) :
    i + (front ++ [underscore]).length ≤ u.length := by
  obtain ⟨a, b, heq, rfl, hb⟩ := exists_of_mem_places h
  have hword : u ++ Namer.propertyName p =
      (u ++ .ofChars ['t', 'h', 'i', 's', '_']) ++ escapeIdentifier p := by
    rw [Namer.propertyName, List.append_assoc]
    rfl
  rw [hword] at heq
  have hlt := length_lt_of_append_underscore heq (getLast?_append_ne_underscore hd hdigit a) hb
  obtain ⟨c, hc⟩ :
      ∃ c, u ++ .ofChars ['t', 'h', 'i', 's', '_'] = (a ++ front) ++ underscore :: c := by
    rcases List.append_eq_append_iff.1 heq with ⟨c, hc, -⟩ | ⟨c, hc, hb⟩
    · simp only [hc, List.length_append] at hlt
      omega
    · cases c with
      | nil =>
        simp only [hc, List.length_append, List.length_nil] at hlt
        omega
      | cons e c =>
        obtain rfl := (List.cons.inj hb).1
        exact ⟨c, hc⟩
  rcases List.append_eq_append_iff.1 hc with ⟨m, hm, hthis⟩ | ⟨m, rfl, hm⟩
  · -- the word that all properties begin with holds no digit
    have hmne : m ≠ [] := by
      rintro rfl
      cases (List.cons.inj hthis).1
    have hlast : (u ++ m).getLast? = some d := by rw [← hm, List.getLast?_append, hd]; rfl
    rw [List.getLast?_append_of_ne_nil _ hmne] at hlast
    have hmem : d ∈ Text.ofChars ['t', 'h', 'i', 's', '_'] := by
      rw [hthis]
      exact List.mem_append_left _ (List.mem_of_getLast? hlast)
    have hnone : ∀ d ∈ Text.ofChars ['t', 'h', 'i', 's', '_'], d.isDigit = false := by decide
    rw [hnone d hmem] at hdigit
    cases hdigit
  · cases m with
    | nil => cases (List.cons.inj hm).1
    | cons e m =>
      simp only [List.length_append, List.length_cons, List.length_nil]
      omega

/-- The name stands in no string that was written. -/
theorem places_escapeString : (front ++ [underscore]).places (escapeString v) = [] := by
  refine List.eq_nil_iff_forall_not_mem.2 fun i hi => ?_
  obtain ⟨a, b, heq, -, -⟩ := exists_of_mem_places hi
  obtain ⟨w, rfl⟩ := List.getLast?_eq_some_iff.1 hd
  have hne : d ≠ .scalar '\\' := by
    rintro rfl
    exact absurd hdigit (by decide)
  refine not_infix_of_ne_backslash hne (a ++ w) b v ?_
  rw [heq]
  simp

end

/-! ## Traces -/

/-- A text in which every code point is marked: whether it was left in place. -/
abbrev Trace := List (CodePoint × Bool)

namespace Trace

/-- The text without the marks. -/
def text (l : Trace) : Text := l.map Prod.fst

/-- A text that was left in place. -/
def kept (t : Text) : Trace := t.map fun c => (c, true)

/-- A text that was written. -/
def written (t : Text) : Trace := t.map fun c => (c, false)

/-- Whether a part of a text has one mark. -/
def Marked (b : Bool) (l : Trace) (i n : Nat) : Prop := ∀ p ∈ (l.drop i).take n, p.2 = b

/-- Whether a part of a text was left in place as a whole. -/
abbrev Keeps (l : Trace) (i n : Nat) : Prop := l.Marked true i n

/-- Whether a part of a text was written as a whole. -/
abbrev Writes (l : Trace) (i n : Nat) : Prop := l.Marked false i n

instance (b : Bool) (l : Trace) (i n : Nat) : Decidable (l.Marked b i n) :=
  inferInstanceAs (Decidable (∀ _ ∈ _, _))

@[simp] theorem text_nil : text [] = [] := rfl

@[simp] theorem text_append (l m : Trace) : text (l ++ m) = l.text ++ m.text := List.map_append

@[simp] theorem text_kept (t : Text) : (kept t).text = t := by
  simp [text, kept, Function.comp_def]

@[simp] theorem text_written (t : Text) : (written t).text = t := by
  simp [text, written, Function.comp_def]

@[simp] theorem length_text (l : Trace) : l.text.length = l.length := List.length_map _

variable {name t : Text} {l m : Trace} {b : Bool} {i k n : Nat}

theorem marked_append_left (h : i + n ≤ l.length) : (l ++ m).Marked b i n ↔ l.Marked b i n := by
  rw [Marked, Marked, List.drop_append_of_le_length (by omega),
    List.take_append_of_le_length (by rw [List.length_drop]; omega)]

theorem marked_append_right : (l ++ m).Marked b (l.length + i) n ↔ m.Marked b i n := by
  rw [Marked, Marked, List.drop_length_add_append]

theorem keeps_kept (t : Text) (i n : Nat) : (kept t).Keeps i n := by
  intro p hp
  obtain ⟨c, -, rfl⟩ := List.mem_map.1 (List.mem_of_mem_drop (List.mem_of_mem_take hp))
  rfl

theorem writes_written (t : Text) (i n : Nat) : (written t).Writes i n := by
  intro p hp
  obtain ⟨c, -, rfl⟩ := List.mem_map.1 (List.mem_of_mem_drop (List.mem_of_mem_take hp))
  rfl

/-- What was left in place was not written. -/
theorem not_writes_of_keeps (hne : name ≠ []) (hi : i ∈ name.places l.text)
    (h : l.Keeps i name.length) : ¬l.Writes i name.length := by
  intro hwrites
  have hle := Text.length_le_of_mem_places hi
  have hpos := List.length_pos_iff.2 hne
  rw [length_text] at hle
  have hi : i < l.length := by omega
  have hmem : l[i] ∈ (l.drop i).take name.length := by
    rw [List.drop_eq_getElem_cons hi, List.take_cons hpos]
    exact List.mem_cons_self
  have hkept := h _ hmem
  rw [hwrites _ hmem] at hkept
  cases hkept

/-- A name stands in what was left in place or was written as a whole, the latter so many times. -/
structure Tallies (l : Trace) (name : Text) (count : Nat) : Prop where
  whole : ∀ i ∈ name.places l.text, l.Keeps i name.length ∨ l.Writes i name.length
  count_eq : (name.places l.text).countP (fun i => l.Writes i name.length) = count

namespace Tallies

/-- A name that stands only in what was left in place. -/
theorem of_keeps (hne : name ≠ []) (h : ∀ i ∈ name.places l.text, l.Keeps i name.length) :
    l.Tallies name 0 := by
  refine ⟨fun i hi => .inl (h i hi), List.countP_eq_zero.2 fun i hi hwrites => ?_⟩
  exact not_writes_of_keeps hne hi (h i hi) (of_decide_eq_true hwrites)

theorem kept (hne : name ≠ []) (t : Text) : (Trace.kept t).Tallies name 0 :=
  .of_keeps hne fun i _ => keeps_kept t i _

theorem written {count : Nat} (h : (name.places t).length = count) :
    (Trace.written t).Tallies name count := by
  refine ⟨fun i _ => .inr (writes_written t i _), ?_⟩
  rw [text_written, ← h]
  exact List.countP_eq_length.2 fun i _ => decide_eq_true (writes_written t i _)

/-- Where no name goes on from one text to the next, what is told of them adds up. -/
theorem append (hl : l.Tallies name k) (hm : m.Tallies name n) (hne : name ≠ [])
    (hname : ∀ c ∈ name, Name.IsPlain c) (hsplits : l.text.Splits m.text) :
    (l ++ m).Tallies name (k + n) := by
  have hplaces : name.places (l ++ m).text =
      name.places l.text ++ (name.places m.text).map (l.length + ·) := by
    rw [text_append, Text.places_append hne hname hsplits, length_text]
  have hleft {b : Bool} {i : Nat} (hi : i ∈ name.places l.text) :
      (l ++ m).Marked b i name.length ↔ l.Marked b i name.length :=
    marked_append_left (by simpa using Text.length_le_of_mem_places hi)
  refine ⟨?_, ?_⟩
  · rw [hplaces, List.forall_mem_append, List.forall_mem_map]
    refine ⟨fun i hi => ?_, fun i hi => ?_⟩
    · exact (hl.whole i hi).imp (hleft hi).2 (hleft hi).2
    · exact (hm.whole i hi).imp marked_append_right.2 marked_append_right.2
  · rw [hplaces, List.countP_append, List.countP_map, ← hl.count_eq, ← hm.count_eq]
    congr 1
    · exact List.countP_congr fun i hi => by simp [hleft hi]
    · exact List.countP_congr fun i _ => by simp [marked_append_right]

/-- All places of a name are in what was left in place, or written. -/
theorem length_places (h : l.Tallies name n) (hne : name ≠ []) : (name.places l.text).length =
    n + (name.places l.text).countP fun i => l.Keeps i name.length := by
  rw [List.length_eq_countP_add_countP (fun i => decide (l.Writes i name.length)), h.count_eq]
  refine congrArg _ (List.countP_congr fun i hi => ?_)
  rw [decide_eq_true_iff, decide_eq_true_iff, decide_eq_true_iff]
  exact ⟨(h.whole i hi).resolve_right, not_writes_of_keeps hne hi⟩

end Tallies
end Trace
end Elementwise
