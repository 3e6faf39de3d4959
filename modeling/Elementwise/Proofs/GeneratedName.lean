import Elementwise.Sequence
import Elementwise.Naming
import Mathlib.Data.List.Basic
import Mathlib.Data.List.Induction

/-!
# Generated names can be read back

A generated name is put together from a stem, a number, a word and an escaped identifier, with no
separator that the parts could not hold themselves.  It can be read back all the same: escaping
doubles underscores, so the last run of underscores of odd length in a name is the one that the
generator put there.  What stands in front of that run ends in the digits of the number drawn, in
the digits of a position, or in the word for properties, and these three never agree.

## What is here

* `append_underscore_escapeIdentifier_inj` — a name splits at its last odd run of underscores in one
  way only.
* `CallName` — what a name that belongs to one compilation is generated for.
* `CallName.text_inj` — from such a name the stem, the number and what it is for can be read off,
  whatever the stems are.
* `CallName.text_ne_propertyName` — such a name is never that of a property of `this`.
* `Namer.looksSynthetic_text`, `Namer.looksSynthetic_propertyName` — every generated name is
  recognised as one.
* `uniqueNames_concat` — how a list of names without repetitions grows.
-/

set_option autoImplicit false
namespace Elementwise

/-! ## Escaped identifiers -/

@[simp] theorem escapeIdentifier_nil : escapeIdentifier [] = [] := rfl

@[simp] theorem escapeIdentifier_underscore (t : Text) :
    escapeIdentifier (underscore :: t) = underscore :: underscore :: escapeIdentifier t := rfl

theorem escapeIdentifier_cons_of_ne {c : CodePoint} (hc : c ≠ underscore) (t : Text) :
    escapeIdentifier (c :: t) = c :: escapeIdentifier t := by
  simp [escapeIdentifier, hc]

theorem escapeIdentifier_reverse (t : Text) :
    (escapeIdentifier t).reverse = escapeIdentifier t.reverse := by
  rw [escapeIdentifier, escapeIdentifier, List.reverse_flatMap]
  congr 1
  funext c
  by_cases h : c = underscore <;> simp [h]

/-- Reading from the front: an escaped text ends at the first run of underscores of odd length. -/
theorem escapeIdentifier_append_underscore_inj {x y a b : Text}
    (ha : a.head? ≠ some underscore) (hb : b.head? ≠ some underscore)
    (h : escapeIdentifier x ++ underscore :: a = escapeIdentifier y ++ underscore :: b) :
    x = y ∧ a = b := by
  -- in each step `x` and `y` lose the same character, or the two sides differ at once
  induction x generalizing y with
  | nil =>
    cases y with
    | nil => simpa using h
    | cons d y =>
      rcases eq_or_ne d underscore with rfl | hd
      · simp only [escapeIdentifier_nil, escapeIdentifier_underscore, List.nil_append,
          List.cons_append, List.cons.injEq, true_and] at h
        exact absurd (by rw [h]; rfl) ha
      · rw [escapeIdentifier_cons_of_ne hd] at h
        exact absurd (List.cons.inj h).1.symm hd
  | cons c x ih =>
    cases y with
    | nil =>
      rcases eq_or_ne c underscore with rfl | hc
      · simp only [escapeIdentifier_nil, escapeIdentifier_underscore, List.nil_append,
          List.cons_append, List.cons.injEq, true_and] at h
        exact absurd (by rw [← h]; rfl) hb
      · rw [escapeIdentifier_cons_of_ne hc] at h
        exact absurd (List.cons.inj h).1 hc
    | cons d y =>
      rcases eq_or_ne c underscore with rfl | hc <;> rcases eq_or_ne d underscore with rfl | hd
      · simp only [escapeIdentifier_underscore, List.cons_append, List.cons.injEq,
          true_and] at h
        obtain ⟨rfl, rfl⟩ := ih h
        exact ⟨rfl, rfl⟩
      · rw [escapeIdentifier_cons_of_ne hd] at h
        exact absurd (List.cons.inj h).1.symm hd
      · rw [escapeIdentifier_cons_of_ne hc] at h
        exact absurd (List.cons.inj h).1 hc
      · rw [escapeIdentifier_cons_of_ne hc, escapeIdentifier_cons_of_ne hd] at h
        obtain ⟨rfl, hrest⟩ := List.cons.inj h
        obtain ⟨rfl, rfl⟩ := ih hrest
        exact ⟨rfl, rfl⟩

/-- **The last odd run of underscores splits a name in one way.**  What stands in front of it does
not end in an underscore, and what stands behind it is escaped. -/
theorem append_underscore_escapeIdentifier_inj {a b x y : Text}
    (ha : a.getLast? ≠ some underscore) (hb : b.getLast? ≠ some underscore)
    (h : a ++ underscore :: escapeIdentifier x = b ++ underscore :: escapeIdentifier y) :
    a = b ∧ x = y := by
  have hr := congrArg List.reverse h
  rw [List.reverse_append, List.reverse_append, List.reverse_cons, List.reverse_cons,
    escapeIdentifier_reverse, escapeIdentifier_reverse, List.append_assoc, List.append_assoc,
    List.singleton_append, List.singleton_append] at hr
  obtain ⟨hx, ha'⟩ := escapeIdentifier_append_underscore_inj
    (by rwa [List.head?_reverse]) (by rwa [List.head?_reverse]) hr
  exact ⟨List.reverse_injective ha', List.reverse_injective hx⟩

/-! ## Numbers -/

theorem Text.isDigit_of_mem_ofNat {n : Nat} {c : CodePoint} (h : c ∈ Text.ofNat n) :
    c.isDigit = true := by
  obtain ⟨d, hd, rfl⟩ := List.mem_map.1 h
  exact Nat.isDigit_of_mem_toDigits (by decide) (by decide) hd

theorem Text.ofNat_ne_nil (n : Nat) : Text.ofNat n ≠ [] := by
  rw [Text.ofNat, Text.ofChars, Ne, List.map_eq_nil_iff]
  exact Nat.toDigits_ne_nil

theorem Text.ofNat_inj {m n : Nat} (h : Text.ofNat m = Text.ofNat n) : m = n := by
  have hd : Nat.toDigits 10 m = Nat.toDigits 10 n :=
    List.map_injective_iff.2 (fun _ _ hc => CodePoint.scalar.inj hc) h
  rw [← Nat.ofDigitChars_ten_toDigits (n := m), hd, Nat.ofDigitChars_ten_toDigits]

/-- A text that ends in a number ends in a digit. -/
theorem getLast?_append_ofNat (a : Text) (n : Nat) :
    ∃ d, (a ++ Text.ofNat n).getLast? = some d ∧ d.isDigit = true := by
  refine ⟨(Text.ofNat n).getLast (Text.ofNat_ne_nil n), ?_,
    Text.isDigit_of_mem_ofNat (List.getLast_mem _)⟩
  rw [List.getLast?_append_of_ne_nil _ (Text.ofNat_ne_nil n), List.getLast?_eq_some_getLast]

theorem getLast?_append_ofNat_ne (a : Text) (n : Nat) :
    (a ++ Text.ofNat n).getLast? ≠ some underscore := by
  obtain ⟨d, hd, hdigit⟩ := getLast?_append_ofNat a n
  rw [hd]
  rintro ⟨⟩
  exact absurd hdigit (by decide)

/-- A text splits in one way into its digits at the end and what stands in front of them. -/
theorem append_cons_ofNat_inj {a b : Text} {c d : CodePoint} {m n : Nat}
    (hc : c.isDigit = false) (hd : d.isDigit = false)
    (h : a ++ c :: Text.ofNat m = b ++ d :: Text.ofNat n) : a = b ∧ c = d ∧ m = n := by
  -- if one of the two fronts were longer, it would end inside the digits of the other side
  have notDigit : ∀ {e : CodePoint} {t : Text} {k : Nat}, e.isDigit = false →
      ∀ u, Text.ofNat k ≠ u ++ e :: t := by
    intro e t k he u hu
    have hmem : e ∈ Text.ofNat k := by rw [hu]; simp
    rw [Text.isDigit_of_mem_ofNat hmem] at he
    exact absurd he (by simp)
  rcases List.append_eq_append_iff.1 h with ⟨u, rfl, hu⟩ | ⟨u, rfl, hu⟩
  · cases u with
    | nil =>
      simp only [List.nil_append, List.cons.injEq] at hu
      exact ⟨by simp, hu.1, Text.ofNat_inj hu.2⟩
    | cons e u =>
      simp only [List.cons_append, List.cons.injEq] at hu
      exact absurd hu.2 (notDigit hd u)
  · cases u with
    | nil =>
      simp only [List.nil_append, List.cons.injEq] at hu
      exact ⟨by simp, hu.1.symm, (Text.ofNat_inj hu.2).symm⟩
    | cons e u =>
      simp only [List.cons_append, List.cons.injEq] at hu
      exact absurd hu.2 (notDigit hc u)

/-! ## Names of one compilation -/

/-- What a name that belongs to one compilation is generated for: a parameter at a position, or a
free or local variable. -/
inductive CallName where
  | argument (index : Nat)
  | free (name : Text)
deriving DecidableEq

namespace CallName

/-- The generated name, given the prefix of the compilation. -/
def text (scope : Text) : CallName → Text
  | argument i => scope ++ Namer.argumentWord ++ Text.ofNat i ++ [underscore]
  | free x => scope ++ escapeIdentifier x

theorem localName_eq_text (n : Namer) (x : Text) : n.localName x = (free x).text n.scope := rfl

/-- What stands in front of the last odd run of underscores, under the prefix made from a stem and a
number. -/
def front (stem : Text) (number : Nat) : CallName → Text
  | argument i =>
    PrefixSequence.prefixFor stem number ++ .ofChars ['a', 'r'] ++ .scalar 'g' :: Text.ofNat i
  | free _ => stem ++ Text.ofNat number

/-- What stands behind the last odd run of underscores, before it was escaped. -/
def back : CallName → Text
  | argument _ => []
  | free x => x

theorem text_prefixFor (stem : Text) (number : Nat) (k : CallName) :
    k.text (PrefixSequence.prefixFor stem number) =
      k.front stem number ++ underscore :: escapeIdentifier k.back := by
  cases k <;>
    simp [text, front, back, PrefixSequence.prefixFor, Namer.argumentWord, Text.ofChars, underscore]

/-- In front of its last odd run of underscores, a name of one compilation ends in a number. -/
theorem front_eq_append_ofNat (stem : Text) (number : Nat) (k : CallName) :
    ∃ a n, k.front stem number = a ++ Text.ofNat n := by
  cases k with
  | argument i =>
    exact ⟨PrefixSequence.prefixFor stem number ++ .ofChars ['a', 'r', 'g'], i,
      by simp [front, Text.ofChars]⟩
  | free x => exact ⟨stem, number, rfl⟩

theorem getLast?_front_ne (stem : Text) (number : Nat) (k : CallName) :
    (k.front stem number).getLast? ≠ some underscore := by
  obtain ⟨a, n, h⟩ := k.front_eq_append_ofNat stem number
  rw [h]
  exact getLast?_append_ofNat_ne a n

/-- The stem and the number can be read off the prefix made from them, if the stem ends in an
underscore. -/
theorem append_ofNat_inj {s t : Text} {m n : Nat} (hs : s.getLast? = some underscore)
    (ht : t.getLast? = some underscore) (h : s ++ Text.ofNat m = t ++ Text.ofNat n) :
    s = t ∧ m = n := by
  obtain ⟨a, rfl⟩ := List.getLast?_eq_some_iff.1 hs
  obtain ⟨b, rfl⟩ := List.getLast?_eq_some_iff.1 ht
  rw [List.append_assoc, List.append_assoc] at h
  obtain ⟨rfl, -, rfl⟩ := append_cons_ofNat_inj (by decide) (by decide) h
  exact ⟨rfl, rfl⟩

theorem prefixFor_inj {s t : Text} {m n : Nat} (hs : s.getLast? = some underscore)
    (ht : t.getLast? = some underscore)
    (h : PrefixSequence.prefixFor s m = PrefixSequence.prefixFor t n) : s = t ∧ m = n :=
  append_ofNat_inj hs ht (List.append_cancel_right h)

/-- A number that stands behind `arg` does not stand behind a stem. -/
theorem front_argument_ne_front_free {s t : Text} {m n : Nat} (ht : t.getLast? = some underscore)
    (i : Nat) (x : Text) : front s m (argument i) ≠ front t n (free x) := by
  obtain ⟨b, rfl⟩ := List.getLast?_eq_some_iff.1 ht
  intro h
  rw [front, front, List.append_assoc b] at h
  obtain ⟨-, hc, -⟩ := append_cons_ofNat_inj (by decide) (by decide) h
  exact absurd hc (by decide)

/-- **A name of one compilation can be read back.**  Equal names come from equal stems, equal
numbers and the same parameter or variable, whatever the two stems are, as long as they end in an
underscore. -/
theorem text_inj {s t : Text} {m n : Nat} {k l : CallName} (hs : s.getLast? = some underscore)
    (ht : t.getLast? = some underscore)
    (h : k.text (PrefixSequence.prefixFor s m) = l.text (PrefixSequence.prefixFor t n)) :
    s = t ∧ m = n ∧ k = l := by
  rw [text_prefixFor, text_prefixFor] at h
  obtain ⟨hfront, hback⟩ := append_underscore_escapeIdentifier_inj
    (k.getLast?_front_ne s m) (l.getLast?_front_ne t n) h
  cases k with
  | argument i =>
    cases l with
    | argument j =>
      obtain ⟨hp, -, rfl⟩ := append_cons_ofNat_inj (by decide) (by decide) hfront
      obtain ⟨rfl, rfl⟩ := prefixFor_inj hs ht (List.append_cancel_right hp)
      exact ⟨rfl, rfl, rfl⟩
    | free y => exact absurd hfront (front_argument_ne_front_free ht i y)
  | free x =>
    cases l with
    | argument j => exact absurd hfront.symm (front_argument_ne_front_free hs j x)
    | free y =>
      obtain ⟨rfl, rfl⟩ := append_ofNat_inj hs ht hfront
      exact ⟨rfl, rfl, congrArg free hback⟩

/-- Under one prefix, different parameters and variables have different names. -/
theorem text_injective (scope : Text) : Function.Injective (text scope) := by
  intro k l h
  -- the prefix itself plays no rôle, so it may be exchanged for one that can be read back
  have h' : k.text (PrefixSequence.prefixFor [underscore] 0) =
      l.text (PrefixSequence.prefixFor [underscore] 0) := by
    cases k <;> cases l <;>
      simpa only [text, List.append_assoc, List.append_cancel_left_eq] using h
  exact (text_inj rfl rfl h').2.2

/-- **A name of one compilation is never that of a property**: in front of the last odd run of
underscores the one ends in a digit and the other in a letter. -/
theorem text_ne_propertyName (stem : Text) (number : Nat) (k : CallName) (p : Text) :
    k.text (PrefixSequence.prefixFor stem number) ≠ Namer.propertyName p := by
  intro h
  have hword : Namer.propertyName p =
      Text.ofChars ['t', 'h', 'i', 's'] ++ underscore :: escapeIdentifier p := rfl
  rw [text_prefixFor, hword] at h
  obtain ⟨hfront, -⟩ := append_underscore_escapeIdentifier_inj (k.getLast?_front_ne stem number)
    (by decide) h
  obtain ⟨a, n, ha⟩ := k.front_eq_append_ofNat stem number
  obtain ⟨d, hd, hdigit⟩ := getLast?_append_ofNat a n
  rw [← ha, hfront] at hd
  obtain rfl : CodePoint.scalar 's' = d := Option.some.inj hd
  exact absurd hdigit (by decide)

end CallName

/-- Different properties have different names. -/
theorem Namer.propertyName_injective : Function.Injective Namer.propertyName := by
  intro p q h
  have h' : Text.ofChars ['t', 'h', 'i', 's'] ++ underscore :: escapeIdentifier p =
      Text.ofChars ['t', 'h', 'i', 's'] ++ underscore :: escapeIdentifier q := h
  exact (append_underscore_escapeIdentifier_inj (by decide) (by decide) h').2

/-! ## Recognising generated names -/

namespace Namer

theorem isDecimal_of_mem_ofNat {n : Nat} {c : CodePoint} (h : c ∈ Text.ofNat n) :
    c.isDecimal = true := by
  rw [CodePoint.isDecimal, Text.isDigit_of_mem_ofNat h, Bool.true_or]

/-- What begins with a prefix has the shape of a generated name for the stem of that prefix. -/
theorem hasPrefixShape_prefixFor (stem : Text) (number : Nat) (t : Text) :
    hasPrefixShape stem (PrefixSequence.prefixFor stem number ++ t) = true := by
  have hsplit : PrefixSequence.prefixFor stem number ++ t =
      stem ++ (Text.ofNat number ++ underscore :: t) := by
    simp [PrefixSequence.prefixFor, underscore]
  have hdrop : (Text.ofNat number ++ underscore :: t).dropWhile CodePoint.isDecimal =
      underscore :: t := by
    rw [List.dropWhile_append_of_pos fun c hc => isDecimal_of_mem_ofNat hc]
    exact List.dropWhile_cons_of_neg (by decide)
  have hhead : (Text.ofNat number ++ underscore :: t).head?.any CodePoint.isDecimal = true := by
    obtain ⟨c, cs, hc⟩ := List.exists_cons_of_ne_nil (Text.ofNat_ne_nil number)
    rw [hc]
    exact isDecimal_of_mem_ofNat (n := number) (by rw [hc]; simp)
  have hstem : stem.isPrefixOf (stem ++ (Text.ofNat number ++ underscore :: t)) = true :=
    List.isPrefixOf_iff_prefix.2 (List.prefix_append _ _)
  simp only [hasPrefixShape, hsplit, hstem, List.drop_left, hhead, hdrop, List.head?_cons,
    decide_true, Bool.and_true]

/-- **Every name of a compilation is recognised**, also by another compilation with the same
stem. -/
theorem looksSynthetic_text (w : Namer) (number : Nat) (k : CallName) :
    w.looksSynthetic (k.text (PrefixSequence.prefixFor w.stem number)) = true := by
  have h : ∃ t, k.text (PrefixSequence.prefixFor w.stem number) =
      PrefixSequence.prefixFor w.stem number ++ t := by
    cases k with
    | argument i => exact ⟨argumentWord ++ Text.ofNat i ++ [underscore], by simp [CallName.text]⟩
    | free x => exact ⟨_, rfl⟩
  obtain ⟨t, ht⟩ := h
  rw [looksSynthetic, ht, hasPrefixShape_prefixFor, Bool.true_or]

/-- Every name of a property is recognised. -/
theorem looksSynthetic_propertyName (w : Namer) (p : Text) :
    w.looksSynthetic (propertyName p) = true := by
  rw [looksSynthetic, propertyName, List.isPrefixOf_iff_prefix.2 (List.prefix_append _ _),
    Bool.or_true]

end Namer

/-! ## Lists of names -/

/-- A name is added to a list behind the others, unless it is there already. -/
theorem uniqueNames_concat (names : List Text) (x : Text) :
    uniqueNames (names ++ [x]) =
      if x ∈ uniqueNames names then uniqueNames names else uniqueNames names ++ [x] := by
  rw [uniqueNames, List.foldl_append, uniqueNames]
  simp only [List.foldl_cons, List.foldl_nil, List.mem_reverse]
  split
  · rfl
  · exact List.reverse_cons

@[simp] theorem mem_uniqueNames {x : Text} {names : List Text} :
    x ∈ uniqueNames names ↔ x ∈ names := by
  induction names using List.reverseRecOn with
  | nil => rfl
  | append_singleton names y ih =>
    rw [uniqueNames_concat]
    split
    · next hy =>
      have hxy : x = y → x ∈ names := fun hx => hx ▸ ih.1 (hx ▸ hy)
      rw [ih, List.mem_append, List.mem_singleton, or_iff_left_of_imp hxy]
    · rw [List.mem_append, List.mem_append, ih]

theorem nodup_uniqueNames (names : List Text) : (uniqueNames names).Nodup := by
  induction names using List.reverseRecOn with
  | nil => exact .nil
  | append_singleton names y ih =>
    rw [uniqueNames_concat]
    split
    · exact ih
    · next hy =>
      refine List.nodup_append.2 ⟨ih, List.pairwise_singleton _ y, fun a ha b hb => ?_⟩
      obtain rfl := List.mem_singleton.1 hb
      exact fun hab => hy (hab ▸ ha)

end Elementwise
