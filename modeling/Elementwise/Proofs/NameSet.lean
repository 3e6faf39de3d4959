import Elementwise.Compiler

/-!
# Sets of names

The globals of a configuration are a set of names, held as a list in which every name stands in
front of the greater ones.  Such a list is determined by the names in it, so two configurations with
the same globals are one and the same.

## What is here

* `Text.le_total`, `Text.le_antisymm`, `Text.le_trans` — the order of texts.
* `Names.IsIncreasing` — the lists that hold sets, with what insertion does to them.
* `Names.sorted_of_isIncreasing` — a list that holds a set is left as it is.
* `Config.mem_withGlobals` — the globals of a configuration with further ones.
* `Config.check_eq_nil_iff` — what makes a configuration valid.
-/

set_option autoImplicit false
namespace Elementwise

/-! ## The order of texts -/

/-- A scalar value is no surrogate, so code points differ in their numbers. -/
theorem CodePoint.val_injective : Function.Injective CodePoint.val := by
  intro a b h
  cases a with
  | scalar c =>
    cases b with
    | scalar d => exact congrArg CodePoint.scalar (Char.ext (UInt32.toNat.inj h))
    | surrogate j =>
      have hc : c.toNat.isValidChar := c.valid
      have hval : c.toNat = 0xD800 + j.val := h
      have hj := j.isLt
      unfold Nat.isValidChar at hc
      omega
  | surrogate i =>
    cases b with
    | scalar d =>
      have hd : d.toNat.isValidChar := d.valid
      have hval : 0xD800 + i.val = d.toNat := h
      have hi := i.isLt
      unfold Nat.isValidChar at hd
      omega
    | surrogate j =>
      have hij : 0xD800 + i.val = 0xD800 + j.val := h
      exact congrArg CodePoint.surrogate (Fin.ext (by omega))

namespace Text

@[simp] theorem le_refl (t : Text) : le t t = true := by
  induction t with
  | nil => rfl
  | cons c t ih => rw [le, if_pos rfl, ih]

theorem le_total (s t : Text) : le s t = true ∨ le t s = true := by
  induction s generalizing t with
  | nil => exact .inl rfl
  | cons a s ih =>
    cases t with
    | nil => exact .inr rfl
    | cons b t =>
      rw [le, le]
      by_cases hab : a = b
      · rw [if_pos hab, if_pos hab.symm]
        exact ih t
      · rw [if_neg hab, if_neg (Ne.symm hab), decide_eq_true_iff, decide_eq_true_iff]
        have hval : a.val ≠ b.val := fun h => hab (CodePoint.val_injective h)
        omega

theorem le_antisymm {s t : Text} (hst : le s t = true) (hts : le t s = true) : s = t := by
  induction s generalizing t with
  | nil =>
    cases t with
    | nil => rfl
    | cons b t => cases hts
  | cons a s ih =>
    cases t with
    | nil => cases hst
    | cons b t =>
      rw [le] at hst hts
      by_cases hab : a = b
      · rw [if_pos hab] at hst
        rw [if_pos hab.symm] at hts
        rw [hab, ih hst hts]
      · rw [if_neg hab, decide_eq_true_iff] at hst
        rw [if_neg (Ne.symm hab), decide_eq_true_iff] at hts
        omega

theorem le_trans {r s t : Text} (hrs : le r s = true) (hst : le s t = true) :
    le r t = true := by
  induction r generalizing s t with
  | nil => rfl
  | cons a r ih =>
    cases s with
    | nil => cases hrs
    | cons b s =>
      cases t with
      | nil => cases hst
      | cons c t =>
        rw [le] at hrs hst ⊢
        by_cases hab : a = b
        · subst hab
          by_cases hac : a = c
          · rw [if_pos hac]
            rw [if_pos rfl] at hrs
            rw [if_pos hac] at hst
            exact ih hrs hst
          · rwa [if_neg hac] at hst ⊢
        · rw [if_neg hab, decide_eq_true_iff] at hrs
          by_cases hbc : b = c
          · subst hbc
            rw [if_neg hab, decide_eq_true_iff]
            exact hrs
          · rw [if_neg hbc, decide_eq_true_iff] at hst
            have hac : a ≠ c := by
              rintro rfl
              omega
            rw [if_neg hac, decide_eq_true_iff]
            omega

end Text

/-! ## Lists that hold sets -/

namespace Names

/-- **Every name stands in front of the greater ones**, so none stands there twice. -/
def IsIncreasing (ns : List Text) : Prop :=
  ns.Pairwise fun m n => m ≠ n ∧ Text.le m n = true

@[simp] theorem mem_insert {x name : Text} {ns : List Text} :
    x ∈ insert name ns ↔ x = name ∨ x ∈ ns := by
  induction ns with
  | nil => simp [insert]
  | cons n ns ih =>
    rw [insert]
    split
    · rename_i h
      simp [h]
    · split
      · exact List.mem_cons
      · rw [List.mem_cons, ih, List.mem_cons]
        exact or_left_comm

theorem isIncreasing_insert {name : Text} {ns : List Text} (h : IsIncreasing ns) :
    IsIncreasing (insert name ns) := by
  induction ns with
  | nil => exact List.pairwise_singleton _ _
  | cons n ns ih =>
    obtain ⟨hn, hns⟩ := List.pairwise_cons.1 h
    rw [insert]
    split
    · exact h
    · rename_i hne
      split
      · rename_i hle
        refine List.pairwise_cons.2 ⟨?_, h⟩
        intro m hm
        rcases List.mem_cons.1 hm with rfl | hm
        · exact ⟨hne, hle⟩
        · refine ⟨?_, Text.le_trans hle (hn m hm).2⟩
          rintro rfl
          exact hne (Text.le_antisymm hle (hn name hm).2)
      · rename_i hle
        refine List.pairwise_cons.2 ⟨?_, ih hns⟩
        intro m hm
        rcases mem_insert.1 hm with rfl | hm
        · exact ⟨Ne.symm hne, (Text.le_total n m).resolve_right hle⟩
        · exact hn m hm

/-- A name that is greater than all others is put behind them. -/
theorem insert_eq_append {name : Text} {ns : List Text}
    (h : ∀ n ∈ ns, n ≠ name ∧ Text.le n name = true) : insert name ns = ns ++ [name] := by
  induction ns with
  | nil => rfl
  | cons n ns ih =>
    obtain ⟨hne, hle⟩ := h n (List.mem_cons_self ..)
    have hlt : ¬ Text.le name n = true := fun hgt => hne (Text.le_antisymm hle hgt)
    rw [insert, if_neg (Ne.symm hne), if_neg hlt, ih fun m hm => h m (List.mem_cons_of_mem _ hm),
      List.cons_append]

theorem mem_foldl_insert {x : Text} (more ns : List Text) :
    x ∈ more.foldl (fun ns n => insert n ns) ns ↔ x ∈ ns ∨ x ∈ more := by
  induction more generalizing ns with
  | nil => simp
  | cons n more ih =>
    rw [List.foldl_cons, ih, mem_insert, List.mem_cons, or_assoc]
    exact or_left_comm

theorem isIncreasing_foldl_insert (more : List Text) {ns : List Text} (h : IsIncreasing ns) :
    IsIncreasing (more.foldl (fun ns n => insert n ns) ns) := by
  induction more generalizing ns with
  | nil => exact h
  | cons n more ih => exact ih (isIncreasing_insert h)

theorem foldl_insert_of_isIncreasing (more : List Text) {ns : List Text}
    (h : IsIncreasing (ns ++ more)) : more.foldl (fun ns n => insert n ns) ns = ns ++ more := by
  induction more generalizing ns with
  | nil => exact (List.append_nil ns).symm
  | cons n more ih =>
    have hlast : insert n ns = ns ++ [n] :=
      insert_eq_append fun m hm =>
        (List.pairwise_append.1 h).2.2 m hm n (List.mem_cons_self ..)
    rw [List.append_cons] at h
    rw [List.foldl_cons, hlast, ih h, ← List.append_cons]

theorem isIncreasing_sorted (names : List Text) : IsIncreasing (sorted names) :=
  isIncreasing_foldl_insert names List.Pairwise.nil

theorem mem_sorted {x : Text} {names : List Text} : x ∈ sorted names ↔ x ∈ names := by
  rw [sorted, mem_foldl_insert]
  simp

/-- **A list that holds a set is left as it is** when its names are put into order. -/
theorem sorted_of_isIncreasing {names : List Text} (h : IsIncreasing names) :
    sorted names = names := by
  have hempty : IsIncreasing ([] ++ names) := h
  exact foldl_insert_of_isIncreasing names hempty

end Names

/-! ## The globals of a configuration -/

namespace Config

/-- The globals of a configuration with further ones are those of both. -/
theorem mem_withGlobals {c : Config} {names : List Text} {x : Text} :
    x ∈ (c.withGlobals names).globals ↔ x ∈ c.globals ∨ x ∈ names :=
  Names.mem_foldl_insert names c.globals

/-- A configuration made from names in their order has just these globals. -/
theorem ofNames_of_isIncreasing {names : List Text} (h : Names.IsIncreasing names) (stem : Value) :
    ofNames names stem = ⟨names, stem⟩ :=
  congrArg (Config.mk · stem) (Names.sorted_of_isIncreasing h)

theorem validate_eq_nil_iff {c : Config} :
    c.validate = [] ↔ stemErrors c.stem = [] ∧ (∀ name ∈ c.globals, isAcceptedName name = true) ∧
      Word.eval ∉ c.globals := by
  have hnames : ((c.globals.filter fun name => !isAcceptedName name).map fun name =>
      Text.ofString "Global is not an identifier: " ++ Quoted.text name) = [] ↔
        ∀ name ∈ c.globals, isAcceptedName name = true := by
    rw [List.map_eq_nil_iff, List.filter_eq_nil_iff]
    simp only [Bool.not_eq_true', Bool.not_eq_false]
  have heval : (if Word.eval ∈ c.globals then
      [Text.ofString "'eval' can never be an ambient global"] else []) = [] ↔
        Word.eval ∉ c.globals := by
    by_cases h : Word.eval ∈ c.globals
    · rw [if_pos h]
      exact ⟨fun hnil => absurd hnil (List.cons_ne_nil _ _), fun hn => absurd h hn⟩
    · rw [if_neg h]
      exact ⟨fun _ => h, fun _ => rfl⟩
  rw [validate, List.append_eq_nil_iff, List.append_eq_nil_iff, hnames, heval, and_assoc]

/-- A stem without fault can be shown. -/
theorem hasLongNumber_of_stemErrors {stem : Value} (h : stemErrors stem = []) :
    stem.hasLongNumber = false := by
  cases stem
  case text => rfl
  all_goals cases h

/-- **A valid configuration** has a stem without fault, and names that are accepted for globals,
among which is no `eval`. -/
theorem check_eq_nil_iff {c : Config} :
    c.check = .ok [] ↔ stemErrors c.stem = [] ∧ (∀ name ∈ c.globals, isAcceptedName name = true) ∧
      Word.eval ∉ c.globals := by
  rw [← validate_eq_nil_iff, check]
  constructor
  · intro h
    split at h
    · cases h
    · exact Except.ok.inj h
  · intro h
    rw [if_neg (Bool.eq_false_iff.1 (hasLongNumber_of_stemErrors (validate_eq_nil_iff.1 h).1)), h]

end Config

/-- Compilers are made for valid configurations only. -/
theorem Compiler.check_of_ofConfig? {config : Config} {isFurtherGlobal : Text → Bool}
    {c : Compiler} (h : Compiler.ofConfig? config isFurtherGlobal = .ok c) :
    config.check = .ok [] := by
  rw [ofConfig?] at h
  split at h
  · assumption
  · cases h
  · cases h

/-- The stem of a compiler is that of its configuration, and has no fault. -/
theorem Compiler.stem_of_ofConfig? {config : Config} {isFurtherGlobal : Text → Bool}
    {c : Compiler} (h : Compiler.ofConfig? config isFurtherGlobal = .ok c) :
    c.stem = config.stem.text?.getD [] ∧ Config.stemErrors config.stem = [] := by
  refine ⟨?_, (Config.check_eq_nil_iff.1 (check_of_ofConfig? h)).1⟩
  rw [ofConfig?, check_of_ofConfig? h] at h
  exact congrArg Compiler.stem (Except.ok.inj h).symm

end Elementwise
