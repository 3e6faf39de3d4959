import Elementwise.Proofs.NameSet
import Elementwise.Proofs.WordBoundary

/-!
# Configured names

A valid configuration holds names made of letters, digits, underscores and dollars, and its stem is
one of them.  All these characters go on with a name, and so does every prefix that a compiler
draws.

## What is here

* `Config.forall_continuesName` — what holds of the few characters of names.
* `Config.isAcceptedName_iff` — the texts that are taken for names.
* `Compiler.isPlain_of_mem_prefixFor` — the prefixes of a compiler.
-/

set_option autoImplicit false
namespace Elementwise

namespace Config

/-! ## Names -/

/-- The characters of names are few, so what holds of each of them holds of all. -/
theorem forall_continuesName (p : CodePoint → Bool)
    (h : ∀ n < 128, continuesName (.scalar (Char.ofNat n)) = true →
      p (.scalar (Char.ofNat n)) = true) {c : CodePoint} (hc : continuesName c = true) :
    p c = true := by
  cases c with
  | surrogate k => cases hc
  | scalar d =>
    have hd : d.toNat < 128 := by
      change ((decide (65 ≤ d.val ∧ d.val ≤ 90) ||
        decide (97 ≤ d.val) && decide (d.val ≤ 122) || decide (d = '_') || decide (d = '$')) ||
          decide (48 ≤ d.val) && decide (d.val ≤ 57)) = true at hc
      simp only [Bool.or_eq_true, Bool.and_eq_true, decide_eq_true_iff] at hc
      rcases hc with (((⟨-, hc⟩ | ⟨-, hc⟩) | rfl) | rfl) | ⟨-, hc⟩
      · exact Nat.lt_of_le_of_lt (UInt32.le_iff_toNat_le.1 hc) (by decide)
      · exact Nat.lt_of_le_of_lt (UInt32.le_iff_toNat_le.1 hc) (by decide)
      · decide
      · decide
      · exact Nat.lt_of_le_of_lt (UInt32.le_iff_toNat_le.1 hc) (by decide)
    have hofNat := h d.toNat hd
    rw [Char.ofNat_toNat] at hofNat
    exact hofNat hc

/-- A character of names is none that a name cannot hold. -/
theorem ne_of_continuesName {c d : CodePoint} (hc : continuesName c = true)
    (hd : continuesName d = false) : c ≠ d := by
  rintro rfl
  rw [hc] at hd
  cases hd

theorem all_continuesName {t : Text} (h : isName t = true) : ∀ c ∈ t, continuesName c = true := by
  cases t with
  | nil => cases h
  | cons c t =>
    obtain ⟨hc, ht⟩ := Bool.and_eq_true_iff.1 h
    intro d hd
    rcases List.mem_cons.1 hd with rfl | hd
    · rw [continuesName, hc, Bool.true_or]
    · exact List.all_eq_true.1 ht d hd

theorem ne_nil_of_isName {t : Text} (h : isName t = true) : t ≠ [] := by
  rintro rfl
  cases h

/-- **The texts that are taken for names**: names, and names with a line feed behind them. -/
theorem isAcceptedName_iff {t : Text} :
    isAcceptedName t = true ↔
      isName t = true ∨ ∃ name, isName name = true ∧ t = name ++ [.scalar '\n'] := by
  rw [isAcceptedName, Bool.or_eq_true, Bool.and_eq_true, decide_eq_true_iff]
  refine or_congr_right ?_
  constructor
  · rintro ⟨hlast, hname⟩
    exact ⟨_, hname, (List.dropLast_append_getLast? _ hlast).symm⟩
  · rintro ⟨name, hname, rfl⟩
    rw [List.getLast?_append, List.dropLast_concat]
    exact ⟨rfl, hname⟩

/-! ## Stems -/

/-- What a configured name may hold goes on with a name. -/
theorem isPlain_of_continuesName {c : CodePoint} (h : continuesName c = true) : Name.IsPlain c :=
  of_decide_eq_true (forall_continuesName (fun c => decide (Name.IsPlain c)) (by decide) h)

/-- The stem of a valid configuration is a name. -/
theorem isName_of_stemErrors {stem : Value} (h : stemErrors stem = []) :
    isName (stem.text?.getD []) = true := by
  rw [stemErrors] at h
  split at h
  · cases h
  · next t ht =>
    split at h
    · next hlast =>
      obtain ⟨htext, haccepted⟩ := Option.filter_eq_some_iff.1 ht
      rw [htext, Option.getD_some]
      rcases isAcceptedName_iff.1 haccepted with hname | ⟨name, -, rfl⟩
      · exact hname
      · rw [List.getLast?_concat] at hlast
        cases hlast
    · cases h

end Config

/-! ## Prefixes -/

theorem isPlain_of_mem_ofNat {n : Nat} {c : CodePoint} (h : c ∈ Text.ofNat n) : Name.IsPlain c := by
  refine Config.isPlain_of_continuesName ?_
  rw [Config.continuesName, Text.isDigit_of_mem_ofNat h, Bool.or_true]

/-- **The prefixes of a compiler that was made go on like names.** -/
theorem Compiler.isPlain_of_mem_prefixFor {config : Config} {isFurtherGlobal : Text → Bool}
    {c : Compiler} (h : ofConfig? config isFurtherGlobal = .ok c) (number : Nat) :
    ∀ d ∈ PrefixSequence.prefixFor c.stem number, Name.IsPlain d := by
  obtain ⟨hstem, hfaultless⟩ := stem_of_ofConfig? h
  have hall := Config.all_continuesName (Config.isName_of_stemErrors hfaultless)
  rw [hstem]
  intro d hd
  rcases List.mem_append.1 hd with hd | hd
  · rcases List.mem_append.1 hd with hd | hd
    · exact Config.isPlain_of_continuesName (hall d hd)
    · exact isPlain_of_mem_ofNat hd
  · rw [List.mem_singleton.1 hd]
    decide

end Elementwise
