import Elementwise.Proofs.ConfiguredName
import Elementwise.Proofs.NameSet

/-!
# What a configuration is refused for

A configuration is a stem and a set of names, and its faults are told one by one: one of the stem,
one for each name that is refused, in the order of the names, and one for `eval`.  A name is meant
to be refused if it is no identifier of ASCII letters, digits, underscores and dollars.  But what is
looked for is the end of the last line, not that of the text, so an identifier with a line feed
behind it is let through as well.  A stem is not: it has to end in an underscore.

## What is here

* `Config.IsIdentifier` — identifiers, told by the characters they are made of;
  `Config.isName_eq_true_iff` — the names of a configuration are just these.
* `Config.PassesForIdentifier` — an identifier, or one with a line feed behind it.
* `Config.IsStem`, `Config.StemFault` — the stems, and what is wrong with what is none.
* `Config.check_ofNames` — which configurations have no fault, which faults the others have, and
  for which ones a compiler is made.
-/

set_option autoImplicit false
namespace Elementwise
namespace Config

/-! ## Identifiers -/

/-- The characters an identifier starts with. -/
def leading : Text :=
  .ofChars
    ['A', 'B', 'C', 'D', 'E', 'F', 'G', 'H', 'I', 'J', 'K', 'L', 'M', 'N', 'O', 'P', 'Q', 'R',
      'S', 'T', 'U', 'V', 'W', 'X', 'Y', 'Z', 'a', 'b', 'c', 'd', 'e', 'f', 'g', 'h', 'i', 'j',
      'k', 'l', 'm', 'n', 'o', 'p', 'q', 'r', 's', 't', 'u', 'v', 'w', 'x', 'y', 'z', '_', '$']

/-- The characters an identifier may hold besides. -/
def digits : Text := .ofChars ['0', '1', '2', '3', '4', '5', '6', '7', '8', '9']

/-- An identifier of ASCII characters, from the first character of a text to the last. -/
def IsIdentifier (t : Text) : Prop :=
  ∃ c rest, t = c :: rest ∧ c ∈ leading ∧ ∀ d ∈ rest, d ∈ leading ∨ d ∈ digits

variable {c : CodePoint} {t m : Text} {stem : Value}

theorem mem_leading_or_digits (h : continuesName c = true) : c ∈ leading ∨ c ∈ digits :=
  of_decide_eq_true
    (forall_continuesName (fun c => decide (c ∈ leading ∨ c ∈ digits)) (by decide) h)

theorem mem_leading_iff : c ∈ leading ↔ startsName c = true := by
  have hleading : ∀ c ∈ leading, startsName c = true := by decide
  have hdigits : ∀ c ∈ digits, startsName c = false := by decide
  refine ⟨hleading c, fun h => ?_⟩
  refine (mem_leading_or_digits (by rw [continuesName, h, Bool.true_or])).resolve_right fun hc => ?_
  rw [hdigits c hc] at h
  cases h

theorem mem_leading_or_digits_iff : c ∈ leading ∨ c ∈ digits ↔ continuesName c = true := by
  have hdigits : ∀ c ∈ digits, c.isDigit = true := by decide
  refine ⟨?_, mem_leading_or_digits⟩
  rintro (h | h)
  · rw [continuesName, mem_leading_iff.1 h, Bool.true_or]
  · rw [continuesName, hdigits c h, Bool.or_true]

/-- **The names of a configuration are the identifiers.** -/
theorem isName_eq_true_iff : isName t = true ↔ IsIdentifier t := by
  cases t with
  | nil => simp [isName, IsIdentifier]
  | cons c t =>
    simp only [isName, IsIdentifier, Bool.and_eq_true, List.all_eq_true, ← mem_leading_iff,
      ← mem_leading_or_digits_iff, List.cons.injEq, ↓existsAndEq, and_true, true_and]

/-- An identifier, or one with a line feed behind it. -/
def PassesForIdentifier (t : Text) : Prop :=
  IsIdentifier t ∨ ∃ name, IsIdentifier name ∧ t = name ++ [.scalar '\n']

theorem isAcceptedName_eq_true_iff : isAcceptedName t = true ↔ PassesForIdentifier t := by
  simp only [isAcceptedName_iff, isName_eq_true_iff, PassesForIdentifier]

/-! ## Stems -/

/-- An identifier that ends in an underscore. -/
def IsStem (stem : Value) : Prop :=
  ∃ t, stem = .text t ∧ IsIdentifier t ∧ t.getLast? = some underscore

/-- What is told of a value that is no stem. -/
inductive StemFault (stem : Value) : Text → Prop
  | noIdentifier (h : ∀ t, stem = .text t → ¬PassesForIdentifier t) :
    StemFault stem (.ofString "prefix_stem must be an identifier: " ++ stem.quoted)
  | noUnderscore (t : Text) (h : stem = .text t) (ht : PassesForIdentifier t)
      (hlast : t.getLast? ≠ some underscore) :
    StemFault stem (.ofString "prefix_stem must end with '_': " ++ stem.quoted)

theorem StemFault.not_isStem (h : StemFault stem m) : ¬IsStem stem := by
  rintro ⟨t, rfl, ht, hlast⟩
  cases h with
  | noIdentifier h => exact h t rfl (.inl ht)
  | noUnderscore s hs _ hne => exact hne (by rwa [← Value.text.inj hs])

theorem text?_eq_some_iff : stem.text? = some t ↔ stem = .text t := by
  cases stem <;> simp [Value.text?]

/-- **A stem has no fault, and what is none has one.** -/
theorem stemErrors_spec (stem : Value) :
    IsStem stem ∧ stemErrors stem = [] ∨ ∃ m, StemFault stem m ∧ stemErrors stem = [m] := by
  rw [stemErrors]
  split
  · next hnone =>
    refine .inr ⟨_, .noIdentifier fun t ht hpasses => ?_, rfl⟩
    rw [text?_eq_some_iff.2 ht, Option.filter_some, isAcceptedName_eq_true_iff.2 hpasses] at hnone
    cases hnone
  · next t hsome =>
    obtain ⟨htext, haccepted⟩ := Option.filter_eq_some_iff.1 hsome
    have hstem := text?_eq_some_iff.1 htext
    have hpasses := isAcceptedName_eq_true_iff.1 haccepted
    split
    · next hlast =>
      refine .inl ⟨⟨t, hstem, hpasses.resolve_right ?_, hlast⟩, rfl⟩
      rintro ⟨name, -, rfl⟩
      rw [List.getLast?_concat] at hlast
      cases hlast
    · next hlast => exact .inr ⟨_, .noUnderscore t hstem hpasses hlast, rfl⟩

theorem stemErrors_eq_nil_iff : stemErrors stem = [] ↔ IsStem stem := by
  rcases stemErrors_spec stem with ⟨h, hnil⟩ | ⟨m, h, hone⟩
  · exact iff_of_true hnil h
  · exact iff_of_false (by simp [hone]) h.not_isStem

/-! ## Configurations -/

/-- Exactly the stems and the names that pass, `eval` apart, make up a configuration without
fault. -/
theorem check_ofNames_eq_nil_iff (names : List Text) (stem : Value) :
    (ofNames names stem).check = .ok [] ↔
      IsStem stem ∧ (∀ name ∈ names, PassesForIdentifier name) ∧ Word.eval ∉ names := by
  rw [check_eq_nil_iff]
  simp only [ofNames, Names.mem_sorted, isAcceptedName_eq_true_iff, stemErrors_eq_nil_iff]

/-- The names of a configuration that are refused, in their order. -/
theorem exists_rejected (names : List Text) :
    ∃ rejected, (Names.sorted names).filter (fun name => !isAcceptedName name) = rejected ∧
      Names.IsIncreasing rejected ∧
        ∀ name, name ∈ rejected ↔ name ∈ names ∧ ¬PassesForIdentifier name := by
  refine ⟨_, rfl, (Names.isIncreasing_sorted names).filter _, fun name => ?_⟩
  rw [List.mem_filter, Names.mem_sorted, Bool.not_eq_true', ← Bool.not_eq_true,
    isAcceptedName_eq_true_iff]

/-- **What a configuration is refused for.**  It is a valid one, and a compiler is made for it, if
its stem is an identifier that ends in an underscore, its names are identifiers, but for a line feed
behind them, and `eval` is none of them.  Otherwise there is one message of a stem that is none, one
of each other name in the order of the names, and one of `eval`; or there are no messages at all,
because the stem holds a number that cannot be shown. -/
theorem check_ofNames (names : List Text) (stem : Value) (isFurtherGlobal : Text → Bool) :
    ((ofNames names stem).check = .ok [] ↔
      IsStem stem ∧ (∀ name ∈ names, PassesForIdentifier name) ∧ Word.eval ∉ names) ∧
    ((∃ c, Compiler.ofConfig? (ofNames names stem) isFurtherGlobal = .ok c) ↔
      (ofNames names stem).check = .ok []) ∧
    (stem.hasLongNumber = true ∧ (ofNames names stem).check = .error .longNumber ∨
      stem.hasLongNumber = false ∧
      ∃ ofStem rejected ofEval, (ofNames names stem).check = .ok (ofStem ++
          rejected.map
            (fun name => .ofString "Global is not an identifier: " ++ Quoted.text name) ++
          ofEval) ∧
        (IsStem stem ∧ ofStem = [] ∨ ¬IsStem stem ∧ ∃ m, StemFault stem m ∧ ofStem = [m]) ∧
        Names.IsIncreasing rejected ∧
        (∀ name, name ∈ rejected ↔ name ∈ names ∧ ¬PassesForIdentifier name) ∧
        (Word.eval ∉ names ∧ ofEval = [] ∨
          Word.eval ∈ names ∧ ofEval = [.ofString "'eval' can never be an ambient global"])) := by
  refine ⟨check_ofNames_eq_nil_iff names stem, ⟨?_, ?_⟩, ?_⟩
  · rintro ⟨c, hc⟩
    exact Compiler.check_of_ofConfig? hc
  · intro h
    exact ⟨_, by rw [Compiler.ofConfig?, h]⟩
  by_cases hlong : stem.hasLongNumber = true
  · exact .inl ⟨hlong, if_pos hlong⟩
  · obtain ⟨rejected, heq, hincreasing, hmem⟩ := exists_rejected names
    have hstem : IsStem stem ∧ stemErrors stem = [] ∨
        ¬IsStem stem ∧ ∃ m, StemFault stem m ∧ stemErrors stem = [m] := by
      rcases stemErrors_spec stem with h | ⟨m, h, hone⟩
      · exact .inl h
      · exact .inr ⟨h.not_isStem, m, h, hone⟩
    rw [check, if_neg (show ¬(ofNames names stem).stem.hasLongNumber = true from hlong), validate,
      ofNames, heq]
    simp only [Names.mem_sorted]
    refine .inr ⟨Bool.eq_false_iff.2 hlong, stemErrors stem, rejected, _, rfl, hstem,
      hincreasing, hmem, ?_⟩
    by_cases h : Word.eval ∈ names
    · exact .inr ⟨h, if_pos h⟩
    · exact .inl ⟨h, if_neg h⟩

/-- A name with a line feed behind it, which is no identifier, is let through. -/
theorem check_lineFeed :
    (ofNames [['a', '\n']] (.text defaultStem)).check = .ok [] ∧ ¬IsIdentifier ['a', '\n'] := by
  rw [← isName_eq_true_iff]
  decide

end Config
end Elementwise
