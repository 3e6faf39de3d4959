import Elementwise.Proofs.Reading

/-!
# Where tokens end

A word is read as far as the characters of a name go, and a number must not run into a name.  Any
other token ends with a character that belongs to no name.  So what starts a name behind a token
starts a new one.

## What is here

* `Name.ends_token`, `Number.ends_token`, `Regex.ends_read` — what cannot follow words, numbers and
  regular expressions.
* `StringLiteral.ends_token`, `Template.ends_token`, `Punctuator.isNamePart_of_mem_text` — how the
  other tokens end.
* `CodePoint.isNamePart_of_isBlank`, `CodePoint.isNamePart_of_isLineTerminator` — what separates
  tokens belongs to no name.
-/

set_option autoImplicit false
namespace Elementwise

variable {p p' : Place} {t t' : Text} {kind : TokenKind}

/-! ## What belongs to no name -/

namespace CodePoint

theorem isNamePart_of_isLineTerminator {c : CodePoint} (h : c.isLineTerminator = true) :
    c.isNamePart = false := by
  cases c with
  | surrogate k => cases h
  | scalar c =>
    simp only [isLineTerminator, Bool.or_eq_true, beq_iff_eq] at h
    rcases h with ((rfl | rfl) | rfl) | rfl <;> decide +kernel

theorem isNamePart_of_isBlank {c : CodePoint} (h : c.isBlank = true) : c.isNamePart = false := by
  cases c with
  | surrogate k => cases h
  | scalar c =>
    have hspace :
        ∀ k ∈ List.range 11, (CodePoint.scalar (Char.ofNat (0x2000 + k))).isNamePart = false := by
      decide +kernel
    simp only [isBlank, Bool.or_eq_true, Bool.and_eq_true, beq_iff_eq, decide_eq_true_eq] at h
    rcases h with (((rfl | rfl) | rfl) | rfl) |
      ⟨-, ((((((rfl | rfl) | rfl) | ⟨h₁, h₂⟩) | rfl) | rfl) | rfl) | rfl⟩
    case inr.inl.inl.inl.inl.inr =>
      have := hspace (c.toNat - 0x2000) (by rw [List.mem_range]; omega)
      rwa [Nat.add_sub_cancel' h₁, Char.ofNat_toNat] at this
    all_goals decide +kernel

end CodePoint

/-! ## Words -/

namespace Name

theorem ends_rest {fuel : Nat} {done name : Text}
    (h : rest fuel done p t = .ok (name, p', t')) (hfuel : t.length ≤ fuel) :
    ∀ c ∈ t'.head?, c.isNamePart = false := by
  fun_induction rest fuel done p t
  case case1 hescape ih =>
    have := (reaches_escape hescape).suffix.length_le
    refine ih h ?_
    rw [List.length_cons] at hfuel
    omega
  case case2 => cases h
  case case3 hpart ih => exact ih h (Nat.le_of_succ_le_succ hfuel)
  case case4 c t _ hpart =>
    cases h
    simpa using hpart
  case case5 fuel done p t hne =>
    cases h
    cases t' with
    | nil => simp
    | cons c t =>
      obtain ⟨n, rfl⟩ : ∃ n, fuel = n + 1 := ⟨fuel - 1, by rw [List.length_cons] at hfuel; omega⟩
      exact (hne n c t rfl rfl).elim

theorem ends_read {name : Text} (h : read p t = .ok (name, p', t')) :
    ∀ c ∈ t'.head?, c.isNamePart = false := by
  unfold read at h
  split at h
  · cases h
    simp
  · next c t =>
    split at h
    · split at h
      · next d q u hescape => exact ends_rest h (reaches_escape hescape).suffix.length_le
      · cases h
    · exact ends_rest h (Nat.le_refl _)

/-- **A word is read as far as the characters of a name go.** -/
theorem ends_token (h : token p t = .ok (kind, p', t')) :
    ∀ c ∈ t'.head?, c.isNamePart = false := by
  unfold token at h
  split at h
  · cases h
  · next hread =>
    have hends := ends_read hread
    split at h
    · cases h
      exact hends
    · split at h
      · cases h
        exact hends
      · cases h

end Name

/-! ## Numbers and regular expressions -/

namespace Number

theorem ends_inBase {base : Nat} {isDigit stops : CodePoint → Bool} {octal : Bool}
    (h : inBase base isDigit stops octal p t = .ok (kind, p', t'))
    (hstops : ∀ c, c.isNameStart = true → stops c = true) :
    ∀ c ∈ t'.head?, c.isNameStart = false := by
  unfold inBase at h
  dsimp only at h
  split at h
  · cases h
  · next hstop =>
    cases h
    intro c hc
    rw [Bool.or_eq_true, not_or, Bool.not_eq_true, Bool.not_eq_true, Option.any_eq_false] at hstop
    exact Bool.eq_false_iff.2 fun hstart => Bool.eq_false_iff.1 (hstop.2 c hc) (hstops c hstart)

theorem suffix_decimal {c : CodePoint} (h : decimal p (c :: t) = .ok (kind, p', t'))
    (hc : c.isDigit = true ∨ c = '.') : t' <:+ t := by
  unfold decimal at h
  extract_lets whole u q at h
  have hu : u = (c :: t).dropWhile CodePoint.isDigit := rfl
  clear_value u
  split at h
  next fraction q' u' hfraction =>
  have hsuffix : u' <:+ t := by
    split at hfraction
    · next v =>
      cases hfraction
      have hv : .scalar '.' :: v <:+ c :: t := hu ▸ List.dropWhile_suffix _
      refine (List.dropWhile_suffix _).trans ?_
      rcases List.suffix_cons_iff.1 hv with heq | hv
      · cases heq
        exact List.suffix_rfl
      · exact (List.suffix_cons _ v).trans hv
    · next hne =>
      cases hfraction
      by_cases hdigit : c.isDigit = true
      · rw [hu, List.dropWhile_cons_of_pos hdigit]
        exact List.dropWhile_suffix _
      · rw [List.dropWhile_cons_of_neg hdigit] at hu
        obtain rfl := hc.resolve_left hdigit
        exact (hne t hu).elim
  grind [Place.Reaches, Place.step, → reaches_exponent]

/-- A number takes at least the character with which it starts. -/
theorem suffix_token {c : CodePoint} (h : token p (c :: t) = .ok (kind, p', t'))
    (hc : c.isDigit = true ∨ c = '.') : t' <:+ t := by
  unfold token at h
  split at h
  all_goals grind [Place.Reaches, Place.step, → reaches_inBase, → suffix_decimal]

/-- **No number runs into a name.** -/
theorem ends_token (h : token p t = .ok (kind, p', t')) :
    ∀ c ∈ t'.head?, c.isNameStart = false := by
  have hdecimal {p : Place} {t : Text} (h : decimal p t = .ok (kind, p', t')) :
      ∀ c ∈ t'.head?, c.isNameStart = false := by
    unfold decimal at h
    extract_lets whole u q at h
    split at h
    extract_lets tail at h
    clear_value tail
    split at h
    · cases h
    · split at h
      · cases h
      · next hstart =>
        cases h
        exact (Option.any_eq_false _ _).1 (Bool.eq_false_iff.2 hstart)
  unfold token at h
  split at h
  all_goals grind [runsOn, → ends_inBase]

end Number

namespace Regex

theorem ends_flags {done marks : Text} (h : flags done p t = .ok (marks, p', t')) :
    ∀ c ∈ t'.head?, c.isNamePart = false := by
  fun_induction flags done p t
  all_goals grind

/-- The flags of a regular expression are read as far as the characters of a name go. -/
theorem ends_read {body marks : Text} (h : read p t = .ok (body, marks, p', t')) :
    ∀ c ∈ t'.head?, c.isNamePart = false := by
  unfold read at h
  split at h <;> grind [→ ends_flags]

end Regex

/-! ## Strings, templates and symbols -/

namespace StringLiteral

theorem ends_body {quote : CodePoint} {start fuel : Nat} {done value : Text}
    {octal octal' : Bool} (h : body quote start fuel done octal p t = .ok (value, octal', p', t')) :
    quote :: t' <:+ t := by
  fun_induction body quote start fuel done octal p t
  case case1 =>
    cases h
    exact List.suffix_rfl
  all_goals grind [→ reaches_escape, Place.Reaches]

/-- A string ends with its quote, which is not the one it began with. -/
theorem ends_token {quote : CodePoint} (h : token quote p t = .ok (kind, p', t')) :
    quote :: t' <:+ t := by
  unfold token at h
  split at h
  · next hbody =>
    cases h
    exact ends_body hbody
  · cases h

end StringLiteral

namespace Template

theorem ends_body {fuel : Nat} {done value : Text} {tail : Bool}
    (h : body fuel done p t = .ok (value, tail, p', t')) :
    ∃ c, c :: t' <:+ t ∧ c.isNamePart = false := by
  fun_induction body fuel done p t
  case case1 =>
    cases h
    exact ⟨quote, List.suffix_rfl, by decide⟩
  case case2 c t _ hbrace =>
    cases h
    obtain ⟨-, hhead⟩ : c = '$' ∧ t.head? = some (.scalar '{') := by simpa using hbrace
    obtain ⟨u, rfl⟩ := List.head?_eq_some_iff.1 hhead
    exact ⟨'{', List.suffix_cons _ _, by decide⟩
  all_goals grind [→ reaches_escape, Place.Reaches]

/-- A piece of a template ends with its closing quote or with the brace of a substitution. -/
theorem ends_token {head : Bool} (h : token head p t = .ok (kind, p', t')) :
    ∃ c, c :: t' <:+ t ∧ c.isNamePart = false := by
  unfold token at h
  split at h
  · next hbody =>
    cases h
    exact ends_body hbody
  · cases h

end Template

/-- No character of a symbol belongs to a name. -/
theorem Punctuator.isNamePart_of_mem_text {q : Punctuator} (h : longest? t = some q) :
    q.text ≠ [] ∧ ∀ c ∈ q.text, c.isNamePart = false := by
  have hall : ∀ q ∈ all, q.text ≠ [] ∧ ∀ c ∈ q.text, c.isNamePart = false := by decide
  exact hall q (List.mem_of_find?_eq_some h)

end Elementwise
