import Elementwise.Token.Lexer

/-!
# Reading goes forward

Whatever reads a part of a text takes it from the front: what is left is a suffix of what was there,
and the place moves on by as many code points as were taken.  This holds for separators, for every
kind of token, and so for the reader as a whole.

## What is here

* `Place.Reaches` — from one place in front of a text, another one in front of the rest of it.
* `Separator.reaches_skip`, `Name.reaches_token`, `StringLiteral.reaches_token`,
  `Template.reaches_token`, `Number.reaches_token`, `Regex.reaches_read` — one for each reader.
* `Number.exponent?`, `Number.behindDigits` — the parts of a decimal numeral behind its digits.
* `Reader.reaches_skipSeparators`, `Reader.reaches_token` — the reader of tokens.
-/

set_option autoImplicit false
namespace Elementwise

/-- A reader that stands at `p` in front of the text `t` can come to stand at `p'` in front of
`t'`. -/
structure Place.Reaches (p : Place) (t : Text) (p' : Place) (t' : Text) : Prop where
  suffix : t' <:+ t
  total : p'.index + t'.length = p.index + t.length

namespace Place.Reaches

variable {p p' p'' : Place} {t t' t'' : Text}

theorem refl (p : Place) (t : Text) : p.Reaches t p t := ⟨List.suffix_rfl, rfl⟩

theorem trans (h : p.Reaches t p' t') (h' : p'.Reaches t' p'' t'') : p.Reaches t p'' t'' :=
  ⟨h'.suffix.trans h.suffix, h'.total.trans h.total⟩

theorem le (h : p.Reaches t p' t') : p.index ≤ p'.index := by
  have := h.suffix.length_le
  have := h.total
  omega

theorem le_length (h : p.Reaches t p' t') : p'.index ≤ p.index + t.length := by
  have := h.total
  omega

/-- What is left is determined by how far the place has moved. -/
theorem eq_drop (h : p.Reaches t p' t') : t' = t.drop (p'.index - p.index) := by
  obtain ⟨w, rfl⟩ := h.suffix
  have := h.total
  rw [List.length_append] at this
  rw [show p'.index - p.index = w.length by omega, List.drop_left]

theorem drop_index (h : (Place.beginning t).Reaches t p t') : t.drop p.index = t' :=
  h.eq_drop.symm

end Place.Reaches

/-! ## Suffixes

The rules by which what is left after a few steps is seen to be a suffix. -/

namespace Text

theorem suffix_of_drop {t u : Text} (n : Nat) (h : u <:+ t.drop n) : u <:+ t :=
  h.trans (List.drop_suffix n t)

theorem suffix_cons_of_suffix {c : CodePoint} {t u : Text} (h : u <:+ t) : u <:+ c :: t :=
  h.trans (List.suffix_cons c t)

theorem length_drop_one {c : CodePoint} {t : Text} (h : t.head? = some c) :
    (t.drop 1).length + 1 = t.length := by
  cases t with
  | nil => cases h
  | cons => rfl

theorem length_takeWhile_add_dropWhile (f : CodePoint → Bool) (t : Text) :
    (t.takeWhile f).length + (t.dropWhile f).length = t.length := by
  rw [← List.length_append, List.takeWhile_append_dropWhile]

end Text

grind_pattern List.suffix_cons => a :: l
grind_pattern List.drop_suffix => List.drop i l
grind_pattern List.dropWhile_suffix => List.dropWhile p l
grind_pattern List.IsSuffix.trans => l₁ <:+ l₂, l₂ <:+ l₃
grind_pattern Text.suffix_cons_of_suffix => u <:+ t, c :: t
grind_pattern Text.suffix_of_drop => u <:+ t.drop n
grind_pattern Text.length_drop_one => t.head?, t.drop 1, some c
grind_pattern Text.length_takeWhile_add_dropWhile => t.takeWhile f
grind_pattern Text.length_takeWhile_add_dropWhile => t.dropWhile f

/-! ## Separators -/

theorem Separator.reaches_skip {mode : Mode} {fresh : Bool} {p p' : Place} {t t' : Text}
    (h : skip mode fresh p t = .ok (p', t')) : p.Reaches t p' t' := by
  fun_induction skip mode fresh p t
  all_goals grind [Place.Reaches, Place.step, Place.newLine]

/-! ## Tokens -/

variable {p p' : Place} {t t' : Text}

namespace Escape

theorem reaches_hexDigits {n value : Nat} {r : Option Nat}
    (h : hexDigits n value p t = (r, p', t')) : p.Reaches t p' t' := by
  fun_induction hexDigits n value p t
  all_goals grind [Place.Reaches, Place.step]

theorem reaches_bracedDigits {value : Nat} {c : CodePoint}
    (h : bracedDigits value p t = .ok (c, p', t')) : p.Reaches t p' t' := by
  fun_induction bracedDigits value p t
  all_goals grind [Place.Reaches, Place.step]

theorem reaches_braced {c : CodePoint} (h : braced p t = .ok (c, p', t')) :
    p.Reaches t p' t' := by
  rw [braced] at h
  split at h
  · cases h
  · exact reaches_bracedDigits h

theorem reaches_octal {first c : CodePoint} {isOctal : Bool}
    (h : octal first p t = (c, isOctal, p', t')) : p.Reaches t p' t' := by
  unfold octal at h
  split at h <;> grind [Place.Reaches, Place.step]

end Escape

namespace Name

theorem reaches_escape {allowed : CodePoint → Bool} {c : CodePoint}
    (h : escape allowed p t = .ok (c, p', t')) : p.Reaches t p' t' := by
  unfold escape at h
  split at h <;>
    grind [Place.Reaches, Place.step, → Escape.reaches_braced, → Escape.reaches_hexDigits]

theorem reaches_rest {fuel : Nat} {done name : Text}
    (h : rest fuel done p t = .ok (name, p', t')) : p.Reaches t p' t' := by
  fun_induction rest fuel done p t
  all_goals grind [Place.Reaches, Place.step, → reaches_escape]

theorem reaches_read {name : Text} (h : read p t = .ok (name, p', t')) : p.Reaches t p' t' := by
  unfold read at h
  split at h <;> grind [Place.Reaches, Place.step, → reaches_escape, → reaches_rest]

theorem reaches_token {kind : TokenKind} (h : token p t = .ok (kind, p', t')) :
    p.Reaches t p' t' := by
  unfold token at h
  split at h <;> grind [→ reaches_read]

end Name

namespace StringLiteral

theorem reaches_escape {c d : CodePoint} {octal : Bool}
    (h : escape c p t = .ok (d, octal, p', t')) : p.Reaches t p' t' := by
  unfold escape at h
  split at h <;>
    grind [Place.Reaches, Place.step, → Escape.reaches_braced, → Escape.reaches_hexDigits,
      → Escape.reaches_octal]

theorem reaches_body {quote : CodePoint} {start fuel : Nat} {done value : Text}
    {octal octal' : Bool} (h : body quote start fuel done octal p t = .ok (value, octal', p', t')) :
    p.Reaches t p' t' := by
  fun_induction body quote start fuel done octal p t
  all_goals grind [Place.Reaches, Place.step, Place.newLine, → reaches_escape]

theorem reaches_token {quote : CodePoint} {kind : TokenKind}
    (h : token quote p t = .ok (kind, p', t')) : p.Reaches (quote :: t) p' t' := by
  unfold token at h
  split at h <;> grind [Place.Reaches, Place.step, → reaches_body]

end StringLiteral

namespace Template

theorem reaches_escape {c d : CodePoint} (h : escape c p t = .ok (d, p', t')) :
    p.Reaches t p' t' := by
  unfold escape at h
  split at h <;>
    grind [Place.Reaches, Place.step, → Escape.reaches_braced, → Escape.reaches_hexDigits]

theorem reaches_body {fuel : Nat} {done value : Text} {tail : Bool}
    (h : body fuel done p t = .ok (value, tail, p', t')) : p.Reaches t p' t' := by
  fun_induction body fuel done p t
  all_goals grind [Place.Reaches, Place.step, Place.newLine, → reaches_escape]

/-- A piece of a template is read behind the character that opens it. -/
theorem reaches_token {head : Bool} {kind : TokenKind}
    (h : token head p t = .ok (kind, p', t')) : (p.step 1).Reaches t p' t' := by
  unfold token at h
  split at h <;> grind [→ reaches_body]

end Template

namespace Number

theorem reaches_digits (f : CodePoint → Bool) (p : Place) (t : Text) :
    p.Reaches t (p.step (t.takeWhile f).length) (t.dropWhile f) := by
  have hlength := Text.length_takeWhile_add_dropWhile f t
  exact ⟨List.dropWhile_suffix f, by simp only [Place.step]; omega⟩

theorem reaches_inBase {base : Nat} {isDigit stops : CodePoint → Bool} {octal : Bool}
    {kind : TokenKind} (h : inBase base isDigit stops octal p t = .ok (kind, p', t')) :
    p.Reaches t p' t' := by
  grind [inBase, Place.Reaches, Place.step]

theorem reaches_exponent {n : Int} (h : exponent p t = .ok (n, p', t')) : p.Reaches t p' t' := by
  unfold exponent at h
  split at h
  grind [Place.Reaches, Place.step]

/-- An exponent, if there is one. -/
def exponent? (p : Place) (t : Text) : Except ParseError (Int × Place × Text) :=
  match t with
  | .scalar 'e' :: t => exponent (p.step 1) t
  | .scalar 'E' :: t => exponent (p.step 1) t
  | t => .ok (0, p, t)

theorem exponent?_eq : exponent? p t =
    if t.head? = some (.scalar 'e') ∨ t.head? = some (.scalar 'E') then
      exponent (p.step 1) (t.drop 1)
    else .ok (0, p, t) := by
  unfold exponent?
  split
  · rfl
  · rfl
  · next hlower hupper =>
    rw [if_neg]
    rintro (hhead | hhead) <;> obtain ⟨v, rfl⟩ := List.head?_eq_some_iff.1 hhead
    · exact hlower v rfl
    · exact hupper v rfl

theorem reaches_exponent? {n : Int} (h : exponent? p t = .ok (n, p', t')) : p.Reaches t p' t' := by
  unfold exponent? at h
  split at h <;> grind [Place.Reaches, Place.step, → reaches_exponent]

/-- The rest of a decimal numeral, behind its digits. -/
def behindDigits (whole fraction : Text) (p : Place) (t : Text) :
    Except ParseError (TokenKind × Place × Text) :=
  match exponent? p t with
  | .error e => .error e
  | .ok (power, p, t) =>
    if t.head?.any CodePoint.isNameStart then .error (p.fault .illegal)
    else .ok (.number ⟨Text.toNat 10 (whole ++ fraction), power - fraction.length⟩ false, p, t)

theorem decimal_eq_behindDigits {s : Text} (hs : t.dropWhile CodePoint.isDigit = s) :
    decimal p t =
      if s.head? = some (.scalar '.') then
        behindDigits (t.takeWhile CodePoint.isDigit) ((s.drop 1).takeWhile CodePoint.isDigit)
          ((p.step (t.takeWhile CodePoint.isDigit).length).step
            (1 + ((s.drop 1).takeWhile CodePoint.isDigit).length))
          ((s.drop 1).dropWhile CodePoint.isDigit)
      else behindDigits (t.takeWhile CodePoint.isDigit) []
        (p.step (t.takeWhile CodePoint.isDigit).length) s := by
  unfold decimal
  rw [hs]
  split
  · next hpoint =>
    obtain ⟨v, rfl⟩ := List.head?_eq_some_iff.1 hpoint
    rfl
  · next hpoint =>
    extract_lets whole a q
    have ha : a = s := rfl
    clear_value a
    subst ha
    split
    next fraction q s' heq =>
    split at heq
    · exact (hpoint rfl).elim
    · cases heq
      rfl

/-- The fraction is read or absent before the exponent is looked for. -/
theorem reaches_decimal {kind : TokenKind} (h : decimal p t = .ok (kind, p', t')) :
    p.Reaches t p' t' := by
  grind [decimal, Place.Reaches, Place.step, → reaches_exponent]

theorem reaches_token {kind : TokenKind} (h : token p t = .ok (kind, p', t')) :
    p.Reaches t p' t' := by
  unfold token at h
  split at h <;> grind [Place.Reaches, Place.step, → reaches_inBase, → reaches_decimal]

end Number

namespace Regex

theorem reaches_pattern {inClass : Bool} {done body : Text}
    (h : pattern inClass done p t = .ok (body, p', t')) : p.Reaches t p' t' := by
  fun_induction pattern inClass done p t
  all_goals grind [Place.Reaches, Place.step]

theorem reaches_flags {done marks : Text} (h : flags done p t = .ok (marks, p', t')) :
    p.Reaches t p' t' := by
  fun_induction flags done p t
  all_goals grind [Place.Reaches, Place.step]

/-- A regular expression is read behind its opening slash. -/
theorem reaches_read {body marks : Text} (h : read p t = .ok (body, marks, p', t')) :
    (p.step 1).Reaches t p' t' := by
  unfold read at h
  split at h <;> grind [Place.Reaches, → reaches_pattern, → reaches_flags]

/-- What is left out of the pattern is the opening slash; there is no pattern without one. -/
theorem reaches_of_read_drop {body marks : Text}
    (h : read p (t.drop 1) = .ok (body, marks, p', t')) : p.Reaches t p' t' := by
  cases t with
  | nil => cases h
  | cons c t =>
    have ⟨hsuffix, htotal⟩ := reaches_read h
    simp only [Place.step, List.drop_succ_cons, List.drop_zero] at hsuffix htotal
    refine ⟨Text.suffix_cons_of_suffix hsuffix, ?_⟩
    rw [List.length_cons]
    omega

end Regex

/-! ## The reader -/

/-- A punctuator is what the text begins with. -/
theorem Punctuator.reaches_longest {q : Punctuator} (h : longest? t = some q) :
    p.Reaches t (p.step q.spelling.length) (t.drop q.spelling.length) := by
  rw [longest?] at h
  have hprefix : q.text <+: t := List.isPrefixOf_iff_prefix.1 (by simpa using List.find?_some h)
  have hlength : q.spelling.length ≤ t.length := by
    simpa [Punctuator.text, Text.ofChars] using hprefix.length_le
  constructor
  · exact List.drop_suffix _ _
  · simp only [Place.step, List.length_drop]
    omega

namespace Reader

theorem reaches_skipSeparators {r r' : Reader} (h : r.skipSeparators = .ok r') :
    r.place.Reaches r.rest r'.place r'.rest := by
  unfold skipSeparators at h
  split at h
  case h_1 q u hskip =>
    cases h
    exact Separator.reaches_skip hskip
  case h_2 => cases h

theorem reaches_kind {r : Reader} {kind : TokenKind} (h : r.kind = .ok (kind, p', t')) :
    r.place.Reaches r.rest p' t' := by
  unfold Reader.kind at h
  split at h
  case h_1 hrest =>
    cases h
    rw [hrest]
    exact .refl _ _
  case h_2 c t hrest =>
    rw [hrest]
    have hlongest (q : Punctuator) (hq : Punctuator.longest? (c :: t) = some q) :=
      Punctuator.reaches_longest (p := r.place) hq
    grind [Place.Reaches, Place.step, → Name.reaches_token, → StringLiteral.reaches_token,
      → Number.reaches_token, → Template.reaches_token]

/-- A token covers what is read for it. -/
theorem reaches_token {r r' : Reader} {t : Token} (h : r.token = .ok (t, r')) :
    r.place.Reaches r.rest r'.place r'.rest ∧ t.span = ⟨r.place.index, r'.place.index⟩ := by
  unfold token at h
  split at h
  case h_1 kind q u hkind =>
    cases h
    exact ⟨reaches_kind hkind, rfl⟩
  case h_2 => cases h

/-- At the end of the text there is one more token, which says so. -/
theorem kind_of_rest_nil {r r' : Reader} {t : Token} (hrest : r.rest = [])
    (h : r.token = .ok (t, r')) : t.kind = .endOfText := by
  rw [token, kind, hrest] at h
  cases h
  rfl

end Reader
end Elementwise
