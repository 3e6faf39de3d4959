import Elementwise.Proofs.Spelling

/-!
# How a property begins

A property of an object literal sets the prototype of the object if it is a value behind the key
`__proto__`, which is written as a name or as a string.  This can be told from its first two tokens:
they are the key and a colon.  In front of a key in brackets, of a method and of an accessor stands
something else, and behind a shorthand no colon.

Two tokens are told by what is written there, whatever follows them.  So a property begins as it did
if it is moved together with its first two tokens.

## What is here

* `Text.setsPrototype` — a text begins with `__proto__` and a colon; `Reader.isAtColon` is the
  second half of this.
* `Text.setsPrototype_of_symbol`, `Name.Begins.setsPrototype`, `Name.Begins.not_setsPrototype` —
  what is told by the first token.
* `Text.Gap.isAtColon` — what is told by the second one.
* `Text.setsPrototype_slice_of_key` — both, for a key that is a name; `Text.NeverSets` — what stands
  in front of any other key, and does not set the prototype however it goes on.
-/

set_option autoImplicit false
namespace Elementwise

/-! ## The first two tokens -/

/-- Whether a token is `__proto__`, as a name or as a string. -/
def Token.isProto (a : Token) : Bool :=
  match a.kind with
  | .identifier name => name = Word.proto
  | .string value _ _ => value = Word.proto
  | _ => false

/-- Whether the next token is a colon. -/
def Reader.isAtColon (r : Reader) : Bool :=
  match r.peek with
  | .ok (a, _) => a.kind = .punctuator .colon
  | .error _ => false

/-- Whether a text begins as a property does that sets the prototype: with `__proto__` and a
colon. -/
def Text.setsPrototype (t : Text) : Bool :=
  match (Reader.ofText t).token with
  | .ok (a, r) => a.isProto && r.isAtColon
  | .error _ => false

variable {p p' : Place} {t t' u : Text} {name : Text} {c : CodePoint} {i j k l : Nat}

/-- What stands behind the key of a property: a colon or an opening parenthesis, or what ends a
shorthand property. -/
def CodePoint.IsKeyEnd (c : CodePoint) : Prop := c = ':' ∨ c = '(' ∨ c = ',' ∨ c = '}'

namespace CodePoint.IsKeyEnd

theorem stops (h : c.IsKeyEnd) : Separator.Stops c := by
  rcases h with rfl | rfl | rfl | rfl <;> simp [Separator.Stops]

/-- There is nothing to skip in front of what ends a key. -/
theorem skip_eq (h : c.IsKeyEnd) (fresh : Bool) (p : Place) (t : Text) :
    Separator.skip .between fresh p (c :: t) = .ok (p, c :: t) := by
  rcases h with rfl | rfl | rfl | rfl <;> rw [Separator.skip.eq_9] <;>
    simp [CodePoint.isBlank, CodePoint.isLineTerminator]

end CodePoint.IsKeyEnd

/-! ## What is told by the second token -/

/-- Whether there is a colon behind separators is told by one character. -/
theorem Reader.isAtColon_of_skip {r : Reader}
    (h : Separator.skip .between (r.place.index = 0) r.place r.rest = .ok (p, c :: t)) :
    r.isAtColon = decide (c = ':') := by
  have hskip : r.skipSeparators = .ok ⟨p, c :: t, r.braces⟩ := by
    rw [skipSeparators, Place.skipSeparators, h]
  have hpeek : r.isAtColon =
      match token ⟨p, c :: t, r.braces⟩ with
      | .ok (a, _) => a.kind = .punctuator .colon
      | .error _ => false := by
    rw [isAtColon, peek, hskip]
    dsimp only
    cases token ⟨p, c :: t, r.braces⟩ <;> rfl
  rw [hpeek]
  by_cases hc : c = ':'
  · subst hc
    have hkind : ∃ q, Reader.kind ⟨p, ':' :: t, r.braces⟩ = .ok (.punctuator .colon, q, t) :=
      ⟨p.step 1, by simp [kind]; rfl⟩
    obtain ⟨q, hkind⟩ := hkind
    simp [token, hkind]
  · rw [decide_eq_false hc]
    cases htoken : token ⟨p, c :: t, r.braces⟩ with
    | error e => rfl
    | ok s =>
      obtain ⟨a, s⟩ := s
      refine decide_eq_false fun hkind => hc ?_
      exact (List.cons.inj ((spells_token htoken).symbol .colon hkind (by simp))).1

/-- **Behind a gap there is a colon, or none**, whatever follows it. -/
theorem Text.Gap.isAtColon (hgap : t.Gap k l) (hkl : k ≤ l) (hk : 0 < k) (hc : t[l]? = some c)
    (hend : c.IsKeyEnd) (hl : l < j) (u : Text) {p : Place} (hp : 0 < p.index)
    (braces : List Brace) :
    Reader.isAtColon ⟨p, t.slice ⟨k, j⟩ ++ u, braces⟩ = decide (c = ':') := by
  obtain ⟨hlength, rfl⟩ := List.getElem?_eq_some_iff.1 hc
  have hdrop : t.drop l = t[l] :: t.drop (l + 1) := List.drop_eq_getElem_cons hlength
  have hskip : ∃ p p', Separator.skip .between false p (t.drop k) = .ok (p', t.drop l) := by
    rcases Nat.eq_or_lt_of_le hkl with rfl | hlt
    · exact ⟨default, default, by rw [hdrop, hend.skip_eq]⟩
    · have := hgap hlt
      rwa [decide_eq_false (by omega)] at this
  obtain ⟨q, q', hskip⟩ := hskip
  rw [hdrop] at hskip
  obtain ⟨g, hg, hlocal⟩ := Separator.skip_local hend.stops hskip
  have hslice : t.slice ⟨k, j⟩ = g ++ t[l] :: t.slice ⟨l + 1, j⟩ := by
    have : t.slice ⟨k, j⟩ ++ t.drop j = g ++ t[l] :: t.slice ⟨l + 1, j⟩ ++ t.drop j := by
      rw [slice_append_drop t (by omega), hg, List.append_assoc, List.cons_append,
        slice_append_drop t hl]
    exact List.append_cancel_right this
  obtain ⟨p', hp'⟩ := hlocal (t.slice ⟨l + 1, j⟩ ++ u) p
  refine Reader.isAtColon_of_skip (t := t.slice ⟨l + 1, j⟩ ++ u) (p := p') ?_
  rw [decide_eq_false (by simpa using Nat.ne_of_gt hp), hslice, List.append_assoc, List.cons_append]
  exact hp'

/-! ## What is told by the first token -/

/-- A text that begins with neither a name nor a string does not set the prototype. -/
theorem Text.setsPrototype_of_symbol (hc : c.isNameStart = false) (hquote : ¬c.IsQuote) :
    setsPrototype (c :: t) = false := by
  rw [setsPrototype]
  split
  · next a r htoken =>
    have hspells : a.kind.Spells (c :: t) r.rest := Reader.spells_token htoken
    have hproto : a.isProto = false := by
      unfold Token.isProto
      split
      · next hkind =>
        obtain ⟨d, hd, hstart⟩ := hspells.word.1 (hkind ▸ trivial)
        obtain rfl : c = d := Option.some.inj hd
        rw [hc] at hstart
        cases hstart
      · next value raw octal hkind =>
        obtain ⟨d, _, _, _, _, hd, hcons, -⟩ := hspells.string value raw octal hkind
        obtain rfl : c = d := (List.cons.inj hcons).1
        exact (hquote hd).elim
      · rfl
    rw [hproto, Bool.false_and]
  · rfl

theorem Reader.kind_of_isNameStart {r : Reader} (h : ∃ c ∈ r.rest.head?, c.isNameStart = true) :
    r.kind = Name.token r.place r.rest := by
  obtain ⟨c, hc, hstart⟩ := h
  obtain ⟨t, ht⟩ := List.head?_eq_some_iff.1 hc
  rw [Reader.kind, ht]
  exact if_pos hstart

/-- A text that begins with a name sets the prototype if this is `__proto__` and a colon follows. -/
theorem Text.setsPrototype_of_read (h : ∃ c ∈ t.head?, c.isNameStart = true)
    (hread : Name.read (.beginning t) t = .ok (name, p', t')) :
    t.setsPrototype = (decide (name = Word.proto) && Reader.isAtColon ⟨p', t', []⟩) := by
  have hkind : (Reader.ofText t).kind = Name.token (.beginning t) t := Reader.kind_of_isNameStart h
  rw [setsPrototype, Reader.token, hkind]
  by_cases hname : name = Word.proto
  · have hclassify : Name.classify Word.proto = .identifier Word.proto := by decide
    have htoken : Name.token (.beginning t) t = .ok (.identifier Word.proto, p', t') := by
      rw [Name.token, hread]
      simp only [hname, hclassify]
    rw [htoken]
    simp [hname, Token.isProto, Reader.bracesAfter, Reader.ofText]
  · rw [decide_eq_false hname, Bool.false_and]
    cases htoken : Name.token (.beginning t) t with
    | error e => rfl
    | ok r =>
      obtain ⟨kind, q, u⟩ := r
      -- the token is this name
      obtain ⟨c, hc, hstart⟩ := h
      obtain ⟨t, rfl⟩ := List.head?_eq_some_iff.1 hc
      have hword : kind.IsWord := Name.token_isWord htoken
      have hnamed : ∀ w ∈ kind.word?, w = name := fun w hw =>
        ((Name.begins_token hstart htoken w hw).unique ⟨⟨c, rfl, hstart⟩, _, _, hread⟩).1
      have hproto : Token.isProto ⟨kind, ⟨(Reader.ofText (c :: t)).place.index, q.index⟩, q.line⟩ =
          false := by
        cases kind with
        | identifier w => exact decide_eq_false (hnamed w rfl ▸ hname)
        | string => exact hword.elim
        | _ => rfl
      simp only [hproto, Bool.false_and]

/-- **A name with which a text begins is told by its spelling**, and then by what follows whether
the text sets the prototype. -/
theorem Name.Begins.setsPrototype (h : Name.Begins name t t') :
    ∃ w, t = w ++ t' ∧ ∀ u, (∀ c ∈ u.head?, c.isNamePart = false) →
      ∃ p : Place, 0 < p.index ∧
        (w ++ u).setsPrototype = (decide (name = Word.proto) && Reader.isAtColon ⟨p, u, []⟩) := by
  obtain ⟨w, rfl, ⟨c, hc, hstart⟩, hspelled⟩ := h.spelled
  refine ⟨w, rfl, fun u hu => ?_⟩
  obtain ⟨w, rfl⟩ := List.head?_eq_some_iff.1 hc
  obtain ⟨p', hread⟩ := hspelled u hu (.beginning (c :: w ++ u))
  have htotal := (Name.reaches_read hread).total
  refine ⟨p', ?_, Text.setsPrototype_of_read ⟨c, rfl, hstart⟩ hread⟩
  simp only [Place.beginning, List.length_append, List.length_cons] at htotal
  omega

/-- A text that begins with a name that does not begin with an underscore does not set the
prototype, even where the name goes on. -/
theorem Name.Begins.not_setsPrototype (h : Name.Begins name t t')
    (hname : name.head? ≠ some (.scalar '_')) :
    ∃ w, t = w ++ t' ∧ ∀ u, (w ++ u).setsPrototype = false := by
  obtain ⟨w, rfl, ⟨c, hc, hstart⟩, hspelled⟩ := h.head_spelled
  refine ⟨w, rfl, fun u => ?_⟩
  obtain ⟨w, rfl⟩ := List.head?_eq_some_iff.1 hc
  cases hread : Name.read (.beginning (c :: w ++ u)) (c :: w ++ u) with
  | error e =>
    have hkind : (Reader.ofText (c :: w ++ u)).kind = .error e := by
      rw [Reader.kind_of_isNameStart ⟨c, rfl, hstart⟩]
      show Name.token (.beginning (c :: w ++ u)) (c :: w ++ u) = .error e
      rw [Name.token, hread]
    rw [Text.setsPrototype, Reader.token, hkind]
  | ok r =>
    obtain ⟨name', p', u'⟩ := r
    rw [Text.setsPrototype_of_read ⟨c, rfl, hstart⟩ hread]
    have hne : name' ≠ Word.proto := by
      rintro rfl
      exact hname (hspelled u _ _ _ _ hread).symm
    rw [decide_eq_false hne, Bool.false_and]

/-! ## Parts of a text -/

namespace Text

/-- What stands between two offsets does not set the prototype, however it goes on. -/
structure NeverSets (t : Text) (i k : Nat) : Prop where
  lt : i < k
  slice : ∀ j, k ≤ j → ∀ u, (t.slice ⟨i, j⟩ ++ u).setsPrototype = false

theorem NeverSets.mono (h : t.NeverSets i k) (hkl : k ≤ l) : t.NeverSets i l :=
  ⟨Nat.lt_of_lt_of_le h.lt hkl, fun j hj => h.slice j (Nat.le_trans hkl hj)⟩

/-- What begins with neither a name nor a string does not set the prototype. -/
theorem StartsElse.neverSets (h : t.StartsElse i) : t.NeverSets i (i + 1) := by
  refine ⟨Nat.lt_succ_self i, fun j hij u => ?_⟩
  have hinside := h.inside
  have hc : t[i]? = some t[i] := List.getElem?_eq_getElem hinside
  have hslice : t.slice ⟨i, j⟩ = t[i] :: t.slice ⟨i + 1, j⟩ := by
    rw [← slice_append t (Nat.le_succ i) hij, slice_of_getElem? hc]
    rfl
  rw [hslice]
  exact setsPrototype_of_symbol (Bool.eq_false_iff.2 fun hstart => h.name ⟨_, hc, hstart⟩)
    fun hquote => h.string ⟨_, hc, hquote⟩

theorem slice_of_drop_append {w : Text} (h : t.drop i = w ++ t.drop k) (hik : i ≤ k) :
    t.slice ⟨i, k⟩ = w :=
  List.append_cancel_right ((slice_append_drop t hik).trans h)

/-- What begins with a name without an underscore at its front does not set the prototype. -/
theorem neverSets_of_name (h : Name.Begins name (t.drop i) (t.drop k)) (hik : i < k)
    (hname : name.head? ≠ some (.scalar '_')) : t.NeverSets i k := by
  obtain ⟨w, hw, hsets⟩ := h.not_setsPrototype hname
  refine ⟨hik, fun j hkj u => ?_⟩
  rw [← slice_append t (Nat.le_of_lt hik) hkj, slice_of_drop_append hw (Nat.le_of_lt hik),
    List.append_assoc]
  exact hsets _

/-- **A name that is a key** sets the prototype if it is `__proto__` and in front of a colon,
whatever follows. -/
theorem setsPrototype_slice_of_key (h : Name.Begins name (t.drop i) (t.drop k)) (hik : i < k)
    (hgap : t.Gap k l) (hkl : k ≤ l) (hc : t[l]? = some c) (hend : c.IsKeyEnd) (hl : l < j)
    (u : Text) :
    (t.slice ⟨i, j⟩ ++ u).setsPrototype = (decide (name = Word.proto) && decide (c = ':')) := by
  obtain ⟨w, hw, hsets⟩ := h.setsPrototype
  have hlength : l < t.length := (List.getElem?_eq_some_iff.1 hc).1
  have hnext : ∀ d ∈ (t.slice ⟨k, j⟩ ++ u).head?, d.isNamePart = false := by
    have hk : t[k]? = some t[k] := List.getElem?_eq_getElem (by omega)
    rw [← slice_append t (Nat.le_succ k) (by omega), slice_of_getElem? hk]
    rintro _ ⟨⟩
    exact h.ends _ (by rw [List.head?_drop]; exact hk)
  obtain ⟨p, hp, hsets⟩ := hsets _ hnext
  rw [← slice_append t (Nat.le_of_lt hik) (by omega : k ≤ j),
    slice_of_drop_append hw (Nat.le_of_lt hik), List.append_assoc, hsets,
    hgap.isAtColon hkl (by omega) hc hend hl u hp]

end Text
end Elementwise
