import Elementwise.Proofs.Grammar.Called

/-!
# Sources that hold one function

The source of a routine is put in parentheses and called before it is parsed.  If a function is
found, the source usually is this function, in parentheses of its own or not, between separators.
There is one other way: the source itself closes the parenthesis in front of it and calls the
function, and a comment takes in what is written behind the source.

## What is here

* `Text.HoldsOnly`, `Text.IsCallOf`, `Text.IsEnding` — how a text is made of a function, or of a
  call of it and what ends a statement.
* `Anchor.locate_eq_ok` — what a text is parsed as if a function is found in it.
* `anchor_calls_or_closes` — whether the call takes in all of the text that is parsed.
* `anchor_holdsOnly_or_closes` — the two ways.
* `anchor_closingSource` — a source of the second kind, which is not one function.
-/

set_option autoImplicit false
namespace Elementwise
namespace Text

variable {t e source : Text} {f s : Span} {i j k : Nat} {c : CodePoint}

/-- A text is another one in any number of parentheses, between separators. -/
def HoldsOnly (source e : Text) : Prop :=
  ∃ a u b, IsSeparator a ∧ e.InParentheses u ∧ IsSeparator b ∧ source = a ++ u ++ b

/-- A text is a call of another one without arguments.  Both that one and the call may stand in any
number of parentheses. -/
def IsCallOf (v e : Text) : Prop :=
  ∃ u a b, e.InParentheses u ∧ IsSeparator a ∧ IsSeparator b ∧
    (u ++ a ++ [.scalar '('] ++ b ++ [.scalar ')'] : Text).InParentheses v

/-- A text is what can stand behind the expression of the last statement: a separator, or a
semicolon between two of them. -/
def IsEnding (w : Text) : Prop :=
  w.IsSeparator ∨ ∃ a b, IsSeparator a ∧ IsSeparator b ∧ w = a ++ [.scalar ';'] ++ b

/-! ## Ends of parts -/

/-- A part of a text in parentheses is the part itself, or there is a pair of them around it. -/
theorem encloses_iff : t.Encloses s i j ↔ (s = ⟨i, j⟩ ∧ i ≤ j) ∨ ∃ k l, t[i]? = some (.scalar '(') ∧
    t.Gap (i + 1) k ∧ i < k ∧ t.Encloses s k l ∧ t.Symbol ')' l j := by
  constructor
  · rintro (h | ⟨hopen, hgap, hlt, inner, hclose⟩)
    · exact .inl ⟨rfl, h⟩
    · exact .inr ⟨_, _, hopen, hgap, hlt, inner, hclose⟩
  · rintro (⟨rfl, h⟩ | ⟨k, l, hopen, hgap, hlt, inner, hclose⟩)
    · exact .self h
    · exact .parentheses hopen hgap hlt inner hclose

theorem Encloses.getElem?_last (h : t.Encloses s i j) (hs : t[s.stop - 1]? = some (.scalar ')')) :
    t[j - 1]? = some (.scalar ')') := by
  cases h with
  | self => exact hs
  | parentheses _ _ _ _ hclose =>
    obtain ⟨m, -, -, hm, rfl⟩ := hclose
    exact hm

theorem Symbol.getElem?_last (h : t.Symbol c i j) : t[j - 1]? = some c := by
  obtain ⟨m, -, -, hm, rfl⟩ := h
  exact hm

/-- A symbol that follows the end of a token follows it at once. -/
theorem Symbol.eq_of_not_isEnd {d : CodePoint} (h : t.Symbol c i (j + 2)) (hc : t[j]? = some d)
    (hend : ¬Separator.IsEnd d) : i = j + 1 := by
  obtain ⟨m, him, hgap, hm, hj⟩ := h
  obtain rfl : m = j + 1 := by omega
  have hlength : j + 1 < t.length := (List.getElem?_eq_some_iff.1 hm).1
  exact hgap.eq_of_not_isEnd him hlength hc hend

/-- What ends a statement does not begin with a parenthesis. -/
theorem Ends.eq_of_parenthesis (h : t.Ends i t.length)
    (hc : t[i]? = some (.scalar '(') ∨ t[i]? = some (.scalar ')')) : i = t.length := by
  rcases h with ⟨hle, hgap⟩ | ⟨k, hk, ⟨m, him, hgap, hm, rfl⟩, -⟩
  · exact hgap.eq_of_parenthesis hle (Nat.le_refl _) hc
  · obtain rfl := hgap.eq_of_parenthesis him (by omega) hc
    rw [hm] at hc
    simp at hc

theorem Ends.le (h : t.Ends i j) : i ≤ j := by
  rcases h with ⟨hle, -⟩ | ⟨k, hk, hsymbol, -⟩
  · exact hle
  · exact (Nat.le_of_lt hsymbol.lt).trans hk

theorem Ends.isEnding (h : t.Ends i j) (hi : 0 < i) : (t.slice ⟨i, j⟩).IsEnding := by
  rcases h with ⟨hle, hgap⟩ | ⟨k, hk, hsymbol, hgap⟩
  · exact .inl (hgap.isSeparator hi hle)
  · have hlt := hsymbol.lt
    obtain ⟨a, ha, hslice⟩ := hsymbol.slice hi
    refine .inr ⟨a, _, ha, hgap.isSeparator (by omega) hk, ?_⟩
    rw [← slice_append t (Nat.le_of_lt hlt) hk, hslice]

/-! ## Calls -/

variable (hfirst : t[0]? = some (.scalar '('))
include hfirst

/-- A call that is known by its spans is one of the text that the function covers. -/
theorem Encloses.isCallOf (h : t.Encloses s i j) (hcall : t.Calls f s) :
    (t.slice ⟨i, j⟩).IsCallOf (t.slice f) := by
  obtain ⟨k, l, hfunction, hleads, hopen, hclose⟩ := hcall
  have hk := hfunction.le
  have hkl := hopen.lt
  have hl := hclose.lt
  -- a function in front of everything else would begin with the parenthesis
  have hpos : 0 < k := by
    rcases Nat.eq_zero_or_pos k with rfl | hpos
    · obtain ⟨hf, hs⟩ : f.start = s.start ∧ s.start = 0 := by omega
      exact (hleads hf (hs ▸ hfirst)).elim
    · exact hpos
  obtain ⟨a, ha, hslice⟩ := hopen.slice hpos
  obtain ⟨b, hb, hslice'⟩ := hclose.slice (by omega)
  refine ⟨_, a, b, hfunction.inParentheses, ha, hb, ?_⟩
  have hwhole : t.slice s = t.slice ⟨s.start, k⟩ ++ a ++ [.scalar '('] ++ b ++ [.scalar ')'] := by
    rw [← slice_append t (by omega : s.start ≤ k) (by omega : k ≤ s.stop),
      ← slice_append t (Nat.le_of_lt hkl) (Nat.le_of_lt hl), hslice, hslice']
    simp
  exact hwhole ▸ h.inParentheses

omit hfirst in
/-- A call that goes on as far as the text in which a source is called is this text. -/
theorem Encloses.eq_of_calls (h : t.Encloses s 0 (i + 3)) (hcall : t.Calls f s)
    (hopen : t[i + 1]? = some (.scalar '(')) : s = ⟨0, i + 3⟩ := by
  have hleftEnd : ¬Separator.IsEnd (.scalar '(') := by unfold Separator.IsEnd; decide
  rcases encloses_iff.1 h with ⟨rfl, -⟩ | ⟨_, _, -, -, -, inner, hlast⟩
  · rfl
  · -- the call would end with the last parenthesis but one, which is an opening one
    obtain ⟨k, l, -, -, -, hright⟩ := hcall
    obtain rfl := hlast.eq_of_not_isEnd hopen hleftEnd
    have hlast : t[i + 1]? = some (.scalar ')') := inner.getElem?_last hright.getElem?_last
    simp [hopen] at hlast

/-- If a text is a call and ends like the text in which a source is called, the function is what
stands in the first pair of parentheses. -/
theorem Calls.holdsOnly (hcall : t.Calls f ⟨0, i + 3⟩) (hclose : t[i]? = some (.scalar ')'))
    (hopen : t[i + 1]? = some (.scalar '(')) : (t.slice ⟨1, i⟩).HoldsOnly (t.slice f) := by
  have hleftEnd : ¬Separator.IsEnd (.scalar '(') := by unfold Separator.IsEnd; decide
  have hrightEnd : ¬Separator.IsEnd (.scalar ')') := by unfold Separator.IsEnd; decide
  obtain ⟨k, l, hfunction, hleads, hleft, hright⟩ := hcall
  obtain rfl := hright.eq_of_not_isEnd hopen hleftEnd
  obtain rfl := hleft.eq_of_not_isEnd hclose hrightEnd
  rcases encloses_iff.1 hfunction with ⟨rfl, -⟩ | ⟨a, b, -, hgap, hlt, inner, m, hm, hgap', -, him⟩
  · exact (hleads rfl hfirst).elim
  · obtain rfl : i = m := by omega
    have hle := inner.le
    refine ⟨_, _, _, hgap.isSeparator (by omega) hlt, inner.inParentheses,
      hgap'.isSeparator (by omega) hm, ?_⟩
    rw [slice_append t hlt (by omega), slice_append t (by omega) hm]

end Text

/-! ## Routines -/

namespace Anchor

theorem callee_eq_ok {ns : List Node} {c : Node} (h : callee ns = .ok c) :
    ∃ s cs d, ns = [.expression s (.call cs c []) d] := by
  unfold callee at h
  split at h
  · split at h
    · cases h
      exact ⟨_, _, _, rfl⟩
    · cases h
  · cases h

theorem function_eq_ok {text : Text} {isArrow isAsync isGenerator : Bool} {span : Span}
    {params : List Node} {body : Node} {f : AnchoredFunction}
    (h : function text isArrow isAsync isGenerator span params body = .ok f) :
    f.text = text ∧ f.span = span := by
  unfold function at h
  split at h
  · cases h
  · split at h
    · cases h
    · split at h
      · cases h
      · cases h
        exact ⟨rfl, rfl⟩

/-- A function is found where a text is one call of it without arguments. -/
theorem locate_eq_ok {text : Text} {ns : List Node} {f : AnchoredFunction}
    (h : locate text ns = .ok f) :
    f.text = text ∧ ∃ s cs c d, ns = [.expression s (.call cs c []) d] ∧
      c.functionSpan? = some f.span := by
  have hcall {c : Node} (hcallee : callee ns = .ok c)
      (hf : f.text = text ∧ c.functionSpan? = some f.span) :
      f.text = text ∧ ∃ s cs c d, ns = [.expression s (.call cs c []) d] ∧
        c.functionSpan? = some f.span := by
    obtain ⟨s, cs, d, hns⟩ := callee_eq_ok hcallee
    exact ⟨hf.1, s, cs, c, d, hns, hf.2⟩
  unfold locate at h
  split at h
  · cases h
  · next hcallee =>
    obtain ⟨htext, hspan⟩ := function_eq_ok h
    exact hcall hcallee ⟨htext, congrArg some hspan.symm⟩
  · next hcallee =>
    obtain ⟨htext, hspan⟩ := function_eq_ok h
    exact hcall hcallee ⟨htext, congrArg some hspan.symm⟩
  · cases h

/-- What is written behind a source when it is called. -/
def callSuffix : Text := .ofChars [')', '(', ')']

theorem wrap_eq (source : Text) : wrap source = .scalar '(' :: (source ++ callSuffix) := rfl

theorem length_wrap (source : Text) : (wrap source).length = source.length + 1 + 3 := by
  rw [wrap_eq, List.length_cons, List.length_append]
  rfl

/-- The characters behind a source in the text that is parsed. -/
theorem getElem?_wrap (source : Text) (i : Nat) :
    (wrap source)[source.length + 1 + i]? = callSuffix[i]? := by
  rw [wrap_eq, show source.length + 1 + i = source.length + i + 1 by omega, List.getElem?_cons_succ,
    List.getElem?_append_right (by omega), Nat.add_sub_cancel_left]

/-- The text that is parsed, part by part. -/
theorem slice_wrap (source : Text) :
    (wrap source).slice ⟨1, source.length + 1⟩ = source ∧
      (wrap source).slice ⟨0, source.length + 1⟩ = .scalar '(' :: source ∧
      (wrap source).slice ⟨source.length + 1, source.length + 1 + 3⟩ = callSuffix := by
  refine ⟨by simp [wrap_eq, Text.slice], by simp [wrap_eq, Text.slice], ?_⟩
  rw [Text.slice, List.take_of_length_le (Nat.le_of_eq (length_wrap source)), wrap_eq,
    List.drop_succ_cons, List.drop_left]

/-- A source closes the parenthesis in front of it and calls a function itself.  What comes behind
the call is skipped together with what is written behind the source. -/
def ClosesItself (source e : Text) : Prop :=
  ∃ v w, Text.IsCallOf v e ∧ .scalar '(' :: source = v ++ w ∧ Text.IsEnding (w ++ callSuffix)

end Anchor

open Anchor

/-- **A function that is found is called by the text that is parsed as a whole**, or the source
closes the parenthesis in front of it. -/
theorem anchor_calls_or_closes {source : Text} {f : AnchoredFunction} (h : anchor source = .ok f) :
    f.text = wrap source ∧ ((∃ s c d,
        parseScript (wrap source) = .ok [.expression s (.call ⟨0, source.length + 1 + 3⟩ c []) d] ∧
        c.functionSpan? = some f.span ∧ (wrap source).Calls f.span ⟨0, source.length + 1 + 3⟩) ∨
      ClosesItself source (f.text.slice f.span)) := by
  unfold anchor at h
  dsimp only at h
  split at h
  case h_2 => cases h
  next ns hparse =>
  obtain ⟨htext, s, cs, c, d, rfl, hspan⟩ := locate_eq_ok h
  refine ⟨htext, ?_⟩
  rw [htext]
  have hstated : Node.Stated (wrap source) 0 (wrap source).length _ := parseScript_stated hparse
  obtain ⟨_, _, k, heq, hwritten, hends⟩ := hstated
  cases heq
  have hcall := hwritten.called _ _ rfl _ hspan
  have henclosed : (wrap source).Encloses cs 0 k := hwritten.enclosed _ rfl
  have hlength : (wrap source).length = source.length + 1 + 3 := length_wrap source
  have hopen : (wrap source)[source.length + 1 + 1]? = some (.scalar '(') := getElem?_wrap source 1
  have hlast : (wrap source)[source.length + 1 + 2]? = some (.scalar ')') := getElem?_wrap source 2
  obtain ⟨-, hfront, hback⟩ := slice_wrap source
  -- what ends the statement begins in front of the suffix, or there is nothing of the kind
  have hk : k = source.length + 1 + 3 ∨ k ≤ source.length + 1 := by
    have hle := hends.le
    by_contra hmid
    have hparenthesis : k = source.length + 1 + 1 ∨ k = source.length + 1 + 2 := by omega
    have hend : k = (wrap source).length := by
      rcases hparenthesis with rfl | rfl
      · exact hends.eq_of_parenthesis (.inl hopen)
      · exact hends.eq_of_parenthesis (.inr hlast)
    omega
  rcases hk with rfl | hk
  · obtain rfl := henclosed.eq_of_calls hcall hopen
    exact .inl ⟨s, c, _, hparse, hspan, hcall⟩
  · right
    have hpos : 0 < k := by
      obtain ⟨l, m, -, -, hleft, hright⟩ := hcall
      have := henclosed.le
      have := hleft.lt
      have := hright.lt
      omega
    refine ⟨_, (wrap source).slice ⟨k, source.length + 1⟩, henclosed.isCallOf rfl hcall, ?_, ?_⟩
    · rw [Text.slice_append _ (Nat.zero_le k) hk, hfront]
    · rw [← hback, Text.slice_append _ hk (Nat.le_add_right _ 3), ← hlength]
      exact hends.isEnding hpos

/-- **If a function is found in a source, the source holds nothing else, or it closes the
parenthesis in front of it.**  In the second case the source, with this parenthesis, begins with a
call of the function, and what comes behind the call is skipped together with what is written behind
the source. -/
theorem anchor_holdsOnly_or_closes {source : Text} {f : AnchoredFunction}
    (h : anchor source = .ok f) :
    f.text = wrap source ∧
      (Text.HoldsOnly source (f.text.slice f.span) ∨
        ∃ v w, Text.IsCallOf v (f.text.slice f.span) ∧ .scalar '(' :: source = v ++ w ∧
          Text.IsEnding (w ++ callSuffix)) := by
  obtain ⟨htext, hcases⟩ := anchor_calls_or_closes h
  refine ⟨htext, hcases.imp_left ?_⟩
  rintro ⟨s, c, d, -, -, hcall⟩
  have hholds := hcall.holdsOnly rfl (getElem?_wrap source 0) (getElem?_wrap source 1)
  rwa [(slice_wrap source).1, ← htext] at hholds

/-- The routine `function() { }) () //`, written without blanks. -/
def closingSource : Text :=
  .ofChars ['f', 'u', 'n', 'c', 't', 'i', 'o', 'n', '(', ')', '\x7b', '\x7d', ')', '(',
    ')', '/', '/']

theorem anchor_holdsOnly_or_closes_closingSource :
    ∃ f, anchor closingSource = .ok f ∧ f.text = wrap closingSource ∧
      (Text.HoldsOnly closingSource (f.text.slice f.span) ∨
        ∃ v w, Text.IsCallOf v (f.text.slice f.span) ∧ .scalar '(' :: closingSource = v ++ w ∧
          Text.IsEnding (w ++ callSuffix)) := by
  have hsome : (anchor closingSource).toOption.isSome = true := by decide +kernel
  cases h : anchor closingSource with
  | error e =>
    rw [h] at hsome
    cases hsome
  | ok f => exact ⟨f, rfl, anchor_holdsOnly_or_closes h⟩

/-- A function is found in the routine, but put in parentheses it does not parse, even if its line
is ended in front of the second one. -/
theorem anchor_closingSource :
    (anchor closingSource).toOption.map (fun f => (f.params.length, f.text.slice f.bodySpan)) =
        some (0, .ofChars ['\x7b', '\x7d']) ∧
      (parseScript (.scalar '(' :: closingSource ++ .ofChars ['\n', ')'])).toOption.isSome =
        false := by
  decide +kernel

end Elementwise
