import Elementwise.Proofs.SourceEnd.Script

/-!
# Comments in front of the suffix

A source is called by writing `)()` directly behind it.  If the source ends in a comment up to the
end of its line, the comment goes on over this suffix, and the parenthesis in front of the source is
never closed.  This is the only way in which blanks and line terminators at the end of a source
matter: a line terminator there is all that is missing.

## What is here

* `Separator.skip_endedLine` — a line terminator in front of the suffix ends every comment.
* `Anchor.Swallows` — what ends a source takes in the suffix.
* `anchor_exchanges` — a function is found alike whatever blanks and line terminators stand behind
  it, with two exceptions.
* `anchor_endedLine` — a function is found if its line is ended, and otherwise as well, with one
  exception.
* `anchor_commented` — a function that is found only if its line is ended.
-/

set_option autoImplicit false
namespace Elementwise

open Anchor

/-! ## Line terminators in front of the suffix -/

namespace Separator

/-- A line terminator ends a comment. -/
theorem skip_lineComment_newline (fresh : Bool) (p : Place) (t : Text) :
    skip .lineComment fresh p (.scalar '\n' :: t) = skip .between fresh (p.newLine 1) t := by
  have hpair : ¬BeginsPair (.scalar '\n') t := by
    rintro ⟨h, -⟩
    exact absurd h (by decide)
  rw [skip_lineComment_cons, if_pos ⟨by decide, hpair⟩]

/-- **Behind a line terminator the suffix is not skipped**, whatever stands in front of it. -/
theorem skip_endedLine (mode : Mode) (fresh : Bool) (p q : Place) (v : Text) :
    skip mode fresh p (v ++ .scalar '\n' :: callSuffix) ≠ .ok (q, []) := by
  have hend : Closes (.scalar '\n' :: callSuffix) := ⟨_, _, rfl, by decide⟩
  have hbetween (fresh : Bool) (p : Place) : skip .between fresh p callSuffix ≠ .ok (q, []) := by
    have hskip : skip .between fresh p callSuffix = .ok (p, callSuffix) :=
      skip_parenthesis (.inr rfl) ..
    rw [hskip]
    rintro ⟨⟩
  rcases goesOn mode fresh p v with ⟨r, c, w, hskip⟩ | ⟨_, hskip⟩
  · rw [hskip _ hend]
    rintro ⟨⟩
  · obtain ⟨m, f, r, -, heq⟩ := hskip _ hend
    rw [heq]
    cases m with
    | between =>
      rw [skip_between_cons (.inr (by decide)), if_neg (by decide)]
      exact hbetween _ _
    | lineComment =>
      rw [skip_lineComment_newline]
      exact hbetween _ _
    | blockComment =>
      intro h
      rcases skip_gap (w := [.scalar '\n']) (by decide) .blockComment f r with
        ⟨-, _, hfault⟩ | ⟨hno, -⟩
      · rw [List.singleton_append, h] at hfault
        cases hfault
      · exact hno rfl

end Separator

namespace Text

theorem not_isEnding_callSuffix : ¬IsEnding callSuffix := by
  rintro (⟨p, p', hskip⟩ | ⟨a, b, -, -, heq⟩)
  · rw [show Separator.skip .between false p callSuffix = .ok (p, callSuffix) from
      Separator.skip_parenthesis (.inr rfl) ..] at hskip
    cases hskip
  · have hmem : CodePoint.scalar ';' ∈ callSuffix := by rw [heq]; simp
    exact absurd hmem (by decide)

/-- Behind a line terminator the suffix ends no statement. -/
theorem not_isEnding_endedLine (v : Text) : ¬IsEnding (v ++ .scalar '\n' :: callSuffix) := by
  rintro (⟨p, p', hskip⟩ | ⟨a, b, -, ⟨p, p', hskip⟩, heq⟩)
  · exact Separator.skip_endedLine _ _ _ _ _ hskip
  · -- what follows the semicolon ends in the line terminator and the suffix, too
    obtain ⟨w, rfl⟩ : ∃ w, b = w ++ .scalar '\n' :: callSuffix := by
      rw [List.append_assoc, List.singleton_append] at heq
      rcases List.append_eq_append_iff.1 heq with ⟨w, -, hw⟩ | ⟨w, -, hw⟩
      · have hmem : CodePoint.scalar ';' ∈ .scalar '\n' :: callSuffix := by rw [hw]; simp
        exact absurd hmem (by decide)
      · cases w with
        | nil => cases hw
        | cons c w => exact ⟨w, (List.cons.inj hw).2⟩
    exact Separator.skip_endedLine _ _ _ _ _ hskip

end Text

/-- A source whose line is ended does not close the parenthesis in front of it. -/
theorem Anchor.not_closesItself_endedLine (source e : Text) :
    ¬ClosesItself (source ++ [.scalar '\n']) e := by
  rintro ⟨v, w, -, heq, hending⟩
  rcases List.eq_nil_or_concat w with rfl | ⟨w, c, rfl⟩
  · exact Text.not_isEnding_callSuffix hending
  · rw [List.concat_eq_append] at heq hending
    obtain rfl : c = .scalar '\n' := by
      have hlast := congrArg List.getLast? heq
      rw [← List.cons_append, ← List.append_assoc, List.getLast?_concat,
        List.getLast?_concat] at hlast
      exact (Option.some.inj hlast).symm
    rw [List.append_assoc] at hending
    exact Text.not_isEnding_endedLine _ hending

/-! ## What goes on over the suffix -/

/-- What ends a source takes in what is written behind it: the source is a text in parentheses,
between separators, and the last one goes on over the suffix. -/
def Anchor.Swallows (source ending e : Text) : Prop :=
  ∃ a u b, a.IsSeparator ∧ e.InParentheses u ∧ source = a ++ u ++ b ∧
    (b ++ (ending ++ callSuffix)).IsSeparator

namespace SourceEnd

variable {x : SourceEnd} {i j : Nat}

/-- Where the parenthesis is no longer found, it has been skipped. -/
theorem isSeparator_of_not_lands (hi : 0 < i) (hij : i ≤ j) (hgap : x.text.Gap i j)
    (hdrop : x.text.drop j = callSuffix) (h : ¬x.Lands i) :
    ∃ u, x.text.drop i = u ++ (x.old ++ callSuffix) ∧
      Text.IsSeparator (u ++ (x.new ++ callSuffix)) := by
  simp only [Lands, not_forall] at h
  obtain ⟨p, u, hp, hu, hlands⟩ := h
  refine ⟨u, hu, ?_⟩
  have hfresh : decide (p.index = 0) = false := decide_eq_false (by omega)
  -- what is skipped in the first text
  obtain ⟨q, q', hskip⟩ : ∃ q q', Separator.skip .between false q (u ++ (x.old ++ callSuffix)) =
      .ok (q', callSuffix) := by
    rcases Nat.eq_or_lt_of_le hij with rfl | hlt
    · refine ⟨p, p, ?_⟩
      rw [← hu, hdrop]
      exact Separator.skip_parenthesis (.inr rfl) ..
    · obtain ⟨q, q', hskip⟩ := hgap hlt
      rw [decide_eq_false (by omega), hdrop, hu] at hskip
      exact ⟨q, q', hskip⟩
  rcases Separator.skip_exchanges hskip ⟨u, rfl, rfl⟩ with
    ⟨c, v, v', hcons, -, hv⟩ | ⟨-, r, u', hskip', hend⟩
  · have hlength := hv.length_pos
    have := congrArg List.length hcons
    rw [List.length_cons] at this
    omega
  · rcases hend with rfl | rfl
    · obtain ⟨g, hg, hlocal⟩ := Separator.skip_local (by simp [Separator.Stops]) hskip'
      obtain ⟨r', hr'⟩ := hlocal callSuffix.tail p
      refine (hlands ⟨r', ?_⟩).elim
      rw [Place.skipSeparators, hfresh, hg]
      exact hr'
    · exact ⟨q, r, hskip'⟩

theorem Lost.swallows {e : Trailing} {source : Text} {c : Node} {f : Span}
    (h : (ofSource e source).Lost c) (hf : c.functionSpan? = some f) :
    Swallows source e.new ((wrap (source ++ e.old)).slice f) := by
  obtain ⟨k, i, j, hk, hgap, hencloses, hij, hgap', hdrop, hlands⟩ := h
  have hf := hencloses f hf
  have hki := hf.le
  obtain ⟨b, hb, hseparator⟩ := isSeparator_of_not_lands (by omega) hij hgap' hdrop hlands
  refine ⟨_, _, b, hgap.isSeparator Nat.one_pos hk, hf.inParentheses, ?_, hseparator⟩
  change (wrap (source ++ e.old)).drop i = b ++ (e.old ++ callSuffix) at hb
  have hsource : (wrap (source ++ e.old)).slice ⟨1, k⟩ ++ (wrap (source ++ e.old)).slice ⟨k, i⟩ ++
      (b ++ (e.old ++ callSuffix)) = source ++ (e.old ++ callSuffix) := by
    rw [Text.slice_append _ hk (by omega), ← hb, Text.slice_append_drop _ (by omega), wrap_eq,
      List.drop_succ_cons, List.drop_zero, List.append_assoc]
  rw [← List.append_assoc] at hsource
  exact (List.append_cancel_right hsource).symm

end SourceEnd

/-! ## Functions and what stands behind them -/

namespace Anchor

/-- The parts of a function do not depend on the text in which it is found. -/
theorem locate_text {t t' : Text} {s s' sc sc' : Span} {c : Node} {d d' : Option Text}
    {f : AnchoredFunction} (h : locate t [.expression s (.call sc c []) d] = .ok f) :
    locate t' [.expression s' (.call sc' c []) d'] = .ok { f with text := t' } := by
  have hfunction {isArrow isAsync isGenerator : Bool} {span : Span} {params : List Node}
      {body : Node} (h : function t isArrow isAsync isGenerator span params body = .ok f) :
      function t' isArrow isAsync isGenerator span params body = .ok { f with text := t' } := by
    unfold function at h ⊢
    split at h
    · cases h
    · next hplain =>
      rw [if_neg hplain]
      split at h
      · cases h
      · next hparams =>
        split at h
        · cases h
        · next hspan =>
          cases h
          rfl
  unfold locate at h ⊢
  simp only [callee] at h ⊢
  split at h
  · cases h
  · exact hfunction h
  · exact hfunction h
  · cases h

/-- What lies in a source is the same whatever stands behind it. -/
theorem slice_wrap_append (source w w' : Text) {s : Span} (hs : s.stop ≤ source.length + 1) :
    (wrap (source ++ w)).slice s = (wrap (source ++ w')).slice s := by
  have hslice (w : Text) : (wrap (source ++ w)).slice s = Text.slice (.scalar '(' :: source) s := by
    have hwrap : wrap (source ++ w) = (.scalar '(' :: source) ++ (w ++ callSuffix) := by
      simp [wrap_eq]
    rw [hwrap, Text.slice, List.take_append_of_le_length hs, Text.slice]
  rw [hslice, hslice]

end Anchor

/-- **A function is found alike whatever blanks and line terminators stand behind its source**,
unless what ends the source goes on over the suffix or the source closes the parenthesis in front of
it. -/
theorem anchor_exchanges {e : Trailing} {source : Text} {f : AnchoredFunction}
    (h : anchor (source ++ e.old) = .ok f) :
    (anchor (source ++ e.new) = .ok { f with text := wrap (source ++ e.new) } ∧
        f.span.stop ≤ source.length + 1) ∨
      Swallows source e.new (f.text.slice f.span) ∨
      ClosesItself (source ++ e.old) (f.text.slice f.span) := by
  obtain ⟨htext, hcases⟩ := anchor_calls_or_closes h
  rcases hcases with ⟨s, c, d, hparse, hspan, -⟩ | hcloses
  · have hlocate : locate (wrap (source ++ e.old))
        [.expression s (.call ⟨0, (source ++ e.old).length + 1 + 3⟩ c []) d] = .ok f := by
      unfold anchor at h
      simp only [hparse] at h
      exact h
    rcases SourceEnd.parseScript_calls hparse (length_wrap _).symm (by rw [hspan]; rfl) with
      hlost | ⟨hholds, s', span', hparse'⟩
    · rw [htext]
      exact .inr (.inl (hlost.swallows hspan))
    · left
      refine ⟨?_, ?_⟩
      · unfold anchor
        simp only [hparse']
        exact locate_text hlocate
      · have hholds :
            f.span.stop + (e.old ++ callSuffix).length ≤ (wrap (source ++ e.old)).length :=
          hholds _ hspan
        rw [length_wrap, List.length_append, List.length_append] at hholds
        have : callSuffix.length = 3 := rfl
        omega
  · exact .inr (.inr hcloses)

/-- **A function that is found if its line is ended is found as well if it is not**, with the same
parameters and the same body in the same place, unless what ends the source goes on over the
suffix. -/
theorem anchor_endedLine {source : Text} {f : AnchoredFunction}
    (h : anchor (source ++ [.scalar '\n']) = .ok f) :
    (anchor source = .ok { f with text := wrap source } ∧
        (wrap source).slice f.bodySpan = f.text.slice f.bodySpan) ∨
      Swallows source [] (f.text.slice f.span) := by
  let e : Trailing := ⟨[.scalar '\n'], [], by decide, by decide⟩
  obtain ⟨htext, -, hbody, -⟩ := anchor_spans h
  rcases anchor_exchanges (e := e) h with ⟨hanchor, hstop⟩ | hswallows | hcloses
  · rw [show source ++ e.new = source from List.append_nil source] at hanchor
    refine .inl ⟨hanchor, ?_⟩
    have hslice := slice_wrap_append source [] [.scalar '\n'] (hbody.trans hstop)
    rw [List.append_nil] at hslice
    rw [htext]
    exact hslice
  · exact .inr hswallows
  · exact (not_closesItself_endedLine _ _ hcloses).elim

/-- The routine `() => y //x`, written without blanks. -/
def explainedSource : Text := .ofChars ['(', ')', '=', '>', 'y', '/', '/', 'x']

theorem anchor_endedLine_explained :
    ∃ f, anchor (explainedSource ++ [.scalar '\n']) = .ok f ∧
      ((anchor explainedSource = .ok { f with text := wrap explainedSource } ∧
          (wrap explainedSource).slice f.bodySpan = f.text.slice f.bodySpan) ∨
        Swallows explainedSource [] (f.text.slice f.span)) := by
  have hsome : (anchor (explainedSource ++ [.scalar '\n'])).toOption.isSome = true := by
    decide +kernel
  cases h : anchor (explainedSource ++ [.scalar '\n']) with
  | error e =>
    rw [h] at hsome
    cases hsome
  | ok f => exact ⟨f, rfl, anchor_endedLine h⟩

/-- The routine `function() { } //`, written without the blanks in the function. -/
def commentedSource : Text :=
  .ofChars ['f', 'u', 'n', 'c', 't', 'i', 'o', 'n', '(', ')', '\x7b', '\x7d', ' ', '/', '/']

/-- A function is found in the routine if its line is ended, and none if it is not. -/
theorem anchor_commented :
    (anchor (commentedSource ++ [.scalar '\n'])).toOption.map
        (fun f => (f.params.length, f.text.slice f.bodySpan)) =
        some (0, .ofChars ['\x7b', '\x7d']) ∧
      (anchor commentedSource).toOption.isSome = false := by
  decide +kernel

end Elementwise
