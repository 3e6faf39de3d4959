import Elementwise.Proofs.BodyTrace
import Elementwise.Proofs.Concatenation
import Elementwise.Proofs.ParameterUsage

/-!
# Where a compiled body holds the name of a parameter

A compilation tells for every parameter how often it occurs, and its name is written into the body
so many times.  What is left in place is not looked into, though: a comment, a template, a property
or a key can spell the name as well.  These places come on top.

## What is here

* `Routine.strokes_suit`, `Routine.strokes_clear` — the sites of a body that was compiled are
  replaced one behind the other, each where its surroundings let it stand alone.
* `Routine.Flattens.count_eq` — what is counted for a parameter is how often its name is written.
* `Compiler.compile_counts_places` — where a compiled body holds the name of a parameter.
* `Compiler.compile_spelled_comment` — a routine with such a name in a comment.
-/

set_option autoImplicit false
namespace Elementwise

/-- The part of the text that is a variable. -/
def Site.variableSpan? : Site → Option Span
  | .variable s .. => some s
  | _ => none

instance (t : Text) (i : Nat) : Decidable (t.StartsName i) :=
  decidable_of_iff (t[i]?.any CodePoint.isNameStart = true)
    (by simp [Text.StartsName, Option.any_eq_true])

/-! ## The strokes of a body that was compiled -/

namespace Routine

variable {r : Routine} {scope stem : Text}

/-- Whether all variables of the body are written as names. -/
def IsSpelledOut (r : Routine) : Prop :=
  ∀ s ∈ r.sites.filterMap Site.variableSpan?, r.function.text.StartsName s.start

instance (r : Routine) : Decidable r.IsSpelledOut := inferInstanceAs (Decidable (∀ _ ∈ _, _))

theorem mem_strokes_iff {a : Stroke} :
    a ∈ r.strokes scope ↔ ∃ s ∈ r.sites, r.stroke? scope s = some a := List.mem_filterMap

/-- The key that a shorthand property keeps ends in a blank. -/
theorem not_isPlain_of_getLast?_keyLabel (key : Option Text) :
    ∀ c ∈ (Rewriter.keyLabel key).getLast?, ¬Name.IsPlain c := by
  intro c hc
  cases key with
  | none => cases hc
  | some k =>
    rw [Rewriter.keyLabel, List.getLast?_append] at hc
    obtain rfl : CodePoint.scalar ' ' = c := Option.some.inj hc
    decide

theorem suits_of_stroke? {s : Site} {a : Stroke} {m : Mark} (h : r.stroke? scope s = some a)
    (hm : s.rewritten? = some m) (hsuits : m.Suits r.function.text)
    (hstarts : ∀ span ∈ s.variableSpan?, r.function.text.StartsName span.start) :
    a.Suits r.function.text scope := by
  match s with
  | .variable span x u key =>
    obtain rfl := Option.some.inj hm
    have hstart := hstarts span rfl
    have halone := hsuits.name rfl hstart
    have hlabel := not_isPlain_of_getLast?_keyLabel key
    rw [stroke?] at h
    cases hx : r.resolve x with
    | ambient y =>
      rw [hx] at h
      cases h
    | property p => exact absurd hx (resolve_ne_property r x p)
    | parameter y =>
      rw [hx] at h
      obtain rfl := Option.some.inj h
      exact .name (k := .argument (r.parameterNames.idxOf y)) hstart halone hlabel
    | free y =>
      rw [hx] at h
      obtain rfl := Option.some.inj h
      exact .name (k := .free y) hstart halone hlabel
  | .thisProperty span p =>
    obtain rfl := Option.some.inj hm
    obtain rfl := Option.some.inj h
    obtain ⟨hstart, hbehind⟩ := hsuits.property rfl
    exact .property hstart hbehind
  | .string span value =>
    obtain rfl := Option.some.inj h
    exact .string

/-- What is replaced at a site is a mark of the body, wherever that lies. -/
theorem exists_mark_of_rewritten? {s : Site} {m : Mark} (hs : s ∈ r.sites)
    (hm : s.rewritten? = some m) : ∃ n ∈ r.function.body.marks, n.withoutZone = m := by
  have hsublist := Occurrence.rewritten_sublist ⟨.value .plain, r.function.body⟩
  refine List.mem_map.1 (hsublist.subset ?_)
  obtain ⟨o, ho, hsite⟩ := List.mem_filterMap.1 hs
  exact List.mem_filterMap.2 ⟨o, ho, Option.bind_eq_some_iff.2 ⟨s, hsite, hm⟩⟩

/-- Each stroke replaces a part of the text whose surroundings let the new text stand alone. -/
theorem strokes_suit {start stop : Nat}
    (hfits : Fits r.function.text start stop r.function.body.marks) (hspelled : r.IsSpelledOut) :
    ∀ a ∈ r.strokes scope, a.Suits r.function.text scope := by
  intro a ha
  obtain ⟨s, hs, hstroke⟩ := mem_strokes_iff.1 ha
  have hedit : r.edit? scope s = some a.edit := by rw [← map_edit_stroke?, hstroke, Option.map_some]
  obtain ⟨m, hm, -⟩ := exists_rewritten?_of_edit? hedit
  obtain ⟨n, hn, rfl⟩ := exists_mark_of_rewritten? hs hm
  exact suits_of_stroke? hstroke hm (hfits.suited n hn).withoutZone fun span hspan =>
    hspelled span (List.mem_filterMap.2 ⟨s, hs, hspan⟩)

/-- **Edits that do not overlap are those of a walk from left to right.**  A mark that covers
another one in an ambiguous property is not among them. -/
theorem replacements_clear {start stop : Nat}
    (hfits : Fits r.function.text start stop r.function.body.marks)
    (hbehind : (Edit.sort (r.replacements scope)).Pairwise fun a b => a.span.stop ≤ b.span.start) :
    (r.replacements scope).Pairwise fun a b => r.function.text.Clears a.span.stop b.span.start := by
  have hapart : (r.replacements scope).Pairwise fun a b => a.span.Apart b.span :=
    ((Edit.sort_perm _).pairwise_iff fun h => h.symm).1 (hbehind.imp .inl)
  have hmarks : ((r.function.body.marks.filter fun m => !m.kind.isFixed).map Mark.span).Pairwise
      fun a b => r.function.text.Clears a.stop b.start ∨ a.Within b.start b.stop := by
    refine List.pairwise_map.2 ((hfits.precedes.sublist List.filter_sublist).imp_of_mem ?_)
    intro m n hm hn h
    have hm : m.kind.isFixed = false := by simpa using (List.mem_filter.1 hm).2
    have hn : n.kind.isFixed = false := by simpa using (List.mem_filter.1 hn).2
    exact h.imp (fun h => h.2 hm hn) fun h => h.2.2
  have hedits := List.pairwise_map.1 (hmarks.sublist (r.replacements_sublist_filter scope))
  refine (hedits.and hapart).imp_of_mem ?_
  rintro a b ha - ⟨hclears | ⟨hstart, -, hstop⟩, hab⟩
  · exact hclears
  · have hnonempty := replacements_nonempty scope hfits a ha
    rcases hab with hab | hab <;> omega

/-- Edits of a walk from left to right are in the order of their places. -/
theorem sort_replacements {start stop : Nat}
    (hfits : Fits r.function.text start stop r.function.body.marks)
    (hbehind : (Edit.sort (r.replacements scope)).Pairwise fun a b => a.span.stop ≤ b.span.start) :
    Edit.sort (r.replacements scope) = r.replacements scope := by
  rw [Edit.sort_eq_insertionSort]
  refine List.Pairwise.insertionSort_eq ((replacements_clear hfits hbehind).imp_of_mem ?_)
  rintro a b ha - hclears
  have hnonempty := replacements_nonempty scope hfits a ha
  have hle := hclears.1
  rw [Edit.precedes_iff]
  omega

theorem strokes_clear {start stop : Nat}
    (hfits : Fits r.function.text start stop r.function.body.marks)
    (hbehind : (Edit.sort (r.replacements scope)).Pairwise fun a b => a.span.stop ≤ b.span.start) :
    (r.strokes scope).Pairwise fun a b => r.function.text.Clears a.span.stop b.span.start := by
  have hclear := replacements_clear hfits hbehind
  rw [← map_edit_strokes] at hclear
  exact List.pairwise_map.1 hclear

/-! ## Counting strokes -/

theorem count_strokes (name : Text) : ((r.strokes scope).map Stroke.text).count name =
    r.sites.countP fun s => (r.stroke? scope s).map Stroke.text = some name := by
  rw [strokes, List.map_filterMap, List.count_filterMap]
  exact List.countP_congr fun s _ => by simp

section

variable {i : Nat} (hname : IsArgumentName scope ((CallName.argument i).text scope))

include hname

/-- The name of a parameter is written for the variables of its number only. -/
theorem text_stroke?_eq_iff {s : Site} :
    (r.stroke? scope s).map Stroke.text = some ((CallName.argument i).text scope) ↔
      ∃ span x u key, s = .variable span x u key ∧ x ∈ r.parameterNames ∧
        r.parameterNames.idxOf x = i := by
  constructor
  · intro h
    match s with
    | .variable span x u key =>
      refine ⟨span, x, u, key, rfl, ?_⟩
      rw [stroke?, resolve] at h
      by_cases hmem : x ∈ r.parameterNames
      · rw [if_pos hmem] at h
        exact ⟨hmem, CallName.argument.inj (CallName.text_injective scope (Option.some.inj h))⟩
      · rw [if_neg hmem] at h
        by_cases hglobal : r.isGlobal x = true
        · rw [if_pos hglobal] at h
          cases h
        · rw [if_neg hglobal] at h
          have hfree : CallName.free x = .argument i :=
            CallName.text_injective scope (Option.some.inj h)
          cases hfree
    | .thisProperty span p =>
      exact (Text.ne_of_places_eq_nil hname.ne_nil (hname.places_property p)
        (Option.some.inj h)).elim
    | .string span value =>
      exact (Text.ne_of_places_eq_nil hname.ne_nil (hname.places_string value)
        (Option.some.inj h)).elim
  · rintro ⟨span, x, u, key, rfl, hx, rfl⟩
    rw [stroke?, resolve, if_pos hx]
    rfl

/-- The name of the first parameter of a name is written for each of its variables. -/
theorem count_strokes_of_mem {x : Text} (hx : x ∈ r.parameterNames)
    (hi : r.parameterNames.idxOf x = i) :
    ((r.strokes scope).map Stroke.text).count ((CallName.argument i).text scope) =
      (r.usages x).length := by
  rw [count_strokes, usages, List.length_filterMap_eq_countP]
  refine List.countP_congr fun s _ => ?_
  rw [decide_eq_true_iff, text_stroke?_eq_iff hname]
  constructor
  · rintro ⟨span, y, u, key, rfl, hy, hyi⟩
    rw [Site.usage?, if_pos ((List.idxOf_inj hy).1 (hyi.trans hi.symm))]
    rfl
  · intro h
    cases s
    case «variable» span y u key _ =>
      rw [Site.usage?] at h
      split at h
      · next hyx =>
        subst hyx
        exact ⟨span, y, u, key, rfl, hx, hi⟩
      · cases h
    all_goals cases h

/-- The name of a repeated parameter is never written. -/
theorem count_strokes_of_repeated (hi : ∀ x ∈ r.parameterNames, r.parameterNames.idxOf x ≠ i) :
    ((r.strokes scope).map Stroke.text).count ((CallName.argument i).text scope) = 0 := by
  rw [count_strokes, List.countP_eq_zero]
  intro s _ htext
  obtain ⟨span, x, u, key, -, hx, hxi⟩ := (text_stroke?_eq_iff hname).1 (of_decide_eq_true htext)
  exact hi x hx hxi

/-- **What is counted for a parameter is how often its name is written.** -/
theorem Flattens.count_eq {out : CompiledRoutine} (h : r.Flattens stem scope out)
    {a : ArgumentUsage} (ha : out.args[i]? = some a) :
    a.name = (CallName.argument i).text scope ∧
      a.count = ((r.strokes scope).map Stroke.text).count a.name := by
  obtain ⟨w, w', hw, -, rfl, -, hout⟩ := h.gathered
  have hconsistent : w.Consistent r scope stem := Rewriter.ofAnchored?_consistent hw
  rw [hout] at ha
  have hi : i < r.function.params.length := by
    have hlt := (List.getElem?_eq_some_iff.1 ha).1
    rwa [Rewriter.length_arguments_of_consistent (Rewriter.after_consistent hconsistent _)] at hlt
  have hfresh := Rewriter.ofAnchored?_arguments hw hi
  by_cases hfirst : ∃ x ∈ r.parameterNames, r.parameterNames.idxOf x = i
  · obtain ⟨x, hx, rfl⟩ := hfirst
    rw [Rewriter.getElem?_after_arguments hx, hfresh, Option.map_some,
      ArgumentUsage.recordAll_eq] at ha
    obtain rfl := Option.some.inj ha
    refine ⟨rfl, ?_⟩
    exact (Nat.zero_add _).trans (count_strokes_of_mem hname hx rfl).symm
  · have hrepeated : ∀ x ∈ r.parameterNames, r.parameterNames.idxOf x ≠ i := fun x hx hxi =>
      hfirst ⟨x, hx, hxi⟩
    rw [Rewriter.getElem?_after_arguments_of_repeated hrepeated, hfresh] at ha
    obtain rfl := Option.some.inj ha
    exact ⟨rfl, (count_strokes_of_repeated hname hrepeated).symm⟩

end

/-- **The trace of a body that was compiled** is its new text, and the name of a parameter is
written in it as often as it was counted. -/
theorem Flattens.trace {out : CompiledRoutine} (h : r.Flattens stem scope out)
    (hplaced : r.function.bodySpan.stop ≤ r.function.text.length ∧ Fits r.function.text
      r.function.bodySpan.start r.function.bodySpan.stop r.function.body.marks)
    (hspelled : r.IsSpelledOut) :
    (r.function.trace (r.strokes scope)).text = out.body ∧
      ∀ name, IsArgumentName scope name → (r.function.trace (r.strokes scope)).Tallies name
        (((r.strokes scope).map Stroke.text).count name) := by
  obtain ⟨hlength, hfits⟩ := hplaced
  refine ⟨?_, fun name hname => AnchoredFunction.tallies_trace hname ?_⟩
  · rw [AnchoredFunction.text_trace, map_edit_strokes, h.body_eq, sort_replacements hfits h.behind]
  · refine Text.tallies_trace hname hlength (strokes_suit hfits hspelled) (fun a ha => ?_)
      (strokes_clear hfits h.behind)
    refine h.within a.edit ?_
    rw [← map_edit_strokes]
    exact List.mem_map_of_mem ha

end Routine

/-! ## Compilations -/

namespace Compiler

/-- **Where a compiled body holds the name of a parameter.**  The name is written as often as the
parameter is counted, for its variables.  Wherever else it stands as a whole, it was there before,
in a part of the body that was left in place.  No global that was left in place is called so, and no
string that is written spells it, no property and no local. -/
theorem compile_counts_places {config : Config} {isFurtherGlobal : Text → Bool} {c : Compiler}
    (hc : ofConfig? config isFurtherGlobal = .ok c) {source : RoutineSource} {q : PrefixSequence}
    {f : AnchoredFunction} (hf : (source.text >>= anchor) = .ok f)
    (hspelled : Routine.IsSpelledOut ⟨f, c.isGlobal⟩) {out : CompiledRoutine}
    (h : (c.compile source q).1 = .ok out) :
    let r : Routine := ⟨f, c.isGlobal⟩
    let scope := PrefixSequence.prefixFor c.stem q.next
    let l := f.trace (r.strokes scope)
    l.text = out.body ∧ ∀ (i : Nat) (a : ArgumentUsage), out.args[i]? = some a →
      a.name = (CallName.argument i).text scope ∧
      l.Tallies a.name a.count ∧
      (a.name.places out.body).length =
        a.count + (a.name.places out.body).countP (fun p => l.Keeps p a.name.length) ∧
      a.name ∉ r.keptGlobals ∧
      (∀ v, a.name.places (escapeString v) = []) ∧
      (∀ p, a.name.places (Namer.propertyName p) = []) ∧
      ∀ x, a.name.places ((CallName.free x).text scope) = [] := by
  intro r scope l
  obtain ⟨f', hf', hflattens⟩ := compile_flattens h
  obtain rfl : f = f' := Except.ok.inj (hf.symm.trans hf')
  obtain ⟨t, hanchor⟩ := exists_anchor_eq_ok hf
  obtain ⟨htext, htallies⟩ := hflattens.trace (anchor_placed hanchor) hspelled
  refine ⟨htext, fun i a ha => ?_⟩
  have hargument : IsArgumentName scope ((CallName.argument i).text scope) :=
    ⟨isPlain_of_mem_prefixFor hc q.next, i, rfl⟩
  obtain ⟨hname, hcount⟩ := hflattens.count_eq hargument ha
  rw [← hname] at hargument
  have hl : l.Tallies a.name a.count := hcount ▸ htallies a.name hargument
  refine ⟨hname, hl, ?_, fun hglobal => ?_, hargument.places_string, hargument.places_property,
    hargument.places_free⟩
  · rw [← htext]
    exact hl.length_places hargument.ne_nil
  · have hplain := Routine.looksSynthetic_of_mem_keptGlobals hflattens.accepted hglobal
    have hsynthetic := Namer.looksSynthetic_text ⟨[], c.stem, [], []⟩ q.next (.argument i)
    rw [hname] at hplain
    rw [hplain] at hsynthetic
    cases hsynthetic

/-- The routine `function(a){return a._inline_0_arg0_}` reads its parameter once, and a property
that is called like the parameter is left in place: of the two places one is counted. -/
theorem compile_counts_places_property :
    let c : Compiler := ⟨Config.default, Config.defaultStem, fun _ => false⟩
    let source : RoutineSource := .value (.text (.ofChars ['f', 'u', 'n', 'c', 't', 'i', 'o', 'n',
      '(', 'a', ')', '\x7b', 'r', 'e', 't', 'u', 'r', 'n', ' ', 'a', '.', '_', 'i', 'n', 'l', 'i',
      'n', 'e', '_', '0', '_', 'a', 'r', 'g', '0', '_', '\x7d']))
    ofConfig? Config.default (fun _ => false) = .ok c ∧
      ∃ f out a, (source.text >>= anchor) = .ok f ∧ Routine.IsSpelledOut ⟨f, c.isGlobal⟩ ∧
        (c.compile source {}).1 = .ok out ∧ out.args[0]? = some a ∧
        (a.name.places out.body).length = 2 ∧ 2 = 1 + (a.name.places out.body).countP (fun p =>
          (f.trace (Routine.strokes ⟨f, c.isGlobal⟩
            (.ofChars ['_', 'i', 'n', 'l', 'i', 'n', 'e', '_', '0', '_']))).Keeps
              p a.name.length) := by
  intro c source
  have hc : ofConfig? Config.default (fun _ => false) = .ok c := by
    rw [ofConfig?, show Config.default.check = .ok [] by decide +kernel]
    rfl
  have hspelled : (source.text >>= anchor).toOption.map (fun f =>
      decide (Routine.IsSpelledOut ⟨f, c.isGlobal⟩)) = some true := by decide +kernel
  obtain ⟨f, hf, hspelled⟩ := Option.map_eq_some_iff.1 hspelled
  have hcounts : (c.compile source {}).1.toOption.map (fun out => out.args.map fun a =>
      (a.count, (a.name.places out.body).length)) = some [(1, 2)] := by decide +kernel
  obtain ⟨out, hout, hcounts⟩ := Option.map_eq_some_iff.1 hcounts
  have hf := eq_ok_of_toOption hf
  have hout := eq_ok_of_toOption hout
  obtain ⟨a, hargs, hcounts⟩ := List.map_eq_singleton_iff.1 hcounts
  obtain ⟨hcount, htotal⟩ := Prod.mk.inj hcounts
  have ha : out.args[0]? = some a := by rw [hargs]; rfl
  obtain ⟨-, hplaces⟩ := compile_counts_places hc hf (of_decide_eq_true hspelled) hout
  obtain ⟨-, -, hlength, -⟩ := hplaces 0 a ha
  rw [htotal, hcount] at hlength
  exact ⟨hc, f, out, a, hf, of_decide_eq_true hspelled, hout, ha, htotal, hlength⟩

/-- **A comment can spell the name of a parameter.**  In the body of
`function(a){/*_inline_0_arg0_*/}` the name stands once, and the parameter does not occur. -/
theorem compile_spelled_comment :
    let c : Compiler := ⟨Config.default, Config.defaultStem, fun _ => false⟩
    let source : RoutineSource := .value (.text (.ofChars ['f', 'u', 'n', 'c', 't', 'i', 'o', 'n',
      '(', 'a', ')', '\x7b', '/', '*', '_', 'i', 'n', 'l', 'i', 'n', 'e', '_', '0', '_', 'a', 'r',
      'g', '0', '_', '*', '/', '\x7d']))
    ofConfig? Config.default (fun _ => false) = .ok c ∧
      (c.compile source {}).1.toOption.map (fun out => out.args.map fun a =>
        ((a.name.places out.body).length, a.count)) = some [(1, 0)] := by
  refine ⟨?_, by decide +kernel⟩
  rw [ofConfig?, show Config.default.check = .ok [] by decide +kernel]
  rfl

end Compiler
end Elementwise
