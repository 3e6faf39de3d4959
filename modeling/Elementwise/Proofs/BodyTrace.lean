import Elementwise.Proofs.CompiledBody
import Elementwise.Proofs.ConfiguredName
import Elementwise.Proofs.NamePlace

/-!
# What is written into a body

The sites of a body are replaced, and what is between them is left in place.  A trace of the body
marks what was written.  The name of a parameter can then only stand in what was left in place or be
written as a whole: no name goes on from one to the other, a property that is written goes on behind
`this_` with doubled underscores, and a string has a backslash in front of every underscore.

## What is here

* `Routine.strokes` — what takes the place of the sites of a body, as a label that is kept and a
  text that is written.
* `AnchoredFunction.trace` — the new text of a body, with what was left in place.
* `Stroke.Suits` — what stands around the part of a text that is replaced.
* `Text.tallies_trace` — the name of a parameter is written as often as strokes write it.
-/

set_option autoImplicit false
namespace Elementwise

/-! ## What is written in the place of a site -/

/-- What takes the place of a part of a text: a label that is kept, and what is written behind it.
The label of a shorthand property is its key, with what divides it from the value. -/
structure Stroke where
  span : Span
  label : Text
  text : Text

/-- The edit that a stroke amounts to. -/
def Stroke.edit (s : Stroke) : Edit := ⟨s.span, s.label ++ s.text⟩

/-- The label of a variable, given the key of the shorthand property in which it stands. -/
def Rewriter.keyLabel : Option Text → Text
  | some key => key ++ .ofChars [':', ' ']
  | none => []

theorem Rewriter.variableText_eq (key : Option Text) (generated : Text) :
    variableText key generated = keyLabel key ++ generated := by
  cases key <;> rfl

namespace Routine

/-- What takes the place of a site, if anything does. -/
def stroke? (r : Routine) (scope : Text) : Site → Option Stroke
  | .variable span x _ key =>
    match r.resolve x with
    | .ambient _ => none
    | v => some ⟨span, Rewriter.keyLabel key, r.output scope v⟩
  | .thisProperty span p => some ⟨span, [], r.output scope (.property p)⟩
  | .string span value => some ⟨span, [], escapeString value⟩
  | .this .. | .withObject _ => none

/-- What takes the place of the sites of a body, in the order of the walk. -/
def strokes (r : Routine) (scope : Text) : List Stroke := r.sites.filterMap (r.stroke? scope)

variable {r : Routine} {scope : Text}

theorem map_edit_stroke? (s : Site) : (r.stroke? scope s).map Stroke.edit = r.edit? scope s := by
  match s with
  | .variable span x usage key =>
    rw [stroke?, edit?]
    cases r.resolve x with
    | ambient y => rfl
    | _ => exact congrArg (fun u => some (Edit.mk span u)) (Rewriter.variableText_eq ..).symm
  | .thisProperty .. | .string .. | .this .. | .withObject .. => rfl

theorem map_edit_strokes : (r.strokes scope).map Stroke.edit = r.replacements scope := by
  rw [strokes, List.map_filterMap, replacements]
  exact List.filterMap_congr fun s _ => map_edit_stroke? s

end Routine

/-! ## The trace of a body -/

/-- The text from an offset to the end of a window with some strokes in it.  What is between them
and their labels are left in place. -/
def Text.trace (t : Text) (position stop : Nat) : List Stroke → Trace
  | [] => .kept (t.slice ⟨position, stop⟩)
  | s :: ss =>
    .kept (t.slice ⟨position, s.span.start⟩ ++ s.label) ++
      (.written s.text ++ t.trace s.span.stop stop ss)

theorem Text.text_trace (t : Text) (position stop : Nat) (ss : List Stroke) :
    (t.trace position stop ss).text = t.substitute position stop (ss.map Stroke.edit) := by
  induction ss generalizing position with
  | nil => exact Trace.text_kept _
  | cons s ss ih => simp [trace, substitute, ih, Stroke.edit]

/-- The body of a function with some strokes in it.  The block that an expression becomes is
written. -/
def AnchoredFunction.trace (f : AnchoredFunction) (ss : List Stroke) : Trace :=
  let flat := f.text.trace f.bodySpan.start f.bodySpan.stop ss
  if f.isExpressionBody then
    .written (.ofChars ['{', 'r', 'e', 't', 'u', 'r', 'n', ' ']) ++
      (flat ++ .written (.ofChars [';', '}']))
  else flat

theorem AnchoredFunction.text_trace (f : AnchoredFunction) (ss : List Stroke) :
    (f.trace ss).text = f.editedBody (ss.map Stroke.edit) := by
  rw [trace, editedBody]
  split
  · simp [Text.text_trace]
  · exact Text.text_trace ..

/-! ## Strokes and what stands around them -/

/-- What a stroke writes, and what stands around the part of the text that it replaces. -/
inductive Stroke.Suits (t scope : Text) : Stroke → Prop
  | name {s : Span} {label : Text} {k : CallName} (hstarts : t.StartsName s.start)
      (halone : t.StandsAlone s) (hlabel : ∀ c ∈ label.getLast?, ¬Name.IsPlain c) :
      Suits t scope ⟨s, label, k.text scope⟩
  | property {s : Span} {p : Text} (hstarts : t.StartsOwner s.start)
      (hbehind : t.NoName s.stop) : Suits t scope ⟨s, [], Namer.propertyName p⟩
  | string {s : Span} {v : Text} : Suits t scope ⟨s, [], escapeString v⟩

/-! ## Seams -/

namespace Text

variable {t : Text} {i j : Nat}

theorem NoName.not_isPlain (h : t.NoName i) : ∀ c ∈ t[i]?, ¬Name.IsPlain c := fun c hc hplain =>
  Bool.eq_false_iff.1 (h c hc) hplain.1

theorem head?_slice : ∀ c ∈ (t.slice ⟨i, j⟩).head?, c ∈ t[i]? := by
  intro c hc
  rw [slice, List.head?_drop, List.getElem?_take] at hc
  split at hc
  · exact hc
  · cases hc

theorem getLast?_slice (hij : i < j) (hj : j ≤ t.length) :
    ∀ c ∈ (t.slice ⟨i, j⟩).getLast?, c ∈ t[j - 1]? := by
  intro c hc
  rw [List.getLast?_eq_getElem?, slice, List.getElem?_drop, List.length_drop,
    List.length_take_of_le hj, List.getElem?_take, show i + (j - i - 1) = j - 1 by omega] at hc
  rwa [if_pos (show j - 1 < j by omega)] at hc

end Text

/-! ## Counting -/

/-- The name of a parameter of one compilation, whose prefix goes on like a name. -/
structure IsArgumentName (scope name : Text) : Prop where
  plain : ∀ c ∈ scope, Name.IsPlain c
  exists_index : ∃ i, name = (CallName.argument i).text scope

namespace IsArgumentName

variable {scope name t : Text} (h : IsArgumentName scope name)

include h

/-- The name ends in a digit and an underscore, and is longer than the prefix. -/
theorem exists_front : ∃ front d, name = front ++ [underscore] ∧ front.getLast? = some d ∧
    d.isDigit = true ∧ scope.length ≤ front.length := by
  obtain ⟨i, rfl⟩ := h.exists_index
  obtain ⟨d, hd, hdigit⟩ := getLast?_append_ofNat (scope ++ Namer.argumentWord) i
  exact ⟨_, d, rfl, hd, hdigit, by simp⟩

theorem ne_nil : name ≠ [] := by
  obtain ⟨front, d, rfl, -⟩ := h.exists_front
  simp

theorem plain_argument (i : Nat) : ∀ c ∈ (CallName.argument i).text scope, Name.IsPlain c := by
  have hword : ∀ c ∈ Namer.argumentWord, Name.IsPlain c := by decide
  have hunderscore : ∀ c ∈ [underscore], Name.IsPlain c := by decide
  intro c hc
  simp only [CallName.text, List.mem_append] at hc
  rcases hc with ((hc | hc) | hc) | hc
  · exact h.plain c hc
  · exact hword c hc
  · exact isPlain_of_mem_ofNat hc
  · exact hunderscore c hc

theorem forall_isPlain : ∀ c ∈ name, Name.IsPlain c := by
  obtain ⟨i, rfl⟩ := h.exists_index
  exact h.plain_argument i

/-- The name does not stand in that of a local. -/
theorem places_free (x : Text) : name.places ((CallName.free x).text scope) = [] := by
  obtain ⟨front, d, rfl, hd, hdigit, hlength⟩ := h.exists_front
  rw [CallName.text, places_append_escapeIdentifier hd hdigit hlength]

/-- What is written for a variable is the name, or the name does not stand in it. -/
theorem tallies_variable (k : CallName) :
    (Trace.written (k.text scope)).Tallies name (if k.text scope = name then 1 else 0) := by
  cases k with
  | argument j => exact .written (Text.length_places_of_plain h.ne_nil (h.plain_argument j))
  | free x =>
    have hother : (CallName.free x).text scope ≠ name := by
      obtain ⟨i, rfl⟩ := h.exists_index
      exact fun heq => nomatch CallName.text_injective scope heq
    rw [if_neg hother]
    exact .written (by rw [h.places_free]; rfl)

/-- The name does not stand in a text without underscores. -/
theorem places_of_not_mem (ht : underscore ∉ t) : name.places t = [] := by
  obtain ⟨front, d, rfl, -⟩ := h.exists_front
  refine List.eq_nil_iff_forall_not_mem.2 fun i hi => ?_
  obtain ⟨a, b, rfl, -⟩ := exists_of_mem_places hi
  exact ht (by simp)

theorem places_string (v : Text) : name.places (escapeString v) = [] := by
  obtain ⟨front, d, rfl, hd, hdigit, -⟩ := h.exists_front
  exact places_escapeString hd hdigit

/-- The name does not go on into what is written for a property. -/
theorem length_le_of_mem_places {u p : Text} {i : Nat}
    (hi : i ∈ name.places (u ++ Namer.propertyName p)) : i + name.length ≤ u.length := by
  obtain ⟨front, d, rfl, hd, hdigit, -⟩ := h.exists_front
  exact length_le_of_mem_places_propertyName hd hdigit hi

theorem places_property (p : Text) : name.places (Namer.propertyName p) = [] := by
  refine List.eq_nil_iff_forall_not_mem.2 fun i hi => h.ne_nil (List.length_eq_zero_iff.1 ?_)
  have hle := h.length_le_of_mem_places (u := []) hi
  rw [List.length_nil] at hle
  omega

/-- What is written for a property holds the name no more than what is left in front of it. -/
theorem tallies_property (u p : Text) :
    (Trace.kept u ++ Trace.written (Namer.propertyName p)).Tallies name 0 := by
  refine .of_keeps h.ne_nil fun i hi => ?_
  rw [Trace.text_append, Trace.text_kept, Trace.text_written] at hi
  have hle := h.length_le_of_mem_places hi
  exact (Trace.marked_append_left (by simpa [Trace.kept] using hle)).2 (Trace.keeps_kept u i _)

end IsArgumentName

/-! ## The induction -/

namespace Text

variable {t scope name : Text} {position stop : Nat} {ss : List Stroke}

/-- Where a stroke ends, what follows goes on with no name. -/
theorem head?_trace (hno : t.NoName position) (hsuits : ∀ s ∈ ss.head?, s.Suits t scope)
    (hwithin : ∀ s ∈ ss.head?, position ≤ s.span.start ∧ s.span.start ≤ t.length)
    (hopen : ∀ s ∈ ss.head?, position = s.span.start → t[s.span.start]? ≠ some (.scalar '(')) :
    ∀ c ∈ (t.trace position stop ss).text.head?, ¬Name.IsPlain c := by
  intro c hc
  cases ss with
  | nil => exact hno.not_isPlain c (head?_slice c (by simpa [trace] using hc))
  | cons s ss =>
    rcases Nat.eq_or_lt_of_le (hwithin s rfl).1 with heq | hlt
    · have hempty : t.slice ⟨position, s.span.start⟩ = [] := by
        rw [← heq, slice]
        simp
      have hparen := hopen s rfl heq
      rw [trace, hempty] at hc
      cases hsuits s rfl with
      | name hstarts => exact (hno.not_startsName (heq ▸ hstarts)).elim
      | property hstarts =>
        exact (hno.not_startsName (heq ▸ hstarts.resolve_right hparen)).elim
      | string =>
        obtain rfl : CodePoint.scalar '\x27' = c := Option.some.inj hc
        decide
    · have hne : t.slice ⟨position, s.span.start⟩ ≠ [] := by
        have := (hwithin s rfl).2
        rw [slice, ← List.length_pos_iff, List.length_drop, List.length_take_of_le this]
        exact Nat.sub_pos_of_lt hlt
      rw [trace, Trace.text_append, Trace.text_kept, List.append_assoc,
        List.head?_append_of_ne_nil _ hne] at hc
      exact hno.not_isPlain c (head?_slice c hc)

/-- In front of what is written for a variable no name goes on. -/
theorem getLast?_front {s : Span} {label : Text} (halone : t.StandsAlone s)
    (hlabel : ∀ c ∈ label.getLast?, ¬Name.IsPlain c) (hstart : s.start ≤ t.length) :
    ∀ c ∈ (t.slice ⟨position, s.start⟩ ++ label).getLast?, ¬Name.IsPlain c := by
  intro c hc
  rw [List.getLast?_append] at hc
  cases hlast : label.getLast? with
  | some d =>
    rw [hlast] at hc
    exact hlabel c (hlast.trans hc)
  | none =>
    rw [hlast, Option.none_or] at hc
    rcases Nat.lt_or_ge position s.start with hlt | hle
    · exact (halone.front (s.start - 1) (by omega)).not_isPlain c (getLast?_slice hlt hstart c hc)
    · rw [slice, List.drop_of_length_le (by rw [List.length_take_of_le hstart]; exact hle)] at hc
      cases hc

/-- One stroke writes the name if that is its text, and else the name stands only in front of it and
behind it. -/
theorem tallies_stroke (hname : IsArgumentName scope name) {s : Stroke} (hs : s.Suits t scope)
    (hstart : s.span.start ≤ t.length) {rest : Trace} {n : Nat} (hrest : rest.Tallies name n)
    (hhead : t.NoName s.span.stop → ∀ c ∈ rest.text.head?, ¬Name.IsPlain c) :
    (Trace.kept (t.slice ⟨position, s.span.start⟩ ++ s.label) ++
      (.written s.text ++ rest)).Tallies name ((if s.text = name then 1 else 0) + n) := by
  have hne := hname.ne_nil
  have hplain := hname.forall_isPlain
  cases hs with
  | @name span label k hstarts halone hlabel =>
    have hwritten := (hname.tallies_variable k).append hrest hne hplain
      (.of_head (hhead halone.behind))
    have hall := (Trace.Tallies.kept hne (t.slice ⟨position, span.start⟩ ++ label)).append hwritten
      hne hplain
      (.of_last (by rw [Trace.text_kept]; exact getLast?_front halone hlabel hstart))
    rwa [Nat.zero_add] at hall
  | @property span p hstarts hbehind =>
    rw [if_neg (Text.ne_of_places_eq_nil hne (hname.places_property p)), List.append_nil,
      ← List.append_assoc]
    exact (hname.tallies_property _ p).append hrest hne hplain (.of_head (hhead hbehind))
  | @string span v =>
    have hnone := hname.places_string v
    have hquote : ¬Name.IsPlain '\x27' := by decide
    have hwritten : (Trace.written (escapeString v) ++ rest).Tallies name (0 + n) := by
      refine Trace.Tallies.append (.written (by rw [hnone]; rfl)) hrest hne hplain (.of_last ?_)
      rw [Trace.text_written, escapeString, List.getLast?_concat]
      rintro _ ⟨⟩
      exact hquote
    have hall := (Trace.Tallies.kept hne (t.slice ⟨position, span.start⟩ ++ [])).append hwritten hne
      hplain (.of_head (by rintro _ ⟨⟩; exact hquote))
    rw [Nat.zero_add] at hall
    rwa [if_neg (Text.ne_of_places_eq_nil hne hnone)]

/-- **The name of a parameter is written as a whole as often as strokes write it**, and elsewhere it
stands only in what was left in place. -/
theorem tallies_trace (hname : IsArgumentName scope name) (hstop : stop ≤ t.length)
    (hsuits : ∀ s ∈ ss, s.Suits t scope) (hwithin : ∀ s ∈ ss, s.span.Within position stop)
    (hprecedes : ss.Pairwise fun a b => t.Clears a.span.stop b.span.start) :
    (t.trace position stop ss).Tallies name ((ss.map Stroke.text).count name) := by
  induction ss generalizing position with
  | nil => exact .kept hname.ne_nil _
  | cons s ss ih =>
    obtain ⟨hnext, hprecedes⟩ := List.pairwise_cons.1 hprecedes
    have hlength : ∀ b ∈ s :: ss, b.span.start ≤ t.length := fun b hb => by
      have ⟨_, hle, hle'⟩ := hwithin b hb
      omega
    have hrest := ih (fun b hb => hsuits b (by simp [hb]))
      (fun b hb => ⟨(hnext b hb).1, (hwithin b (by simp [hb])).2⟩) hprecedes
    have hhead (hno : t.NoName s.span.stop) :
        ∀ c ∈ (t.trace s.span.stop stop ss).text.head?, ¬Name.IsPlain c := by
      have hfirst : ∀ b ∈ ss.head?, b.Suits t scope := fun b hb =>
        hsuits b (by simp [List.mem_of_head? hb])
      refine head?_trace hno hfirst (fun b hb => ?_) fun b hb => ?_
      · have hmem := List.mem_of_head? hb
        exact ⟨(hnext b hmem).1, hlength b (by simp [hmem])⟩
      · exact (hnext b (List.mem_of_head? hb)).2
    rw [trace, List.map_cons, List.count_cons, Nat.add_comm]
    have hs := hsuits s (by simp)
    have hstart := hlength s (by simp)
    simpa using tallies_stroke hname hs hstart hrest hhead

end Text

/-- The block that an expression becomes does not hold the name. -/
theorem AnchoredFunction.tallies_trace {scope name : Text} (hname : IsArgumentName scope name)
    {f : AnchoredFunction} {ss : List Stroke} {n : Nat}
    (hflat : (f.text.trace f.bodySpan.start f.bodySpan.stop ss).Tallies name n) :
    (f.trace ss).Tallies name n := by
  have hblock {t : Text} (ht : underscore ∉ t) : (Trace.written t).Tallies name 0 :=
    .written (by rw [hname.places_of_not_mem ht]; rfl)
  have hblank : ¬Name.IsPlain ' ' := by decide
  have hsemicolon : ¬Name.IsPlain ';' := by decide
  rw [trace]
  split
  · rw [← Nat.zero_add n, ← Nat.add_zero n]
    refine (hblock (by decide)).append (hflat.append (hblock (by decide)) hname.ne_nil
      hname.forall_isPlain (.of_head ?_)) hname.ne_nil hname.forall_isPlain (.of_last ?_)
    · rw [Trace.text_written]
      rintro _ ⟨⟩
      exact hsemicolon
    · rw [Trace.text_written]
      rintro _ ⟨⟩
      exact hblank
  · exact hflat

end Elementwise
