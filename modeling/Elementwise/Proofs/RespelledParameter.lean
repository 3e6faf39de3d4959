import Mathlib.Data.List.Pairwise
import Elementwise.Proofs.MovedRoutine

/-!
# How a parameter is called

A parameter gets its name in the flattened body from its position in the list of parameters.  So it
makes no difference how the parameter is called: if its name is spelled differently wherever it
stands, then the same comes out, also if the old or the new name is that of an ambient global.

## What is here

* `AnchoredFunction.placesOf`, `AnchoredFunction.respelled` — the places of a name, and a function
  in which another name stands there.
* `Text.respell_keeps`, `Text.strictMonoOn_respellOffset` — what is behind a place moves, and
  nothing else changes.
* `AnchoredFunction.spells_of_anchor` — a parameter of a function that is found can be spelled
  differently.
* `AnchoredFunction.moves_respelled` — a function and its respelling have the same tree.
* `Compiler.flatten_respelled` — both become the same.
-/

set_option autoImplicit false
namespace Elementwise

/-! ## Texts -/

namespace Text

/-- What the code points of a text become when a name is written in some places: the first one in a
place becomes the name, the others are left out, and those outside are kept. -/
def respellings (t : Text) (places : List Span) (name : Text) : List Text :=
  t.mapIdx fun k c =>
    if ∃ s ∈ places, s.start = k ∧ k < s.stop then name
    else if ∃ s ∈ places, s.start < k ∧ k < s.stop then []
    else [c]

/-- A text in which a name is written in some places. -/
def respell (t : Text) (places : List Span) (name : Text) : Text :=
  (t.respellings places name).flatten

/-- Where an offset of a text goes when a name is written in some places. -/
def respellOffset (t : Text) (places : List Span) (name : Text) (i : Nat) : Nat :=
  ((t.respellings places name).take i).flatten.length + (i - t.length)

section
variable {t : Text} {places : List Span} {name : Text}

theorem length_respellings : (t.respellings places name).length = t.length := List.length_mapIdx

theorem respell_eq (j : Nat) : t.respell places name =
    ((t.respellings places name).take j).flatten ++
    ((t.respellings places name).drop j).flatten := by
  rw [← List.flatten_append, List.take_append_drop, respell]

/-- Up to an offset stands what the code points in front of it became. -/
theorem take_respell (j : Nat) : (t.respell places name).take (t.respellOffset places name j) =
    ((t.respellings places name).take j).flatten := by
  rcases Nat.le_total j t.length with hj | hj
  · rw [respellOffset, Nat.sub_eq_zero_of_le hj, Nat.add_zero, respell_eq j]
    exact List.take_left
  · have hall : (t.respellings places name).take j = t.respellings places name :=
      List.take_of_length_le (by rwa [length_respellings])
    rw [respellOffset, hall, respell]
    exact List.take_of_length_le (Nat.le_add_right _ _)

/-- From one offset to another stands what the code points between them became. -/
theorem slice_respell {i j : Nat} (hij : i ≤ j) :
    (t.respell places name).slice ⟨t.respellOffset places name i, t.respellOffset places name j⟩ =
      (((t.respellings places name).take j).drop i).flatten := by
  have hsplit : ((t.respellings places name).take j).flatten =
      ((t.respellings places name).take i).flatten ++
        (((t.respellings places name).take j).drop i).flatten := by
    conv_lhs => rw [← List.take_append_drop i ((t.respellings places name).take j)]
    rw [List.flatten_append, List.take_take, Nat.min_eq_left hij]
  rw [slice, take_respell, hsplit]
  rcases Nat.le_total i t.length with hi | hi
  · rw [respellOffset, Nat.sub_eq_zero_of_le hi, Nat.add_zero]
    exact List.drop_left
  · have hnone : ((t.respellings places name).take j).drop i = [] :=
      List.drop_eq_nil_of_le ((List.length_take_le' _ _).trans (by rwa [length_respellings]))
    rw [hnone, List.flatten_nil, List.append_nil]
    exact List.drop_eq_nil_of_le (Nat.le_add_right _ _)

/-- What is outside of the places is kept. -/
theorem keepsBetween_respell (l : Relabelling) (hl : l.offset = t.respellOffset places name)
    (start stop : Nat) :
    t.KeepsBetween l (t.respell places name) (fun k => ∃ s ∈ places, s.start ≤ k ∧ k < s.stop)
      start stop := by
  intro i j _ hij _ hkept
  rw [hl, slice_respell hij, slice]
  have hpieces : ((t.respellings places name).take j).drop i =
      ((t.take j).drop i).map fun c => [c] := by
    refine List.ext_getElem? fun k => ?_
    rw [List.getElem?_drop, List.getElem?_map, List.getElem?_drop, List.getElem?_take,
      List.getElem?_take]
    split
    · next hk =>
      have hfirst : ¬∃ s ∈ places, s.start = i + k ∧ i + k < s.stop := by
        rintro ⟨s, hs, heq, hlt⟩
        exact hkept (i + k) (Nat.le_add_right i k) hk ⟨s, hs, heq.le, hlt⟩
      have hother : ¬∃ s ∈ places, s.start < i + k ∧ i + k < s.stop := by
        rintro ⟨s, hs, hlt, hlt'⟩
        exact hkept (i + k) (Nat.le_add_right i k) hk ⟨s, hs, hlt.le, hlt'⟩
      rw [respellings, List.getElem?_mapIdx]
      simp only [hfirst, hother, if_false]
    · rfl
  rw [hpieces]
  exact List.flatMap_singleton' _

/-- An offset moves as far as the code point in front of it has become longer. -/
theorem respellOffset_succ (i : Nat) : t.respellOffset places name (i + 1) =
    t.respellOffset places name i + ((t.respellings places name)[i]?.getD [underscore]).length := by
  rw [respellOffset, respellOffset, List.take_add_one, List.flatten_append, List.length_append]
  by_cases hi : i < t.length
  · have hi' : i < (t.respellings places name).length := by rwa [length_respellings]
    rw [List.getElem?_eq_getElem hi', Option.toList_some, List.flatten_singleton, Option.getD_some]
    omega
  · rw [List.getElem?_eq_none (by rw [length_respellings]; omega)]
    simp only [Option.toList_none, List.flatten_nil, List.length_nil, Option.getD_none,
      List.length_singleton]
    omega

/-- Offsets that are not in the middle of a place keep their order. -/
theorem strictMonoOn_respellOffset (hname : name ≠ []) :
    StrictMonoOn (t.respellOffset places name)
      {i | ∀ s ∈ places, ¬(s.start < i ∧ i < s.stop)} := by
  have hmono : Monotone (t.respellOffset places name) := by
    refine monotone_nat_of_le_succ fun i => ?_
    rw [respellOffset_succ]
    exact Nat.le_add_right _ _
  intro i hi j _ hij
  refine Nat.lt_of_lt_of_le ?_ (hmono (Nat.succ_le_of_lt hij))
  rw [Nat.succ_eq_add_one, respellOffset_succ]
  refine Nat.lt_add_of_pos_right (List.length_pos_iff.2 ?_)
  rw [respellings, List.getElem?_mapIdx]
  cases t[i]? with
  | none => simp
  | some c =>
    have hmiddle : ¬∃ s ∈ places, s.start < i ∧ i < s.stop := fun ⟨s, hs, h⟩ => hi s hs h
    simp only [Option.map_some, Option.getD_some, hmiddle, if_false]
    split
    · exact hname
    · exact List.cons_ne_nil _ _

/-- An offset lies inside the text exactly if it did before. -/
theorem respellOffset_le_iff {i : Nat} :
    t.respellOffset places name i ≤ (t.respell places name).length ↔ i ≤ t.length := by
  rw [respell_eq i, List.length_append, respellOffset]
  rcases Nat.lt_or_ge t.length i with hi | hi
  · rw [List.drop_eq_nil_of_le (by rw [length_respellings]; omega), List.flatten_nil,
      List.length_nil]
    omega
  · rw [Nat.sub_eq_zero_of_le hi]
    omega

end

end Text

/-! ## Functions -/

/-- The part of the text at the site of a variable with a given name. -/
def Site.placeOf? (name : Text) : Site → Option Span
  | «variable» s x _ _ => if x = name then some s else none
  | _ => none

namespace AnchoredFunction

/-- The places of a name: where it is declared as a parameter, and where it stands for a variable in
the body. -/
def placesOf (f : AnchoredFunction) (name : Text) : List Span :=
  (f.params.filter fun p => p.name = name).map Parameter.span ++
    (f.body.occurrences.filterMap Occurrence.site?).filterMap (Site.placeOf? name)

/-- How a function changes when a parameter `p` is called `q`. -/
def respelling (f : AnchoredFunction) (p q : Text) : Relabelling where
  offset := f.text.respellOffset (f.placesOf p) q
  name x := if x = p then q else x

/-- A function in which `q` stands wherever `p` is declared as a parameter or stands for a variable,
in the text and in the tree.  What is behind a place moves accordingly.  Where `p` is only a word it
stays, so the key of a shorthand property does in the tree. -/
def respelled (f : AnchoredFunction) (p q : Text) : AnchoredFunction :=
  let l := f.respelling p q
  { text := f.text.respell (f.placesOf p) q
    isArrow := f.isArrow
    span := l.span f.span
    params := f.params.map fun a => ⟨l.name a.name, l.span a.span⟩
    body := f.body.relabel l
    bodySpan := l.span f.bodySpan }

/-- Whether an offset is not in the middle of a place of a name. -/
def IsEdge (f : AnchoredFunction) (p : Text) (i : Nat) : Prop :=
  ∀ s ∈ f.placesOf p, ¬(s.start < i ∧ i < s.stop)

instance (f : AnchoredFunction) (p : Text) (i : Nat) : Decidable (f.IsEdge p i) :=
  inferInstanceAs (Decidable (∀ s ∈ f.placesOf p, _))

/-- A parameter can be spelled differently without anything else being touched: the body and what
may be edited in it neither begin nor end in the middle of a place of its name, and the parameter is
not declared in the body. -/
structure Spells (f : AnchoredFunction) (p : Text) : Prop where
  body : f.IsEdge p f.bodySpan.start ∧ f.IsEdge p f.bodySpan.stop
  sites : ∀ m ∈ (f.body.occurrences.filterMap Occurrence.site?).filterMap Site.rewritten?,
    f.IsEdge p m.span.start ∧ f.IsEdge p m.span.stop
  declared : ∀ a ∈ f.params, a.name = p → a.span.Apart f.bodySpan

instance (f : AnchoredFunction) (p : Text) : Decidable (f.Spells p) :=
  decidable_of_iff
    ((f.IsEdge p f.bodySpan.start ∧ f.IsEdge p f.bodySpan.stop) ∧
      (∀ m ∈ (f.body.occurrences.filterMap Occurrence.site?).filterMap Site.rewritten?,
        f.IsEdge p m.span.start ∧ f.IsEdge p m.span.stop) ∧
      ∀ a ∈ f.params, a.name = p → a.span.Apart f.bodySpan)
    ⟨fun ⟨h₁, h₂, h₃⟩ => ⟨h₁, h₂, h₃⟩, fun ⟨h₁, h₂, h₃⟩ => ⟨h₁, h₂, h₃⟩⟩

theorem Spells.edges_of_edit? {f : AnchoredFunction} {g : Text → Bool} {p scope : Text}
    (hf : f.Spells p)
    {s : Site} (hs : s ∈ Routine.sites ⟨f, g⟩) {e : Edit}
    (he : Routine.edit? ⟨f, g⟩ scope s = some e) :
    f.IsEdge p e.span.start ∧ f.IsEdge p e.span.stop := by
  obtain ⟨m, hm, hspan⟩ := Routine.exists_rewritten?_of_edit? he
  exact hspan ▸ hf.sites m (List.mem_filterMap.2 ⟨s, hs, hm⟩)

/-- A name that a parameter can be given: it is not `eval`, and it is not taken by another parameter
or by a variable of the body. -/
structure Fresh (f : AnchoredFunction) (q : Text) : Prop where
  nonempty : q ≠ []
  not_eval : q ≠ Word.eval
  not_parameter : q ∉ f.params.map Parameter.name
  not_variable : q ∉ f.body.variableNames

theorem idxOf_map_of_inj {h : Text → Text} {names : List Text} {x : Text}
    (hinj : ∀ y ∈ names, h y = h x ↔ y = x) : (names.map h).idxOf (h x) = names.idxOf x := by
  induction names with
  | nil => rfl
  | cons y names ih =>
    obtain ⟨hy, hnames⟩ := List.forall_mem_cons.1 hinj
    by_cases heq : y = x
    · rw [heq, List.map_cons, List.idxOf_cons_self, List.idxOf_cons_self]
    · rw [List.map_cons, List.idxOf_cons_ne _ heq, List.idxOf_cons_ne _ (hy.not.2 heq), ih hnames]

section
variable {f : AnchoredFunction} {p q : Text} {g : Text → Bool}

theorem parameterNames_respelled : Routine.parameterNames ⟨f.respelled p q, g⟩ =
    (f.params.map Parameter.name).map (f.respelling p q).name := by
  rw [Routine.parameterNames, List.map_map]
  exact List.map_map

/-- Names that are not taken stay different when a parameter is given one of them. -/
theorem name_respelling_inj (hq : f.Fresh q) {x y : Text}
    (hx : x ∈ f.params.map Parameter.name ∨ x ∈ f.body.variableNames)
    (hy : y ∈ f.params.map Parameter.name ∨ y ∈ f.body.variableNames) :
    (f.respelling p q).name x = (f.respelling p q).name y ↔ x = y := by
  have hne {z : Text} (hz : z ∈ f.params.map Parameter.name ∨ z ∈ f.body.variableNames) :
      z ≠ q := by
    rintro rfl
    exact hz.elim hq.not_parameter hq.not_variable
  have hx := hne hx
  have hy := hne hy
  simp only [respelling]
  split <;> split <;> grind

theorem name_respelling_eq_eval (heval : p ≠ Word.eval) (hq : f.Fresh q) {x : Text} :
    (f.respelling p q).name x = Word.eval ↔ x = Word.eval := by
  simp only [respelling]
  split
  · next h => exact iff_of_false hq.not_eval (h ▸ heval)
  · exact Iff.rfl

/-- A place of a name is that of a parameter or that of a variable. -/
theorem mem_placesOf {s : Span} : s ∈ f.placesOf p ↔
    (∃ a ∈ f.params, a.name = p ∧ a.span = s) ∨
      ∃ usage key, Site.variable s p usage key ∈ Routine.sites ⟨f, g⟩ := by
  rw [placesOf, List.mem_append, List.mem_map, List.mem_filterMap]
  refine or_congr ?_ ?_
  · simp only [List.mem_filter, decide_eq_true_eq, and_assoc]
  · constructor
    · rintro ⟨site, hsite, hplace⟩
      cases site
      case «variable» s' x usage key =>
        rw [Site.placeOf?] at hplace
        split at hplace
        · next hx =>
          cases hplace
          exact ⟨usage, key, hx ▸ hsite⟩
        · cases hplace
      all_goals cases hplace
    · rintro ⟨usage, key, hsite⟩
      exact ⟨_, hsite, if_pos rfl⟩

/-- **In a function that is found every parameter can be spelled differently**, unless its name
stands in an ambiguous property. -/
theorem spells_of_anchor {source : Text} (h : anchor source = .ok f)
    (hzone : ∀ s ∈ f.placesOf p, ∀ z, f.body.HasZone z → ¬s.Within z.start z.stop) :
    f.Spells p := by
  obtain ⟨-, hfits⟩ := anchor_placed h
  obtain ⟨hdeclared, hle⟩ := anchor_declares h
  let r : Routine := ⟨f, fun _ => false⟩
  let spans : List Span := (r.sites.filterMap Site.rewritten?).map Mark.span
  have hsublist : spans.Sublist (f.body.marks.map Mark.span) := r.rewritten_sublist
  have hlies : ∀ s ∈ spans, s.Within f.bodySpan.start f.bodySpan.stop := by
    intro s hs
    obtain ⟨m, hm, rfl⟩ := List.mem_map.1 (hsublist.subset hs)
    exact hfits.within m hm
  have hplaces : ∀ s ∈ f.placesOf p, s.stop ≤ f.bodySpan.start ∨ s ∈ spans := by
    intro s hs
    rcases (mem_placesOf (g := r.isGlobal)).1 hs with ⟨a, ha, -, rfl⟩ | ⟨usage, key, hsite⟩
    · exact .inl (hdeclared a ha)
    · exact .inr (List.mem_map.2 ⟨_, List.mem_filterMap.2 ⟨_, hsite, rfl⟩, rfl⟩)
  have hapart : ∀ s ∈ spans, ∀ s' ∈ spans, s = s' ∨ s.Apart s' ∨ r.Ambiguous s s' := by
    have : Std.Symm fun s s' : Span => s = s' ∨ s.Apart s' ∨ r.Ambiguous s s' :=
      ⟨fun _ _ => Or.imp Eq.symm (Or.imp Span.Apart.symm Routine.Ambiguous.symm)⟩
    have hpairwise : spans.Pairwise fun s s' => s = s' ∨ s.Apart s' ∨ r.Ambiguous s s' :=
      ((Routine.marks_apart (r := r) hfits).sublist hsublist).imp .inr
    exact fun s hs s' hs' => hpairwise.forall_of_forall (fun _ _ => .inl rfl) hs hs'
  refine ⟨⟨fun s hs hmiddle => ?_, fun s hs hmiddle => ?_⟩, fun m hm => ?_, fun a ha _ => ?_⟩
  · rcases hplaces s hs with hbefore | hmem
    · omega
    · obtain ⟨hstart, -, -⟩ := hlies s hmem
      omega
  · rcases hplaces s hs with hbefore | hmem
    · omega
    · obtain ⟨-, -, hstop⟩ := hlies s hmem
      omega
  · have hedges : ∀ s ∈ f.placesOf p, ∀ i, i = m.span.start ∨ i = m.span.stop →
        ¬(s.start < i ∧ i < s.stop) := by
      intro s hs i hi hmiddle
      have hspan : m.span ∈ spans := List.mem_map_of_mem hm
      obtain ⟨hstart, hforward, -⟩ := hlies _ hspan
      rcases hplaces s hs with hbefore | hmem
      · omega
      rcases hapart s hmem _ hspan with rfl | hapart | ⟨z, hz, hs', -⟩
      · omega
      · rcases hapart with hapart | hapart <;> omega
      · exact hzone s hs z hz hs'
    exact ⟨fun s hs => hedges s hs _ (.inl rfl), fun s hs => hedges s hs _ (.inr rfl)⟩
  · exact .inl (hdeclared a ha)

/-- A name stands for the same in a function and in its respelling. -/
theorem renames_respelled (hp : p ∈ f.params.map Parameter.name) (heval : p ≠ Word.eval)
    (hq : f.Fresh q) {x : Text} (hx : x ∈ f.body.variableNames) :
    Routine.Renames (f.respelling p q) ⟨f, g⟩ ⟨f.respelled p q, g⟩ x := by
  have hinj {y : Text} (hy : y ∈ f.params.map Parameter.name) :
      (f.respelling p q).name y = (f.respelling p q).name x ↔ y = x :=
    name_respelling_inj hq (.inl hy) (.inr hx)
  refine ⟨name_respelling_eq_eval heval hq, ?_⟩
  rw [parameterNames_respelled]
  by_cases hparameter : x ∈ f.params.map Parameter.name
  · refine .inl ⟨hparameter, List.mem_map_of_mem hparameter, ?_⟩
    exact idxOf_map_of_inj fun y hy => hinj hy
  · have hkept : (f.respelling p q).name x = x := if_neg fun h : x = p => hparameter (h ▸ hp)
    refine .inr ⟨hparameter, fun hmem => ?_, hkept, rfl⟩
    obtain ⟨y, hy, hyx⟩ := List.mem_map.1 hmem
    exact hparameter ((hinj hy).1 (hyx.trans hkept.symm) ▸ hy)

/-- **A function and its respelling have the same tree**, and all that is spelled differently in the
body is replaced. -/
theorem moves_respelled (hf : f.Spells p) (hp : p ∈ f.params.map Parameter.name)
    (heval : p ≠ Word.eval) (hq : f.Fresh q) (scope : Text) :
    Routine.Moves (f.respelling p q) {i | f.IsEdge p i}
      (fun k => ∃ s ∈ f.placesOf p, s.start ≤ k ∧ k < s.stop) scope ⟨f, g⟩
      ⟨f.respelled p q, g⟩ where
  ordered := Text.strictMonoOn_respellOffset hq.nonempty
  parameters := parameterNames_respelled
  evalParameter := by
    rw [parameterNames_respelled, List.mem_map]
    constructor
    · rintro ⟨x, hx, hname⟩
      exact (name_respelling_eq_eval heval hq).1 hname ▸ hx
    · exact fun hmem => ⟨_, hmem, (name_respelling_eq_eval heval hq).2 rfl⟩
  sites := Node.filterMap_site?_relabel (f.respelling p q) f.body
  names s hs x hx := renames_respelled hp heval hq (Routine.mem_variableNames_of_mem_sites hs hx)
  editEnds e he := by
    obtain ⟨s, hs, hedit⟩ := List.mem_filterMap.1 he
    exact hf.edges_of_edit? hs hedit
  within s hs e he := by
    obtain ⟨hstart, hstop⟩ := hf.edges_of_edit? hs he
    refine and_congr (iff_of_true (Nat.zero_le _) (Nat.zero_le _)) (and_congr ?_ ?_)
    · exact (Text.strictMonoOn_respellOffset hq.nonempty).le_iff_le hstart hstop
    · exact Text.respellOffset_le_iff
  bodySpan := rfl
  bodyEnds := hf.body
  isExpressionBody := by
    have hbody : (f.respelled p q).body = f.body.relabel (f.respelling p q) := rfl
    rw [isExpressionBody, isExpressionBody, hbody]
    cases f.body <;> rfl
  keeps := Text.keepsBetween_respell _ rfl _ _
  replaced k hk hk' := by
    rintro ⟨s, hs, hsk⟩
    rcases (mem_placesOf (g := g)).1 hs with ⟨a, ha, hname, rfl⟩ | ⟨usage, key, hsite⟩
    · -- the parameter is declared outside of the body
      change f.bodySpan.start ≤ k at hk
      change k < f.bodySpan.stop at hk'
      rcases hf.declared a ha hname with h | h <;> omega
    · have hparameter : p ∈ Routine.parameterNames ⟨f, g⟩ := hp
      have hedit : Routine.edit? ⟨f, g⟩ scope (.variable s p usage key) =
          some ⟨s, Rewriter.variableText key (Routine.output ⟨f, g⟩ scope (.parameter p))⟩ := by
        simp only [Routine.edit?, Routine.resolve, hparameter, if_true]
      exact ⟨_, List.mem_filterMap.2 ⟨_, hsite, hedit⟩, hsk⟩

end

end AnchoredFunction

/-! ## Compilations -/

namespace Routine

/-- What is replaced in a body lies in it and in the text, and no two parts of it overlap. -/
def EditsFit (r : Routine) (scope : Text) : Prop :=
  (∀ e ∈ r.replacements scope, e.span.Within r.function.bodySpan.start r.function.bodySpan.stop ∧
    e.span.stop ≤ r.function.text.length) ∧
  (r.replacements scope).Pairwise fun a b => a.span.Apart b.span

/-- Edits that fit can be put together. -/
theorem not_editsFit {r : Routine} {scope stem : Text} {e : EditError}
    (h : r.newBody scope stem = .error (.edit e)) : ¬r.EditsFit scope := by
  rintro ⟨hplaced, hapart⟩
  by_cases hparams : Word.eval ∈ r.parameterNames
  · obtain ⟨span, hw⟩ := Rewriter.ofAnchored?_eval hparams { scope, stem }
    rw [newBody, hw] at h
    cases h
  by_cases haccepted : ∀ s ∈ r.sites, r.rejection? stem s = none
  · obtain ⟨w, _, hw, rfl, -, -, hbody⟩ :=
      Rewriter.rewrite_eq_substitute r scope stem hparams haccepted
      (fun e he => (hplaced e he).1) (fun e he => (hplaced e he).2) hapart
    rw [newBody, hw] at h
    cases h.symm.trans hbody
  · -- a site is refused, and the first one that is decides
    have hsome : (r.sites.findSome? (r.rejection? stem)).isSome := by
      rw [List.findSome?_isSome_iff]
      push Not at haccepted
      obtain ⟨s, hs, hne⟩ := haccepted
      exact ⟨s, hs, Option.isSome_iff_ne_none.2 hne⟩
    obtain ⟨e', he'⟩ := Option.isSome_iff_exists.1 hsome
    obtain ⟨s, -, hs⟩ := List.exists_of_findSome?_eq_some he'
    have hkind := kind_of_rejection? hs
    have hne : ∀ cause, e' ≠ .edit cause := by
      rintro cause rfl
      cases hkind
    have hwithin : ∀ e ∈ r.replacements scope, e.span.Within 0 r.function.text.length := fun e he =>
      ⟨Nat.zero_le _, (hplaced e he).1.2.1, (hplaced e he).2⟩
    have hbody := (newBody_eq_error_iff hparams hwithin hne).2 he'
    cases h.symm.trans hbody
    exact hne e rfl

end Routine

namespace Compiler

/-- **It makes no difference how a parameter is called.**  Let `p` be the name of a parameter, and
let `q` be written for it, in the text and in the tree, wherever it is declared and wherever it
stands for a variable.  Then under every prefix the same construct is refused, or the same body
comes out, with the same parameters, locals and properties; or both fail because what is replaced in
the body overlaps or reaches out of it.  Neither name need be free of other meanings: also a global
makes no difference, and neither do names that are only words. -/
theorem flatten_respelled {c : Compiler} {f : AnchoredFunction} {p q : Text}
    (hp : p ∈ f.params.map Parameter.name) (heval : p ≠ Word.eval) (hq : f.Fresh q)
    (hf : f.Spells p) (scope : Text) :
    (∃ construct s s', c.flatten scope f = .error (.rejected construct s) ∧
      c.flatten scope (f.respelled p q) = .error (.rejected construct s')) ∨
    (∃ out, c.flatten scope f = .ok out ∧ c.flatten scope (f.respelled p q) = .ok out) ∨
    ∃ e e', c.flatten scope f = .error (.edit e) ∧
      c.flatten scope (f.respelled p q) = .error (.edit e') ∧
      ¬Routine.EditsFit ⟨f, c.isGlobal⟩ scope := by
  have hboth := flatten_moves (c := c)
    (AnchoredFunction.moves_respelled (g := c.isGlobal) hf hp heval hq scope)
  generalize hx : c.flatten scope f = x at hboth ⊢
  generalize c.flatten scope (f.respelled p q) = y at hboth ⊢
  cases hboth with
  | error hfail =>
    cases hfail with
    | rejected construct s s' => exact .inl ⟨construct, s, s', rfl, rfl⟩
    | edit e e' => exact .inr (.inr ⟨e, e', rfl, rfl, Routine.not_editsFit (newBody_of_flatten hx)⟩)
  | ok heq => exact .inr (.inl ⟨_, rfl, congrArg Except.ok heq.symm⟩)

/-- A compiler with the stem `k_`, to which every name is a global. -/
def allGlobal : Compiler := { sample with isFurtherGlobal := fun _ => true }

/-- In `x=>x+y` the parameter is called by the longer name `zz` of a global. -/
theorem flatten_respelled_sum :
    let f := Rewriter.sumRoutine.function
    let f' := f.respelled (.ofChars ['x']) (.ofChars ['z', 'z'])
    f'.text = .ofChars ['(', 'z', 'z', '=', '>', 'z', 'z', '+', 'y', ')', '(', ')'] ∧
      f'.bodySpan = ⟨5, 9⟩ ∧
      ∃ out, allGlobal.flatten (.ofChars ['k', '_', '7', '_']) f = .ok out ∧
        allGlobal.flatten (.ofChars ['k', '_', '7', '_']) f' = .ok out := by
  intro f f'
  refine ⟨by decide +kernel, by decide +kernel, ?_⟩
  have hsome : (allGlobal.flatten (.ofChars ['k', '_', '7', '_']) f).toOption.isSome = true := by
    decide +kernel
  have hfresh : f.Fresh (.ofChars ['z', 'z']) :=
    ⟨by decide, by decide, by decide, by decide +kernel⟩
  rcases flatten_respelled (c := allGlobal) (f := f) (p := .ofChars ['x']) (by decide) (by decide)
    hfresh (by decide +kernel) (.ofChars ['k', '_', '7', '_'])
    with ⟨construct, s, s', h, -⟩ | hok | ⟨e, e', h, -⟩
  · rw [h] at hsome
    cases hsome
  · exact hok
  · rw [h] at hsome
    cases hsome

/-- The routine `function(x) { return { async [-x] } }`, written with one blank only: the name
`async` stands for the value of a property whose key is `-x`. -/
def negatedShorthand : Text :=
  .ofChars ['f', 'u', 'n', 'c', 't', 'i', 'o', 'n', '(', 'x', ')', '\x7b', 'r', 'e', 't', 'u', 'r',
    'n', '\x7b', 'a', 's', 'y', 'n', 'c', ' ', '[', '-', 'x', ']', '\x7d', '\x7d']

/-- The edit of `async` covers that of the parameter, however the parameter is called.  So neither
is anything refused nor does a body come out. -/
theorem flatten_negatedShorthand :
    let x := Text.ofChars ['x']
    let y := Text.ofChars ['y']
    let c : Compiler := ⟨Config.default, Config.defaultStem, fun _ => false⟩
    ∃ f, anchor negatedShorthand = .ok f ∧ x ∈ f.params.map Parameter.name ∧ f.Fresh y ∧
      f.Spells x ∧
      ¬((∃ construct s s',
          c.flatten (.ofChars ['_', '0', '_']) f = .error (.rejected construct s) ∧
          c.flatten (.ofChars ['_', '0', '_']) (f.respelled x y) =
            .error (.rejected construct s')) ∨
        ∃ out, c.flatten (.ofChars ['_', '0', '_']) f = .ok out ∧
          c.flatten (.ofChars ['_', '0', '_']) (f.respelled x y) = .ok out) := by
  intro x y c
  have hfound : (anchor negatedShorthand).toOption.isSome = true := by decide +kernel
  have hall : (anchor negatedShorthand).toOption.all fun f =>
      decide (x ∈ f.params.map Parameter.name ∧ y ∉ f.params.map Parameter.name ∧
        y ∉ f.body.variableNames ∧ f.Spells x ∧
        failureKind? (c.flatten (.ofChars ['_', '0', '_']) f) = some .edit) := by decide +kernel
  obtain ⟨f, hf⟩ := Option.isSome_iff_exists.1 hfound
  rw [hf] at hall
  obtain ⟨hx, hparameter, hvariable, hspells, hkind⟩ := of_decide_eq_true hall
  refine ⟨f, eq_ok_of_toOption hf, hx, ⟨by decide, by decide, hparameter, hvariable⟩, hspells, ?_⟩
  rintro (⟨construct, s, s', h, -⟩ | ⟨out, h, -⟩)
  · rw [h] at hkind
    cases hkind
  · rw [h] at hkind
    cases hkind

end Compiler
end Elementwise
