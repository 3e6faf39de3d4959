import Elementwise.Proofs.PartMarks
import Elementwise.Proofs.WordBoundary
import Elementwise.Proofs.WrittenString

/-!
# Properties that set the prototype

A property of an object literal sets the prototype of the object if it is a value behind the key
`__proto__`, but not if it is written in short: `{__proto__: a}` is an object with another
prototype, and `{__proto__}` one with a property of that name.  Flattening renames variables, and so
it has to write a shorthand property in full, with its key in front of the new name.  That gives the
property another meaning if this is the one key.

## What is here

* `Node.place?` — where the properties of an object begin; `Routine.WritesProto` says which of them
  get the key `__proto__` written in front of a new name.
* `AnchoredFunction.mem_marks_of_property` — the marks of a property, and what stands behind it.
* `Routine.mark_apart` — an edit stays away from all marks but the one that it replaces.
* `Routine.setsPrototype_iff` — which properties set the prototype, by the edits.
* `Compiler.compile_setsPrototype` — which properties set the prototype when they have been
  flattened.
* `Compiler.compile_shorthandProto` — a property that sets the prototype only then.
-/

set_option autoImplicit false
namespace Elementwise

/-! ## Strings as keys -/

/-- A string is read alike wherever it stands. -/
theorem StringLiteral.Begins.kind {value spelling t t' : Text} (h : Begins value spelling t t')
    (p : Place) (braces : List Brace) :
    ∃ raw octal p', Reader.kind ⟨p, t, braces⟩ = .ok (.string value raw octal, p', t') := by
  obtain ⟨quote, u, octal, q, q', hquote, rfl, htoken⟩ := h
  have hkind : Reader.kind ⟨p, quote :: u, braces⟩ = token quote p u := by
    rw [Reader.kind]
    simp only [hquote.isNameStart, Bool.false_eq_true, if_false]
    exact if_pos (by simpa [CodePoint.IsQuote] using hquote)
  rw [hkind]
  unfold token at htoken ⊢
  split at htoken
  · next hbody =>
    obtain ⟨q'', hbody'⟩ := body_anywhere p.index (p.step 1) hbody
    cases htoken
    rw [hbody']
    exact ⟨_, _, _, rfl⟩
  · cases htoken

/-- A text that begins with a string sets the prototype if this is `__proto__` and a colon
follows. -/
theorem Text.setsPrototype_of_string {t t' value raw : Text} {octal : Bool} {p : Place}
    (h : (Reader.ofText t).kind = .ok (.string value raw octal, p, t')) :
    0 < p.index ∧ t.setsPrototype =
      (decide (value = Word.proto) && Reader.isAtColon ⟨p, t', []⟩) := by
  have hne : t ≠ [] := by
    rintro rfl
    cases h
  have hprogress : t'.length < t.length := (Reader.spells_kind h).progress hne
  have htotal := (Reader.reaches_kind h).total
  refine ⟨?_, ?_⟩
  · simp only [Reader.ofText, Place.beginning] at htotal
    omega
  · rw [setsPrototype, Reader.token, h]
    rfl

/-! ## Names as keys -/

/-- A key that is written with a colon behind it sets the prototype if it is `__proto__`. -/
theorem Text.setsPrototype_of_label {key : Text} (hkey : ∀ c ∈ key, Name.IsPlain c) (t : Text) :
    setsPrototype (key ++ .scalar ':' :: t) = decide (key = Word.proto) := by
  have hcolon : CodePoint.isNamePart ':' = false := by decide
  cases key with
  | nil => exact setsPrototype_of_symbol (by decide) (by decide)
  | cons c key =>
    obtain ⟨hpart, -⟩ := hkey c List.mem_cons_self
    by_cases hc : c.isNameStart = true
    · have hread := Name.read_append (t := .scalar ':' :: t) (List.cons_ne_nil c key) hkey
        (by rintro _ ⟨⟩; exact hcolon) (.beginning ((c :: key) ++ .scalar ':' :: t))
      have hskip := CodePoint.IsKeyEnd.skip_eq (.inl rfl)
      rw [setsPrototype_of_read ⟨c, rfl, hc⟩ hread, Reader.isAtColon_of_skip (hskip _ _ t)]
      exact Bool.and_true _
    · rw [Bool.not_eq_true] at hc
      have hquote : ¬c.IsQuote := by
        rintro (rfl | rfl) <;> exact absurd hpart (by decide)
      have hne : c :: key ≠ Word.proto := by
        intro heq
        obtain rfl : c = '_' := (List.cons.inj heq).1
        exact absurd hc (by decide)
      rw [List.cons_append, setsPrototype_of_symbol hc hquote, decide_eq_false hne]

/-! ## Where a property begins -/

namespace Node

/-- Where a property of an object begins.  A shorthand property does so with its name, and has no
place if its key is in brackets. -/
def place? : Node → Option Nat
  | property s _ _ _ false _ _ => some s.start
  | property _ _ false _ true _ (identifier s _) => some s.start
  | _ => none

/-- Whether the key is a name without escapes, if it has to be written anew. -/
def HasPlainKey : Node → Prop
  | property _ _ false _ true key _ => ∀ c ∈ key.shorthandKey, Name.IsPlain c
  | _ => True

/-- A property with a key of its own begins with a part that tells whether it sets the prototype, or
with a string that is its key. -/
theorem marks_keyed_cases (s : Span) (kind : PropertyKind) (computed isMethod : Bool)
    (key value : Node) :
    let p := property s kind computed isMethod false key value
    (∃ j, ⟨⟨s.start, j⟩, .head p.setsPrototype, none⟩ ∈ p.marks) ∨
      ∃ r v j stands, computed = false ∧ key = literal r (.string v) ∧ r.start = s.start ∧
        p.setsPrototype = (decide (v = Word.proto) && stands) ∧
        ⟨r, .string (some ⟨v, none⟩), none⟩ ∈ p.marks ∧
        ⟨⟨r.stop, j⟩, .colon stands, none⟩ ∈ p.marks := by
  intro p
  have hmarks : p.marks = keyedMarks s kind computed isMethod key value key.marks value.marks :=
    marks_keyed s kind computed isMethod key value
  rw [hmarks, keyedMarks]
  split
  · exact .inl ⟨_, List.mem_cons_self⟩
  next hno =>
  split
  · next hstring =>
    rw [Bool.or_eq_true, not_or, Bool.not_eq_true, hstring, Bool.true_and, decide_eq_true_eq,
      not_not] at hno
    obtain ⟨rfl, hstart⟩ := hno
    cases key with
    | literal r value' =>
      cases value' with
      | string v =>
        refine .inr ⟨r, v, _, _, rfl, rfl, hstart.symm, ?_, List.mem_cons_self,
          List.mem_cons_of_mem _ List.mem_cons_self⟩
        cases kind <;> cases isMethod <;> simp [p, setsPrototype, isKey]
      | _ => cases hstring
    | _ => cases hstring
  · exact .inl ⟨_, List.mem_cons_self⟩

/-- Where a property begins there is a mark of it. -/
theorem exists_mark_of_place? {p : Node} {i : Nat} (h : i ∈ p.place?) :
    ∃ m ∈ p.marks, m.span.start = i := by
  unfold place? at h
  split at h
  · next s kind computed isMethod key value =>
    cases h
    rcases marks_keyed_cases s kind computed isMethod key value with
      ⟨j, hm⟩ | ⟨r, v, j, stands, -, -, hstart, -, hm, -⟩
    · exact ⟨_, hm, rfl⟩
    · exact ⟨_, hm, hstart⟩
  · cases h
    exact ⟨_, List.mem_cons_self, rfl⟩
  · cases h

/-- A tree has no ambiguous property if it is none, and has none in its parts. -/
theorem not_hasZone {n : Node} {z : Span}
    (hself : ∀ kind isMethod key value, n ≠ .property z kind true isMethod true key value)
    (hparts : ∀ p ∈ n.parts, ¬p.node.HasZone z) : ¬n.HasZone z := by
  rintro ⟨kind, isMethod, key, value, h⟩
  rcases Relation.ReflTransGen.cases_head h with rfl | ⟨_, ⟨p, hp, rfl⟩, h⟩
  · exact hself kind isMethod key value rfl
  · exact hparts p hp ⟨kind, isMethod, key, value, h⟩

end Node

namespace AnchoredFunction

variable {f : AnchoredFunction} {t : Text} {start stop i : Nat} {o : Occurrence} {s : Span}
  {ps : List Node} {p : Node}

/-- The properties of an object occur as what they are. -/
theorem mem_occurrences_of_property (ho : o ∈ f.body.occurrences) (hrole : o.role ≠ .word)
    (hobject : o.node = .object s ps) (hp : p ∈ ps) : ⟨.value .plain, p⟩ ∈ f.body.occurrences := by
  obtain ⟨role, node⟩ := o
  obtain rfl := hobject
  have hinside : Occurrence.inside ⟨role, .object s ps⟩ =
      (Node.object s ps).parts.map fun part => ⟨.value part.position, part.node⟩ := by
    cases role <;> first | rfl | exact absurd rfl hrole
  refine Occurrence.mem_below_iff.2 ((Occurrence.mem_below_iff.1 ho).tail ?_)
  rw [hinside]
  exact List.mem_map.2 ⟨⟨_, p, .plain⟩, List.mem_map_of_mem hp, rfl⟩

/-- A mark that does not begin in an ambiguous property does not lie in one. -/
theorem zone_eq_none {m : Mark} (hfits : Fits t start stop f.body.marks) (hm : m ∈ f.body.marks)
    (hzone : ∀ z, f.body.HasZone z → m.span.start < z.start ∨ z.stop ≤ m.span.start) :
    m.zone = none := by
  refine Option.eq_none_iff_forall_not_mem.2 fun z hz => ?_
  obtain ⟨h₁, -, h₂⟩ := hfits.zoned m hm z hz
  have hnonempty := (hfits.suited m hm).nonempty
  have := hzone z (Node.zone_of_mem_marks hm hz)
  omega

/-- **The marks of a property of an object are marks of the body**, with what follows them, unless
the property begins in an ambiguous one. -/
theorem mem_marks_of_property (hfits : Fits t start stop f.body.marks) (ho : o ∈ f.body.occurrences)
    (hrole : o.role ≠ .word) (hobject : o.node = .object s ps) (hp : p ∈ ps) (hi : i ∈ p.place?)
    (hzone : ∀ z, f.body.HasZone z → i < z.start ∨ z.stop ≤ i) :
    ∃ next, ∀ m ∈ p.marks ++ p.tailMarks next, m ∈ f.body.marks := by
  obtain ⟨z?, hsegment⟩ := (Occurrence.mem_below_iff.1 ho).infix_marks hrole (by rw [hobject]; rfl)
  obtain ⟨next, hnext⟩ := Node.infix_marksOfProperties s.stop hp
  have hsubset : ∀ m ∈ p.marks ++ p.tailMarks next, m.around z? ∈ f.body.marks := fun m hm =>
    hsegment.subset (List.mem_map_of_mem (by rw [hobject]; exact hnext.subset hm))
  refine ⟨next, ?_⟩
  cases z? with
  | none => exact hsubset
  | some z =>
    obtain ⟨m, hm, rfl⟩ := Node.exists_mark_of_place? hi
    have hnone := zone_eq_none hfits (hsubset m (List.mem_append_left _ hm)) hzone
    cases hnone

end AnchoredFunction

/-! ## The new text where a property begins -/

namespace Routine

/-- Whether a property gets the key `__proto__` in front of a new name. -/
def WritesProto (r : Routine) : Node → Prop
  | .property _ _ false _ true key (.identifier _ x) =>
    key.shorthandKey = Word.proto ∧ ∀ y, r.resolve x ≠ .ambient y
  | _ => False

variable {r : Routine} {t scope : Text} {start stop : Nat} {m : Mark} {e : Edit} {es : List Edit}

/-- An edit is apart from a mark that lies in no ambiguous property, unless this is what it
replaces. -/
theorem mark_apart (hfits : Fits t start stop r.function.body.marks)
    (hm : m ∈ r.function.body.marks) (hzone : m.zone = none) (he : e ∈ r.replacements scope) :
    e.span.Apart m.span ∨ m.kind.isFixed = false ∧ e.span = m.span := by
  obtain ⟨n, hn, hspan⟩ := List.mem_map.1
    ((r.replacements_sublist_filter scope).subset (List.mem_map_of_mem he))
  obtain ⟨hn, hkind⟩ := List.mem_filter.1 hn
  rw [← hspan]
  by_cases heq : n = m
  · subst heq
    exact .inr ⟨by simpa using hkind, rfl⟩
  · have : Std.Symm fun a b : Mark => a.zone = none ∨ b.zone = none → a.span.Apart b.span :=
      ⟨fun _ _ h hab => (h hab.symm).symm⟩
    have hpairwise : r.function.body.marks.Pairwise fun a b =>
        a.zone = none ∨ b.zone = none → a.span.Apart b.span := by
      refine hfits.precedes.imp ?_
      rintro a b (hbefore | ⟨hsome, hsame, -⟩) hnone
      · exact .inl hbefore.1
      · rw [← hsame, or_self] at hnone
        rw [hnone] at hsome
        cases hsome
    exact .inl (hpairwise.forall hn hm heq (.inr hzone))

/-- The edit of a variable that is renamed. -/
theorem mem_replacements_of_variable {o : Occurrence} {k : Span} {x : Text} {u : Usage}
    {key? : Option Text} (ho : o ∈ r.function.body.occurrences)
    (hsite : o.site? = some (.variable k x u key?))
    (hx : ∀ y, r.resolve x ≠ .ambient y) (scope : Text) :
    ⟨k, Rewriter.variableText key? (r.output scope (r.resolve x))⟩ ∈ r.replacements scope := by
  refine List.mem_filterMap.2 ⟨_, List.mem_filterMap.2 ⟨o, ho, hsite⟩, ?_⟩
  rw [edit?]
  cases hresolve : r.resolve x with
  | ambient y => exact absurd hresolve (hx y)
  | _ => rfl

section

variable {i j : Nat} {s : Span} {sets stands : Bool}
  (hfits : Fits r.function.text start r.function.bodySpan.stop r.function.body.marks)
  (hperm : es.Perm (r.replacements scope))

include hfits hperm

theorem edits_nonempty : ∀ e ∈ es, e.span.start < e.span.stop := fun e he =>
  replacements_nonempty scope hfits e (hperm.mem_iff.1 he)

/-- No edit lies across the beginning of a mark. -/
theorem stop_le_or_le_start (hm : m ∈ r.function.body.marks) (hzone : m.zone = none) :
    ∀ e ∈ es, e.span.stop ≤ m.span.start ∨ m.span.start ≤ e.span.start := by
  intro e he
  have hnonempty := (hfits.suited m hm).nonempty
  rcases mark_apart hfits hm hzone (hperm.mem_iff.1 he) with (h | h) | ⟨-, h⟩
  · exact .inl h
  · exact .inr (hnonempty.le.trans h)
  · exact .inr (by rw [h])

/-- A part that stays comes first in the new text from there on. -/
theorem editedFrom_of_isFixed (hm : m ∈ r.function.body.marks) (hzone : m.zone = none)
    (hfixed : m.kind.isFixed = true) :
    r.function.editedFrom es m.span.start =
      r.function.text.slice m.span ++ r.function.editedFrom es m.span.stop := by
  refine r.function.editedFrom_keeps ⟨(hfits.suited m hm).nonempty.le, (hfits.within m hm).2.2⟩
    (edits_nonempty hfits hperm) fun e he => ?_
  refine (mark_apart hfits hm hzone (hperm.mem_iff.1 he)).resolve_right ?_
  simp [hfixed]

/-- What a property begins with tells whether it sets the prototype, before and afterwards. -/
theorem setsPrototype_of_head (hm : ⟨⟨i, j⟩, .head sets, none⟩ ∈ r.function.body.marks) :
    Text.setsPrototype (r.function.text.drop i) = sets ∧
      (r.function.editedFrom es i).setsPrototype = sets := by
  have hsuits := hfits.suited _ hm
  have hij : i ≤ j := hsuits.nonempty.le
  have htells : ∀ u, (r.function.text.slice ⟨i, j⟩ ++ u).setsPrototype = sets := hsuits.tells
  refine ⟨?_, ?_⟩
  · rw [← Text.slice_append_drop _ hij]
    exact htells _
  · rw [editedFrom_of_isFixed hfits hperm hm rfl rfl]
    exact htells _

/-- A string that is a key is read as the same string again, and so the part behind it tells whether
the property sets the prototype. -/
theorem setsPrototype_of_string {v : Text}
    (hbehind : es.Pairwise fun a b => a.span.stop ≤ b.span.start) (hedit : ⟨s, escapeString v⟩ ∈ es)
    (hkey : ⟨s, .string (some ⟨v, none⟩), none⟩ ∈ r.function.body.marks)
    (hm : ⟨⟨s.stop, j⟩, .colon stands, none⟩ ∈ r.function.body.marks) :
    Text.setsPrototype (r.function.text.drop s.start) = (decide (v = Word.proto) && stands) ∧
      (r.function.editedFrom es s.start).setsPrototype = (decide (v = Word.proto) && stands) := by
  have hsuits := hfits.suited _ hm
  have hij : s.stop ≤ j := hsuits.nonempty.le
  have htells : ∀ u (p : Place) braces, 0 < p.index →
    Reader.isAtColon ⟨p, r.function.text.slice ⟨s.stop, j⟩ ++ u, braces⟩ = stands := hsuits.tells
  refine ⟨?_, ?_⟩
  · obtain ⟨spelling, hquotes, -⟩ := (hfits.suited _ hkey).string _ rfl
    obtain ⟨raw, octal, p, hkind⟩ := hquotes.kind (.beginning (r.function.text.drop s.start)) []
    obtain ⟨hp, hsets⟩ := Text.setsPrototype_of_string hkind
    rw [hsets, ← Text.slice_append_drop _ hij, htells _ _ _ hp]
  · rw [r.function.editedFrom_of_mem hedit (edits_nonempty hfits hperm) hbehind]
    obtain ⟨raw, p, hkind⟩ := Reader.kind_escapeString v (r.function.editedFrom es s.stop)
      (.beginning (escapeString v ++ r.function.editedFrom es s.stop)) []
    obtain ⟨hp, hsets⟩ := Text.setsPrototype_of_string hkind
    rw [hsets, editedFrom_of_isFixed hfits hperm hm rfl rfl, htells _ _ _ hp]

/-- A shorthand property that is left as it is does not set the prototype. -/
theorem setsPrototype_of_kept (hle : s.start ≤ s.stop)
    (hm : ⟨⟨s.stop, j⟩, .tail s.start, none⟩ ∈ r.function.body.marks)
    (hapart : ∀ e ∈ es, e.span.Apart s) :
    (r.function.editedFrom es s.start).setsPrototype = false := by
  have hsuits := hfits.suited _ hm
  have hlt : s.stop < j := hsuits.nonempty
  have hwithin : j ≤ r.function.bodySpan.stop := (hfits.within _ hm).2.2
  have hnonempty := edits_nonempty hfits hperm
  rw [r.function.editedFrom_keeps ⟨by omega, hwithin⟩ hnonempty fun e he => ?_]
  · exact hsuits.tells _
  · have hnonempty := hnonempty e he
    have htail : e.span.Apart ⟨s.stop, j⟩ :=
      (mark_apart hfits hm rfl (hperm.mem_iff.1 he)).resolve_right nofun
    have hname := hapart e he
    simp only [Span.Apart] at htail hname
    omega

/-- A shorthand property that is written in full sets the prototype if its key is `__proto__`. -/
theorem setsPrototype_of_renamed {key name : Text} (hkey : ∀ c ∈ key, Name.IsPlain c)
    (hbehind : es.Pairwise fun a b => a.span.stop ≤ b.span.start)
    (hedit : ⟨s, Rewriter.variableText (some key) name⟩ ∈ es) :
    (r.function.editedFrom es s.start).setsPrototype = decide (key = Word.proto) := by
  rw [r.function.editedFrom_of_mem hedit (edits_nonempty hfits hperm) hbehind,
    Rewriter.variableText, List.append_assoc, List.append_assoc]
  exact Text.setsPrototype_of_label hkey _

variable {kind : PropertyKind} {computed isMethod : Bool} {key value p : Node}
  (hbehind : es.Pairwise fun a b => a.span.stop ≤ b.span.start)

include hbehind

/-- A property with a key of its own sets the prototype afterwards if it did before. -/
theorem setsPrototype_of_keyed
    (hproperty : p = .property s kind computed isMethod false key value)
    (hoccurs : ⟨.value .plain, p⟩ ∈ r.function.body.occurrences)
    (hmarks : ∀ m ∈ p.marks, m ∈ r.function.body.marks) :
    Text.setsPrototype (r.function.text.drop s.start) = p.setsPrototype ∧
      (r.function.editedFrom es s.start).setsPrototype = p.setsPrototype := by
  subst hproperty
  rcases Node.marks_keyed_cases s kind computed isMethod key value with
    ⟨j, hm⟩ | ⟨k, v, j, stands, rfl, rfl, hstart, hsets, hkey, hm⟩
  · exact setsPrototype_of_head hfits hperm (hmarks _ hm)
  · have hliteral : ⟨.value .plain, .literal k (.string v)⟩ ∈ r.function.body.occurrences :=
      Occurrence.mem_below_iff.2 ((Occurrence.mem_below_iff.1 hoccurs).tail List.mem_cons_self)
    have hedit := mem_replacements_of_string hliteral rfl nofun scope
    rw [← hstart, hsets]
    exact setsPrototype_of_string hfits hperm hbehind (hperm.mem_iff.2 hedit) (hmarks _ hkey)
      (hmarks _ hm)

/-- A shorthand property does not set the prototype, but afterwards it does if it is written in full
and its key is `__proto__`. -/
theorem setsPrototype_of_shorthand {k : Span} {x : Text}
    (hoccurs : ⟨.shorthand key, .identifier k x⟩ ∈ r.function.body.occurrences)
    (hname : ⟨k, .name, none⟩ ∈ r.function.body.marks)
    (htail : ⟨⟨k.stop, j⟩, .tail k.start, none⟩ ∈ r.function.body.marks)
    (hzone : ∀ z, r.function.body.HasZone z → k.start < z.start ∨ z.stop ≤ k.start)
    (hplain : ∀ c ∈ key.shorthandKey, Name.IsPlain c) :
    Text.setsPrototype (r.function.text.drop k.start) = false ∧
      ((r.function.editedFrom es k.start).setsPrototype = true ↔
        key.shorthandKey = Word.proto ∧ ∀ y, r.resolve x ≠ .ambient y) := by
  have hsuits := hfits.suited _ htail
  have hk : k.start < k.stop := (hfits.suited _ hname).nonempty
  have hsite : Occurrence.site? ⟨.shorthand key, .identifier k x⟩ =
      some (.variable k x ⟨false, true⟩ (some key.shorthandKey)) := rfl
  refine ⟨?_, ?_⟩
  · have hlt : k.stop < j := hsuits.nonempty
    rw [← Text.slice_append_drop r.function.text (by omega : k.start ≤ j)]
    exact hsuits.tells _
  by_cases hx : ∀ y, r.resolve x ≠ .ambient y
  · have hedit := mem_replacements_of_variable hoccurs hsite hx scope
    rw [setsPrototype_of_renamed hfits hperm hplain hbehind (hperm.mem_iff.2 hedit),
      and_iff_left hx, decide_eq_true_iff]
  · rw [setsPrototype_of_kept hfits hperm hk.le htail fun e he => ?_]
    · exact iff_of_false nofun fun h => hx h.2
    obtain ⟨y, hy⟩ := not_forall_not.1 hx
    have hkept :
        (Occurrence.site? ⟨.shorthand key, .identifier k x⟩).bind (r.edit? scope) = none := by
      rw [hsite, Option.bind_some, edit?, hy]
    refine (claimed_apart hfits hoccurs rfl hkept (hperm.mem_iff.1 he)).resolve_right ?_
    rintro ⟨z, hz, -, (h₁ : z.start ≤ k.start), -, (h₂ : k.stop ≤ z.stop)⟩
    have := hzone z hz
    omega

/-- **Which properties set the prototype when they have been flattened**: those that did before, and
those that get the key `__proto__` in front of a new name. -/
theorem setsPrototype_iff {o : Occurrence} {ps : List Node}
    (ho : o ∈ r.function.body.occurrences) (hrole : o.role ≠ .word)
    (hobject : o.node = .object s ps) (hp : p ∈ ps) (hi : i ∈ p.place?)
    (hzone : ∀ z, r.function.body.HasZone z → i < z.start ∨ z.stop ≤ i) (hplain : p.HasPlainKey) :
    Text.setsPrototype (r.function.text.drop i) = p.setsPrototype ∧
      ((r.function.editedFrom es i).setsPrototype = true ↔ p.setsPrototype = true ∨
        r.WritesProto p) := by
  obtain ⟨next, hmarks⟩ := AnchoredFunction.mem_marks_of_property hfits ho hrole hobject hp hi hzone
  have hoccurs := AnchoredFunction.mem_occurrences_of_property ho hrole hobject hp
  unfold Node.place? at hi
  split at hi
  case h_1 s kind computed isMethod key value =>
    cases hi
    have hwrites : ¬r.WritesProto (.property s kind computed isMethod false key value) := by
      cases computed <;> exact id
    obtain ⟨hsource, hnew⟩ := setsPrototype_of_keyed hfits hperm hbehind rfl hoccurs fun m hm =>
      hmarks m (List.mem_append_left _ hm)
    exact ⟨hsource, by rw [hnew, or_iff_left hwrites]⟩
  case h_2 s kind isMethod key k x =>
    cases hi
    have hsets : (Node.property s kind false isMethod true key (.identifier k x)).setsPrototype =
        false := by
      cases kind <;> cases isMethod <;> rfl
    have hname : ⟨.shorthand key, .identifier k x⟩ ∈ r.function.body.occurrences :=
      Occurrence.mem_below_iff.2 ((Occurrence.mem_below_iff.1 hoccurs).tail
        (List.mem_cons_of_mem _ List.mem_cons_self))
    rw [hsets, eq_false Bool.false_ne_true, false_or]
    exact setsPrototype_of_shorthand hfits hperm hbehind hname
      (hmarks _ (List.mem_append_left _ List.mem_cons_self))
      (hmarks _ (List.mem_append_right _ List.mem_cons_self)) hzone hplain
  case h_3 => cases hi

end

end Routine

/-! ## Compilations -/

/-- Which properties of the objects in a function set the prototype, from left to right. -/
def AnchoredFunction.prototypeSetters (f : AnchoredFunction) : List Bool :=
  f.body.occurrences.flatMap fun o =>
    match o.node with
    | .object _ ps => ps.map Node.setsPrototype
    | _ => []

/-- Whether a node is an object with one property, a literal behind the string `__proto__`. -/
def Node.isProtoObject : Node → Bool
  | object _ [property _ .value false false false (literal _ (.string v)) (literal _ _)] =>
    decide (v = Word.proto)
  | _ => false

theorem Node.eq_of_isProtoObject {n : Node} (h : n.isProtoObject = true) :
    ∃ s r k t value, n = object s
      [property r .value false false false (literal k (.string Word.proto)) (literal t value)] := by
  unfold isProtoObject at h
  split at h
  · obtain rfl := of_decide_eq_true h
    exact ⟨_, _, _, _, _, rfl⟩
  · cases h

namespace Compiler

/-- **Which properties set the prototype in a compiled body.**  The body is divided where a property
of an object begins: what comes first in its second part is what the property has become.  It sets
the prototype if it did so before, or if it is a shorthand property of the key `__proto__` that had
to be written in full.  A property in an ambiguous one is left out, because the name that stands for
the value covers it. -/
theorem compile_setsPrototype {c : Compiler} {source : RoutineSource} {q : PrefixSequence}
    {out : CompiledRoutine} (h : (c.compile source q).1 = .ok out) :
    ∃ f, (source.text >>= anchor) = .ok f ∧
      let r : Routine := ⟨f, c.isGlobal⟩
      let es := Edit.sort (r.replacements (PrefixSequence.prefixFor c.stem q.next))
      out.body = f.editedBody es ∧
      ∀ o ∈ f.body.occurrences, o.role ≠ .word → ∀ s ps, o.node = .object s ps →
        ∀ p ∈ ps, p.HasPlainKey → ∀ i ∈ p.place?,
          (∀ z, f.body.HasZone z → i < z.start ∨ z.stop ≤ i) →
          out.body = f.editedUpTo es i ++ f.editedFrom es i ∧
          Text.setsPrototype (f.text.drop i) = p.setsPrototype ∧
          ((f.editedFrom es i).setsPrototype = true ↔ p.setsPrototype = true ∨
            r.WritesProto p) := by
  obtain ⟨f, hf, hflattens⟩ := compile_flattens h
  obtain ⟨t, hanchor⟩ := exists_anchor_eq_ok hf
  refine ⟨f, hf, ?_⟩
  intro r es
  have hfits : Fits r.function.text _ r.function.bodySpan.stop r.function.body.marks :=
    (anchor_placed hanchor).2
  have hperm : es.Perm _ := Edit.sort_perm _
  refine ⟨hflattens.body_eq, fun o ho hrole s ps hobject p hp hplain i hi hzone => ⟨?_, ?_⟩⟩
  · obtain ⟨next, hmarks⟩ :=
      AnchoredFunction.mem_marks_of_property hfits ho hrole hobject hp hi hzone
    obtain ⟨m, hm, rfl⟩ := Node.exists_mark_of_place? hi
    have hm := hmarks m (List.mem_append_left _ hm)
    obtain ⟨h₁, h₂, h₃⟩ := hfits.within m hm
    have hnone := AnchoredFunction.zone_eq_none hfits hm hzone
    rw [hflattens.body_eq]
    exact f.editedBody_eq_append ⟨h₁, h₂.trans h₃⟩
      (Routine.stop_le_or_le_start hfits hperm hm hnone)
  · exact Routine.setsPrototype_iff hfits hperm hflattens.behind ho hrole hobject hp hi hzone hplain

/-- The property of `()=>({"__proto__":1})` sets the prototype, and still does so when its key has
been written anew. -/
theorem compile_setsPrototype_sample :
    let source : RoutineSource :=
      .value (.text (.ofChars ['(', ')', '=', '>', '(', '\x7b', '\x22', '_', '_', 'p', 'r', 'o',
        't', 'o', '_', '_', '\x22', ':', '1', '\x7d', ')']))
    ∃ out before after, (sample.compile source ⟨0⟩).1 = .ok out ∧ out.body = before ++ after ∧
      after.setsPrototype = true := by
  intro source
  have hsome : (sample.compile source ⟨0⟩).1.toOption.isSome = true := by decide +kernel
  obtain ⟨out, hout⟩ := Option.isSome_iff_exists.1 hsome
  have hcompile := congrArg Prod.fst (compile_eq_of_toOption hout rfl)
  have hshape : (source.text >>= anchor).toOption.all fun f => f.body.isProtoObject := by
    decide +kernel
  obtain ⟨f, hf, -, hproperties⟩ := compile_setsPrototype hcompile
  rw [hf] at hshape
  obtain ⟨s, r, k, t, value, hbody⟩ := Node.eq_of_isProtoObject hshape
  have hzone (z : Span) : ¬f.body.HasZone z := by
    have hliteral (u : Span) (v : Literal) : ¬(Node.literal u v).HasZone z :=
      Node.not_hasZone (by simp) (by simp [Node.parts])
    rw [hbody]
    refine Node.not_hasZone (by simp) (List.forall_mem_singleton.2 (Node.not_hasZone (by simp) ?_))
    exact List.forall_mem_cons.2 ⟨hliteral _ _, List.forall_mem_singleton.2 (hliteral _ _)⟩
  have hfirst : ⟨.value .plain, f.body⟩ ∈ f.body.occurrences := by
    rw [Node.occurrences, Occurrence.below_eq]
    exact List.mem_cons_self
  obtain ⟨hbody, -, hsets⟩ := hproperties _ hfirst (by simp) _ _ hbody _ List.mem_cons_self trivial
    r.start rfl fun z hz => absurd hz (hzone z)
  exact ⟨out, _, _, hcompile, hbody, hsets.2 (.inl rfl)⟩

/-- **A property sets the prototype that did not.**  The only property of
`function(){return {__proto__}}` is an ordinary one.  The compiled body is
`{return {__proto__: k_0_____proto____}}`. -/
theorem compile_shorthandProto :
    let head : Text := .ofChars ['f', 'u', 'n', 'c', 't', 'i', 'o', 'n', '(', ')']
    let source : Text :=
      head ++ .ofChars ['\x7b', 'r', 'e', 't', 'u', 'r', 'n', ' ', '\x7b', '_', '_', 'p', 'r',
        'o', 't', 'o', '_', '_', '\x7d', '\x7d']
    ∃ out f f', (sample.compile (.value (.text source)) ⟨0⟩).1 = .ok out ∧ anchor source = .ok f ∧
      anchor (head ++ out.body) = .ok f' ∧ f.prototypeSetters = [false] ∧
      f'.prototypeSetters = [true] := by
  intro head source
  have hbefore : (anchor source).toOption.map AnchoredFunction.prototypeSetters = some [false] := by
    decide +kernel
  have hafter : (sample.compile (.value (.text source)) ⟨0⟩).1.toOption.any fun out =>
      (anchor (head ++ out.body)).toOption.map AnchoredFunction.prototypeSetters = some [true] := by
    decide +kernel
  obtain ⟨f, hf, hbefore⟩ := Option.map_eq_some_iff.1 hbefore
  obtain ⟨out, hout, hafter⟩ := (Option.any_eq_true _ _).1 hafter
  obtain ⟨f', hf', hafter⟩ := Option.map_eq_some_iff.1 (of_decide_eq_true hafter)
  exact ⟨out, f, f', eq_ok_of_toOption hout, eq_ok_of_toOption hf, eq_ok_of_toOption hf',
    hbefore, hafter⟩

end Compiler
end Elementwise
