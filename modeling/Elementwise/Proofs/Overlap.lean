import Elementwise.Proofs.Grammar.Script
import Elementwise.Proofs.Rejection

/-!
# Edits that overlap

A compilation can fail for many reasons, but only some of them are the routine's.  The edits of a
body that was parsed lie inside it, and they can only overlap inside an ambiguous property, where
the name `async` stands for the value and covers the key.  Nothing else goes wrong between parsing a
routine and giving back its body, but for a template that is continued where none has begun.

## What is here

* `Occurrence.rewritten_sublist` — what is replaced in a tree are marks of it.
* `EditBuffer.apply_eq_error` — edits inside a window are refused for an overlap only.
* `Compiler.compile_eq_error` — all the ways in which a compilation fails.
-/

set_option autoImplicit false
namespace Elementwise

/-! ## Marks and edits -/

/-- The part of the text that a site may have replaced. -/
def Site.rewritten? : Site → Option Mark
  | .variable s .. => some ⟨s, .name, none⟩
  | .thisProperty s _ => some ⟨s, .property, none⟩
  | .string s _ => some ⟨s, .string none, none⟩
  | .this .. | .withObject _ => none

namespace Occurrence

/-- The part of the text that an occurrence may have replaced. -/
def rewritten? (o : Occurrence) : Option Mark := o.site?.bind Site.rewritten?

/-- The plain key of a class member that is a string.  It is left as it is written. -/
def keptKey? : Occurrence → Option Span
  | ⟨.word, _⟩ => none
  | ⟨_, .classMember _ _ _ false (.literal s (.string _)) _⟩ => some s
  | _ => none

theorem of_keptKey? {o : Occurrence} {k : Span} (h : o.keptKey? = some k) :
    o.role ≠ .word ∧ ∃ span kind isStatic text value,
      o.node = .classMember span kind isStatic false (.literal k (.string text)) value := by
  unfold keptKey? at h
  split at h
  · cases h
  · next hrole =>
    obtain rfl := Option.some.inj h
    exact ⟨hrole, _, _, _, _, _, rfl⟩
  · cases h

/-- The part of the text that belongs to an occurrence, replaced or kept. -/
def claimed? (o : Occurrence) : Option Mark :=
  o.rewritten?.or (o.keptKey?.map fun s => ⟨s, .string none, none⟩)

/-- The occurrences inside one are its parts in other rôles. -/
theorem map_node_inside {o : Occurrence} (h : o.role ≠ .word) :
    o.inside.map node = o.node.parts.map Part.node := by
  unfold inside
  split
  case h_1 => exact absurd rfl h
  case h_8 =>
    rw [List.map_map]
    rfl
  all_goals rfl

theorem filterMap_below_word (n : Node) : (below ⟨.word, n⟩).filterMap claimed? = [] := by
  rw [below_eq]
  rfl

theorem filterMap_below_owner (s : Span) : (below ⟨.owner, .this s⟩).filterMap claimed? = [] := by
  rw [below_eq]
  rfl

/-- A key without brackets belongs to its property, unless it is a string. -/
theorem filterMap_below_key {key : Node} (h : key.isString = false) :
    (below ⟨key.keyRole, key⟩).filterMap claimed? = [] := by
  cases key
  case literal s value =>
    cases value
    case string => cases h
    all_goals
      rw [below_eq]
      rfl
  all_goals exact filterMap_below_word _

theorem sublist_flatMap {α β : Type} {f g : α → List β} {as : List α}
    (h : ∀ a ∈ as, (f a).Sublist (g a)) : (as.flatMap f).Sublist (as.flatMap g) := by
  induction as with
  | nil => exact .slnil
  | cons a as ih => exact (h a (by simp)).append (ih fun b hb => h b (by simp [hb]))

/-- **What is replaced or kept for an occurrence are marks of the tree, in the same order.** -/
theorem claimed_sublist (o : Occurrence) :
    (o.below.filterMap claimed?).Sublist (o.node.marks.map Mark.withoutZone) := by
  induction o using inside_induction with | step o hbelow =>
  obtain ⟨role, n⟩ := o
  by_cases hrole : role = .word
  · subst hrole
    rw [filterMap_below_word]
    exact List.nil_sublist _
  have hinside : ((inside ⟨role, n⟩).flatMap fun c => c.below.filterMap claimed?).Sublist
      (n.innerMarks.map Mark.withoutZone) := by
    have : n.innerMarks.map Mark.withoutZone =
        (inside ⟨role, n⟩).flatMap fun c => c.node.marks.map Mark.withoutZone := by
      rw [Node.innerMarks, List.map_flatMap,
        ← List.flatMap_map Part.node fun n => n.marks.map Mark.withoutZone,
        ← map_node_inside (o := ⟨role, n⟩) hrole, List.flatMap_map]
    rw [this]
    exact sublist_flatMap hbelow
  have hnone (hclaimed : claimed? ⟨role, n⟩ = none)
      (h : ((inside ⟨role, n⟩).flatMap fun c => c.below.filterMap claimed?).Sublist
        (n.marks.map Mark.withoutZone)) :
      ((below ⟨role, n⟩).filterMap claimed?).Sublist (n.marks.map Mark.withoutZone) := by
    rw [below_eq, List.filterMap_cons, List.filterMap_flatMap, hclaimed]
    exact h
  have hplain (hclaimed : claimed? ⟨role, n⟩ = none) (hmarks : n.marks = n.innerMarks) :
      ((below ⟨role, n⟩).filterMap claimed?).Sublist (n.marks.map Mark.withoutZone) :=
    hnone hclaimed (hmarks ▸ hinside)
  have hown {s : Span} {kind : MarkKind}
      (hmarks : n.marks.map Mark.withoutZone = [⟨s, kind, none⟩])
      (hclaimed : claimed? ⟨role, n⟩ = some ⟨s, kind, none⟩)
      (hnil : (inside ⟨role, n⟩).flatMap (fun c => c.below.filterMap claimed?) = []) :
      ((below ⟨role, n⟩).filterMap claimed?).Sublist (n.marks.map Mark.withoutZone) := by
    rw [below_eq, List.filterMap_cons, List.filterMap_flatMap, hclaimed, hmarks, hnil]
  cases n
  case identifier s name =>
    exact hown rfl (by cases role <;> first | rfl | exact absurd rfl hrole) (by cases role <;> rfl)
  case literal s value =>
    cases value
    case string => 
      exact hown rfl (by cases role <;> first | rfl | exact absurd rfl hrole)
        (by cases role <;> rfl)
    all_goals exact hplain (by cases role <;> rfl) rfl
  case yield s delegate argument =>
    cases argument with
    | none => exact hnone (by cases role <;> rfl) (hinside.trans (List.nil_sublist _))
    | some e => exact hplain (by cases role <;> rfl) (by rw [Node.marks_eq])
  case member s computed owner key =>
    cases computed
    case true => exact hplain (by cases role <;> rfl) (by rw [Node.marks_eq])
    case false =>
      cases owner
      case this t =>
        refine hown rfl (by cases role <;> first | rfl | exact absurd rfl hrole) ?_
        simp [inside_member hrole, filterMap_below_owner, filterMap_below_word]
      all_goals exact hplain (by cases role <;> rfl) (by rw [Node.marks_eq])
  case property s kind computed isMethod shorthand key value =>
    have hclaimed :
        claimed? ⟨role, .property s kind computed isMethod shorthand key value⟩ = none := by
      cases role <;> rfl
    cases shorthand
    case false =>
      refine hnone hclaimed ?_
      rw [Node.marks_keyed]
      have hinner : (Node.property s kind computed isMethod false key value).innerMarks =
          key.marks ++ value.marks := by simp [Node.innerMarks, Node.parts]
      by_cases hkey : computed = true ∨ key.isString = true
      · rw [hinner] at hinside
        exact hinside.trans ((Node.sublist_keyedMarks hkey).map _)
      · rw [not_or, Bool.not_eq_true, Bool.not_eq_true] at hkey
        obtain ⟨rfl, hstring⟩ := hkey
        have := inside_keyed hrole s key kind isMethod value
        rw [this, List.flatMap_cons, filterMap_below_key hstring, List.flatMap_cons,
          List.flatMap_nil, List.append_nil, List.nil_append]
        exact (hbelow ⟨.value .plain, value⟩ (by simp [this])).trans
          (Node.suffix_keyedMarks.sublist.map _)
    case true =>
      cases computed
      case true =>
        refine hnone hclaimed ?_
        rw [Node.marks_eq, List.map_map]
        exact hinside
      case false =>
        have := inside_shorthand hrole s key kind isMethod value
        refine hnone hclaimed ?_
        rw [this, List.flatMap_cons, filterMap_below_word, List.flatMap_cons, List.flatMap_nil,
          List.append_nil, List.nil_append]
        exact hbelow ⟨.shorthand key, value⟩ (by simp [this])
  case object s nodes =>
    refine hnone (by cases role <;> rfl) (hinside.trans ?_)
    rw [show (Node.object s nodes).innerMarks = Node.marksOfAll nodes from Node.marks_partsOf _ _]
    exact (Node.sublist_marksOfProperties _ _).map _
  case expression s e directive =>
    refine hnone (by cases role <;> rfl) ?_
    rw [Node.map_withoutZone_marks_expression]
    rwa [Node.innerMarks, Node.parts, List.flatMap_singleton] at hinside
  case metaProperty s head key =>
    refine hnone (by cases role <;> rfl) ?_
    simp [inside_metaProperty hrole, filterMap_below_word]
  case classMember s kind isStatic computed key value =>
    have hrewritten :
        rewritten? ⟨role, .classMember s kind isStatic computed key value⟩ = none := by
      cases role <;> rfl
    cases hkept : keptKey? ⟨role, .classMember s kind isStatic computed key value⟩ with
    | none =>
      refine hplain ?_ (by rw [Node.marks_eq])
      rw [claimed?, hrewritten, hkept]
      rfl
    | some k =>
      -- the key belongs to the member, and no further occurrence stands for it
      have hclaimed : claimed? ⟨role, .classMember s kind isStatic computed key value⟩ =
          some ⟨k, .string none, none⟩ := by
        rw [claimed?, hrewritten, hkept, Option.none_or]
        rfl
      obtain ⟨-, _, _, _, text, _, hnode⟩ := of_keptKey? hkept
      obtain ⟨rfl, rfl, rfl, rfl, rfl, rfl⟩ := Node.classMember.inj hnode
      have hinside := inside_classMember hrole s (.literal k (.string text)) kind isStatic value
      rw [below_eq, List.filterMap_cons_some hclaimed, List.filterMap_flatMap, hinside,
        List.flatMap_cons, filterMap_below_word, List.nil_append, List.flatMap_cons,
        List.flatMap_nil, List.append_nil]
      exact (hbelow ⟨.value .plain, value⟩ (by simp [hinside])).cons_cons _
  all_goals exact hplain (by cases role <;> rfl) (by rw [Node.marks_eq])

/-- What is replaced are marks of the tree, in the same order. -/
theorem rewritten_sublist (o : Occurrence) :
    (o.below.filterMap rewritten?).Sublist (o.node.marks.map Mark.withoutZone) := by
  refine .trans ?_ o.claimed_sublist
  induction o.below with
  | nil => exact .slnil
  | cons c cs ih =>
    cases hc : c.rewritten? with
    | none =>
      rw [List.filterMap_cons_none hc]
      exact ih.trans ((List.sublist_cons_self c cs).filterMap _)
    | some m =>
      have hclaimed : c.claimed? = some m := by rw [claimed?, hc, Option.some_or]
      rw [List.filterMap_cons_some hc, List.filterMap_cons_some hclaimed]
      exact ih.cons_cons m

/-- What is replaced does not stay. -/
theorem isFixed_of_mem_rewritten {o : Occurrence} :
    ∀ m ∈ o.below.filterMap rewritten?, (!m.kind.isFixed) = true := by
  intro m hm
  obtain ⟨c, -, hc⟩ := List.mem_filterMap.1 hm
  obtain ⟨site, -, hsite⟩ := Option.bind_eq_some_iff.1 hc
  cases site <;> cases hsite <;> rfl

end Occurrence

/-! ## Edits that cannot be applied -/

namespace EditBuffer

/-- Edits that lie in a window one after another are refused only if one begins before the one in
front of it has ended. -/
theorem splice_eq_error {text : Text} {start stop : Nat} {err : EditError} :
    ∀ {es : List Edit} {position : Int} {previous : Option Edit},
      (∀ e ∈ es, e.span.Within start stop) →
      splice text start stop position previous es = .error err →
      ∃ a b, [a, b].Sublist (previous.toList ++ es) ∧ b.span.start < a.span.stop ∧
        err = .overlaps a.span b.span
  | [], _, _, _, h => by
    rw [splice] at h
    cases h
  | e :: es, position, previous, hwithin, h => by
    have he : e.span.Within start stop := hwithin e (by simp)
    have hcrosses : ¬((e.span.start : Int) < start ∨ (stop : Int) < e.span.stop) := by
      obtain ⟨h₁, h₂, h₃⟩ := he
      omega
    rw [splice, if_pos (Edit.isIn_of_within he), if_neg hcrosses] at h
    split at h
    · next f hf =>
      obtain ⟨hprevious, hoverlaps⟩ := Option.filter_eq_some_iff.1 hf
      cases h
      refine ⟨f, e, ?_, by simpa using hoverlaps, rfl⟩
      rw [hprevious]
      simp
    · split at h
      · cases h
      · next hrest =>
        cases h
        obtain ⟨a, b, hab, hstart, rfl⟩ :=
          splice_eq_error (fun f hf => hwithin f (by simp [hf])) hrest
        exact ⟨a, b, hab.trans (List.sublist_append_right _ _), hstart, rfl⟩

/-- **Edits inside a window are refused only for two that overlap.**  If two edits are apart unless
they are related in some way, then the two that are named are. -/
theorem apply_eq_error {b : EditBuffer} {start stop : Nat} {err : EditError}
    {R : Edit → Edit → Prop} (hsymm : ∀ {x y}, R x y → R y x)
    (hwithin : ∀ e ∈ b.edits, e.span.Within start stop)
    (hapart : b.edits.Pairwise fun x y => x.span.Apart y.span ∨ R x y)
    (h : b.apply start stop = .error err) :
    ∃ x y, R x y ∧ err = .overlaps x.span y.span := by
  have hperm := Edit.sort_perm b.edits
  obtain ⟨x, y, hxy, hstart, rfl⟩ :=
    splice_eq_error (fun e he => hwithin e (hperm.mem_iff.1 he)) h
  have hsorted : (Edit.sort b.edits).Pairwise fun x y => x.span.Apart y.span ∨ R x y :=
    (hperm.pairwise_iff fun h => h.imp Span.Apart.symm hsymm).2 hapart
  have hrelated := hsorted.sublist hxy
  have hle := (Edit.sort_pairwise b.edits).sublist hxy
  rw [List.pairwise_pair] at hrelated hle
  refine ⟨x, y, hrelated.resolve_left fun hapart => ?_, rfl⟩
  have hy : y ∈ b.edits := hperm.mem_iff.1 (hxy.subset (by simp))
  have := Edit.stop_le_of_precedes hle hapart (hwithin y hy).2.1
  omega

end EditBuffer

/-! ## Routines -/

namespace Routine

/-- Two spans lie in one ambiguous property of the body. -/
def Ambiguous (r : Routine) (a b : Span) : Prop :=
  ∃ z, r.function.body.HasZone z ∧ a.Within z.start z.stop ∧ b.Within z.start z.stop

theorem Ambiguous.symm {r : Routine} {a b : Span} (h : r.Ambiguous a b) : r.Ambiguous b a :=
  have ⟨z, hz, ha, hb⟩ := h
  ⟨z, hz, hb, ha⟩

/-- What is edited at a site is the part of the text that it may have replaced. -/
theorem exists_rewritten?_of_edit? {r : Routine} {scope : Text} {s : Site} {e : Edit}
    (h : r.edit? scope s = some e) : ∃ m, s.rewritten? = some m ∧ m.span = e.span := by
  rw [span_of_edit? h]
  cases s <;> first | exact ⟨_, rfl, rfl⟩ | cases h

/-- What is edited at sites are parts of the text that they may have replaced. -/
theorem edit?_sublist (r : Routine) (scope : Text) (ss : List Site) :
    ((ss.filterMap (r.edit? scope)).map Edit.span).Sublist
      ((ss.filterMap Site.rewritten?).map Mark.span) := by
  induction ss with
  | nil => exact .slnil
  | cons s ss ih =>
    cases hedit : r.edit? scope s with
    | none =>
      rw [List.filterMap_cons_none hedit]
      exact ih.trans (((List.sublist_cons_self s ss).filterMap _).map _)
    | some e =>
      obtain ⟨m, hrewritten, hspan⟩ := exists_rewritten?_of_edit? hedit
      rw [List.filterMap_cons_some hedit, List.filterMap_cons_some hrewritten, List.map_cons,
        List.map_cons, hspan]
      exact ih.cons_cons _

/-- What the sites of a body may have replaced are marks of it. -/
theorem rewritten_sublist (r : Routine) :
    ((r.sites.filterMap Site.rewritten?).map Mark.span).Sublist
    (r.function.body.marks.map Mark.span) := by
  have hmarks := (Occurrence.rewritten_sublist ⟨.value .plain, r.function.body⟩).map Mark.span
  rw [List.map_map] at hmarks
  rw [sites, List.filterMap_filterMap]
  exact hmarks

/-- The edits of a body are marks of it, and none of those that stay. -/
theorem replacements_sublist_filter (r : Routine) (scope : Text) :
    ((r.replacements scope).map Edit.span).Sublist
      ((r.function.body.marks.filter fun m => !m.kind.isFixed).map Mark.span) := by
  have hmarks := ((Occurrence.rewritten_sublist ⟨.value .plain, r.function.body⟩).filter
    fun m => !m.kind.isFixed).map Mark.span
  rw [List.filter_map, List.map_map,
    List.filter_eq_self.2 Occurrence.isFixed_of_mem_rewritten] at hmarks
  refine (edit?_sublist r scope r.sites).trans ?_
  rw [sites, List.filterMap_filterMap]
  have hkind : (fun m : Mark => !m.kind.isFixed) ∘ Mark.withoutZone = fun m => !m.kind.isFixed :=
    funext fun m => congrArg _ (Mark.isFixed_withoutZone m)
  rw [hkind] at hmarks
  exact hmarks

/-- The edits of a body are marks of it. -/
theorem replacements_sublist (r : Routine) (scope : Text) :
    ((r.replacements scope).map Edit.span).Sublist (r.function.body.marks.map Mark.span) :=
  (replacements_sublist_filter r scope).trans (List.filter_sublist.map _)

/-- The marks of a body that is laid out are apart, unless they lie in one ambiguous property. -/
theorem marks_apart {r : Routine} {t : Text} {start stop : Nat}
    (hfits : Fits t start stop r.function.body.marks) :
    (r.function.body.marks.map Mark.span).Pairwise fun a b => a.Apart b ∨ r.Ambiguous a b := by
  refine List.pairwise_map.2 (hfits.precedes.imp_of_mem ?_)
  rintro m n hm hn (hlt | ⟨hsome, hzone, -⟩)
  · exact .inl (.inl hlt.1)
  · obtain ⟨z, hz⟩ := Option.isSome_iff_exists.1 hsome
    exact .inr ⟨z, Node.zone_of_mem_marks hm hz, hfits.zoned m hm z hz,
      hfits.zoned n hn z (hzone ▸ hz)⟩

/-- **The edits of a body that is laid out lie in it**, and two of them are apart unless they lie in
one ambiguous property. -/
theorem replacements_fit {r : Routine} {t : Text} (scope : Text) {start stop : Nat}
    (hfits : Fits t start stop r.function.body.marks) :
    (∀ e ∈ r.replacements scope, e.span.Within start stop) ∧
      (r.replacements scope).Pairwise fun a b =>
        a.span.Apart b.span ∨ r.Ambiguous a.span b.span := by
  have hsublist := replacements_sublist r scope
  refine ⟨fun e he => ?_, List.pairwise_map.1 ((marks_apart hfits).sublist hsublist)⟩
  obtain ⟨m, hm, hspan⟩ := List.mem_map.1 (hsublist.subset (List.mem_map_of_mem he))
  exact hspan ▸ hfits.within m hm

/-- The parts of a text that are replaced are not empty. -/
theorem replacements_nonempty {r : Routine} {t : Text} (scope : Text) {start stop : Nat}
    (hfits : Fits t start stop r.function.body.marks) :
    ∀ e ∈ r.replacements scope, e.span.start < e.span.stop := by
  intro e he
  obtain ⟨m, hm, hspan⟩ := List.mem_map.1 ((r.replacements_sublist scope).subset
    (List.mem_map_of_mem he))
  exact hspan ▸ (hfits.suited m hm).nonempty

theorem kind_of_rejection? {r : Routine} {stem : Text} {s : Site} {e : Failure}
    (h : r.rejection? stem s = some e) : e.kind = .unsupported := by
  unfold rejection? at h
  split at h
  · split at h
    · cases h
      rfl
    · split at h
      · split at h
        · cases h
          rfl
        · cases h
      · cases h
  all_goals
    cases h
    try rfl

/-- **A body that is laid out is refused for a construct in it, or for two edits in one ambiguous
property.** -/
theorem newBody_eq_error {r : Routine} {scope stem : Text}
    (hbody : r.function.bodySpan.stop ≤ r.function.text.length)
    (hfits : Fits r.function.text r.function.bodySpan.start r.function.bodySpan.stop
      r.function.body.marks)
    {e : Failure} (h : r.newBody scope stem = .error e) :
    e.kind = .unsupported ∨ ∃ a b, r.Ambiguous a b ∧ e = .edit (.overlaps a b) := by
  obtain ⟨hwithin, hapart⟩ := replacements_fit scope hfits
  cases hp : r.function.params.find? (fun p => p.name = Word.eval) with
  | some p =>
    rw [newBody_eq_of_parameter scope stem hp] at h
    cases h
    exact .inl rfl
  | none =>
    have hparams : Word.eval ∉ r.parameterNames := by
      rw [mem_parameterNames_iff]
      rintro ⟨p, hmem, hname⟩
      exact absurd hname (by simpa using List.find?_eq_none.1 hp p hmem)
    obtain ⟨w, hw⟩ := Rewriter.ofAnchored?_eq_ok { scope, stem } hparams
    have hconsistent : w.Consistent r scope stem := Rewriter.ofAnchored?_consistent hw
    have hwithin' : ∀ e ∈ r.replacements scope, e.span.Within 0 r.function.text.length := by
      intro e he
      obtain ⟨h₁, h₂, h₃⟩ := hwithin e he
      exact ⟨by omega, h₂, by omega⟩
    rw [newBody, hw] at h
    simp only [Rewriter.rewrite_eq] at h
    cases hwalk : Rewriter.visitAll r w r.sites with
    | error failure =>
      obtain ⟨e', w'⟩ := failure
      rw [hwalk] at h
      cases h
      have hfirst := (Rewriter.visitAll_eq_error_iff hconsistent hwithin').1 ⟨w', hwalk⟩
      obtain ⟨s, -, hs⟩ := List.exists_of_findSome?_eq_some hfirst
      exact .inl (kind_of_rejection? hs)
    | ok w' =>
      obtain ⟨-, -, rfl⟩ := (Rewriter.visitAll_eq_ok_iff hconsistent _).1 hwalk
      have hedits : (w.after r scope r.sites).buffer.edits = r.replacements scope := by
        rw [Rewriter.after_edits, Rewriter.ofAnchored?_edits hw, List.nil_append, replacements]
      rw [hwalk] at h
      simp only [Rewriter.bodyText] at h
      split at h
      · next err happly =>
        cases h
        rw [← hedits] at hwithin hapart
        obtain ⟨x, y, hxy, rfl⟩ :=
          EditBuffer.apply_eq_error (R := fun x y => r.Ambiguous x.span y.span)
          Ambiguous.symm hwithin hapart happly
        exact .inr ⟨_, _, hxy, rfl⟩
      · cases h

end Routine

/-! ## Compilations -/

namespace Compiler

theorem newBody_of_flatten {c : Compiler} {scope : Text} {f : AnchoredFunction} {e : Failure}
    (h : c.flatten scope f = .error e) :
    Routine.newBody ⟨f, c.isGlobal⟩ scope c.stem = .error e := by
  rw [flatten] at h
  rw [Routine.newBody]
  split at h
  · next hw =>
    cases h
    rw [hw]
  · next hw =>
    rw [hw]
    dsimp only
    split at h
    · next hrewrite =>
      cases h
      rw [hrewrite]
    · cases h

/-- **All the ways in which a compilation fails.**  The source does not parse, or it is not one
plain function, or it contains what cannot be flattened; besides these, a template may be continued
where none has begun, and edits may overlap in a shorthand property that has its key in brackets.  A
range that is missing, and an edit that does not lie in the body, are never the reason. -/
theorem compile_eq_error {c : Compiler} {t : Text} {q q' : PrefixSequence} {e : Failure}
    (h : c.compile (.value (.text t)) q = (.error e, q')) :
    e.kind = .parsing ∨ e.kind = .unsupported ∨ e = .unparsable .templateContinuation ∨
      ∃ f a b, anchor t = .ok f ∧ Routine.Ambiguous ⟨f, c.isGlobal⟩ a b ∧
        e = .edit (.overlaps a b) := by
  have hsource : (RoutineSource.text (.value (.text t)) >>= anchor) = anchor t := rfl
  rw [compile, hsource] at h
  split at h
  · next hanchor =>
    cases h
    rcases kind_of_anchor hanchor with h | h | h
    exacts [.inl h, .inr (.inl h), .inr (.inr (.inl h))]
  · next f hanchor =>
    have hflatten := congrArg Prod.fst h
    obtain ⟨hlength, hfits⟩ := anchor_placed hanchor
    rcases Routine.newBody_eq_error hlength hfits (newBody_of_flatten hflatten) with
      h | ⟨a, b, hab, h⟩
    exacts [.inr (.inl h), .inr (.inr (.inr ⟨f, a, b, hanchor, hab, h⟩))]

/-- The routine `function(x) { return { async [x] } }`, written with one blank only: the name
`async` stands for the value of a property whose key is `x`. -/
def computedShorthand : Text :=
  .ofChars ['f', 'u', 'n', 'c', 't', 'i', 'o', 'n', '(', 'x', ')', '\x7b', 'r', 'e', 't', 'u', 'r',
    'n', ' ', '\x7b', 'a', 's', 'y', 'n', 'c', ' ', '[', 'x', ']', '\x7d', '\x7d']

/-- The routine `function() { ${} }` with a template for its body, written without blanks: the brace
behind the dollar is closed at once, and the template goes on where an expression should stand. -/
def continuedTemplate : Text :=
  .ofChars ['f', 'u', 'n', 'c', 't', 'i', 'o', 'n', '(', ')', '\x7b', '`', '$', '\x7b', '\x7d', '`',
    '\x7d']

/-- The kind of failure that a computation ends with, if it does. -/
def failureKind? {α : Type} : Except Failure α → Option FailureKind
  | .ok _ => none
  | .error e => some e.kind

/-- The edit of `async` covers that of `x`. -/
theorem compile_computedShorthand :
    let c : Compiler := ⟨Config.default, Config.defaultStem, fun _ => false⟩
    ∃ e q' f a b, c.compile (.value (.text computedShorthand)) {} = (.error e, q') ∧
      anchor computedShorthand = .ok f ∧ Routine.Ambiguous ⟨f, c.isGlobal⟩ a b ∧
      e = .edit (.overlaps a b) := by
  intro c
  have hkind : failureKind? (c.compile (.value (.text computedShorthand)) {}).1 = some .edit := by
    decide +kernel
  cases hcompile : c.compile (.value (.text computedShorthand)) {} with
  | mk result q' =>
    rw [hcompile] at hkind
    cases result with
    | ok out => cases hkind
    | error e =>
      rcases compile_eq_error hcompile with h | h | rfl | ⟨f, a, b, hf, hab, he⟩
      · exact absurd (h.symm.trans (Option.some.inj hkind)) (by decide)
      · exact absurd (h.symm.trans (Option.some.inj hkind)) (by decide)
      · cases hkind
      · exact ⟨e, q', f, a, b, rfl, hf, hab, he⟩

/-- Both routines fail in a way that tells nothing about what is wrong with them. -/
theorem compile_internal_failures :
    let c : Compiler := ⟨Config.default, Config.defaultStem, fun _ => false⟩
    failureKind? (c.compile (.value (.text computedShorthand)) {}).1 = some .edit ∧
      failureKind? (c.compile (.value (.text continuedTemplate)) {}).1 = some .internal := by
  decide +kernel

end Compiler
end Elementwise
