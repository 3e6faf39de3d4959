import Elementwise.Proofs.Flattening

/-!
# What cannot be flattened

A routine is refused for `eval`, for `with`, for a `this` that is not the object of an access by
name, and for a global that looks like a generated name.  This module says where in a tree each of
these stands, without saying how a tree is walked over, and shows that a routine is refused exactly
if one of them is there, and for the first one.

## What is here

* `Routine.Refuses` — the occurrences that make a routine be refused, and for what.
* `Routine.FirstRefused` — what comes first: the parameters, and then the body from left to right.
* `Routine.newBody_rejected_iff` — when a routine is refused, and what the refusal names.
-/

set_option autoImplicit false
namespace Elementwise

namespace Routine

/-- The new text of a body under a prefix and a stem: a rewriter is made for the function, and it
walks over the body. -/
def newBody (r : Routine) (scope stem : Text) : Except Failure Text :=
  match Rewriter.ofAnchored? r.function { scope, stem } with
  | .ok w => (Rewriter.rewrite r w).1
  | .error e => .error e

/-- A node lies in the body of a routine, at any depth, in a given rôle. -/
def Contains (r : Routine) (o : Occurrence) : Prop :=
  Occurrence.Holds ⟨.value .plain, r.function.body⟩ o

/-- An occurrence makes a routine be refused.  Nothing that is only a word does. -/
inductive Refuses (r : Routine) (stem : Text) : Occurrence → Construct → Span → Prop where
  /-- The name `eval`, also if it is a parameter or a global. -/
  | eval {role : Role} {s : Span} (hrole : role ≠ .word) :
    Refuses r stem ⟨role, .identifier s Word.eval⟩ .eval s
  /-- A global that is no parameter and looks like a generated name. -/
  | syntheticName {role : Role} {s : Span} {x : Text} (hrole : role ≠ .word)
      (heval : x ≠ Word.eval) (hparameter : x ∉ r.parameterNames) (hglobal : r.isGlobal x = true)
      (hshape : Namer.hasPrefixShape stem x = true ∨ Namer.propertyWord <+: x) :
    Refuses r stem ⟨role, .identifier s x⟩ (.syntheticName x) s
  /-- A `with` statement. -/
  | withObject {role : Role} {s : Span} {owner body : Node} (hrole : role ≠ .word) :
    Refuses r stem ⟨role, .withObject s owner body⟩ .withObject s
  /-- A `this` directly in a member access, but not as the object of an access by name. -/
  | computedThis {s : Span} : Refuses r stem ⟨.value .memberPart, .this s⟩ .computedThis s
  /-- A `this` anywhere else. -/
  | bareThis {role : Role} {s : Span} (hrole : role ≠ .word) (howner : role ≠ .owner)
      (hmember : role ≠ .value .memberPart) :
    Refuses r stem ⟨role, .this s⟩ .bareThis s

/-- What a routine is refused for first: a parameter called `eval`, and else the first occurrence of
the body, from left to right, that makes it be refused. -/
inductive FirstRefused (r : Routine) (stem : Text) : Construct → Span → Prop where
  | parameter {front back : List Parameter} {p : Parameter}
      (hparams : r.function.params = front ++ p :: back) (hp : p.name = Word.eval)
      (hfront : ∀ q ∈ front, q.name ≠ Word.eval) : FirstRefused r stem .eval p.span
  | body {front back : List Occurrence} {o : Occurrence} {construct : Construct} {span : Span}
      (hparams : Word.eval ∉ r.parameterNames)
      (hbody : r.function.body.occurrences = front ++ o :: back)
      (ho : r.Refuses stem o construct span)
      (hfront : ∀ q ∈ front, ∀ construct span, ¬r.Refuses stem q construct span) :
    FirstRefused r stem construct span

/-! ## Occurrences and their sites -/

theorem looksSynthetic_iff (stem x : Text) :
    (Namer.mk [] stem [] []).looksSynthetic x = true ↔
      Namer.hasPrefixShape stem x = true ∨ Namer.propertyWord <+: x := by
  rw [Namer.looksSynthetic, Bool.or_eq_true, List.isPrefixOf_iff_prefix]

theorem resolve_eq_ambient_iff {r : Routine} {x y : Text} :
    r.resolve x = .ambient y ↔ x ∉ r.parameterNames ∧ r.isGlobal x = true ∧ x = y := by
  rw [resolve]
  by_cases hparameter : x ∈ r.parameterNames
  · simp [hparameter]
  · by_cases hglobal : r.isGlobal x = true <;> simp [hparameter, hglobal]

/-- A name in the place of a variable is refused if it is `eval`, or if it is a global that looks
like a generated name. -/
theorem rejection?_variable {r : Routine} {stem x : Text} {s : Span} {u : Usage} {key : Option Text}
    {e : Failure} :
    r.rejection? stem (.variable s x u key) = some e ↔
      (x = Word.eval ∧ e = .rejected .eval s) ∨
      (x ≠ Word.eval ∧ x ∉ r.parameterNames ∧ r.isGlobal x = true ∧
        (Namer.hasPrefixShape stem x = true ∨ Namer.propertyWord <+: x) ∧
        e = .rejected (.syntheticName x) s) := by
  rw [rejection?, ← looksSynthetic_iff]
  by_cases heval : x = Word.eval
  · rw [if_pos heval, Option.some_inj, eq_comm]
    simp only [heval, true_and, ne_eq, not_true_eq_false, false_and, or_false]
  · rw [if_neg heval]
    cases hresolve : r.resolve x with
    | ambient y =>
      obtain ⟨hparameter, hglobal, rfl⟩ := resolve_eq_ambient_iff.1 hresolve
      by_cases hshape : (Namer.mk [] stem [] []).looksSynthetic x = true
      · simp only [heval, hparameter, hglobal, hshape, if_true, Option.some_inj]
        grind
      · simp [heval, hshape]
    | _ =>
      have hkept : ¬(x ∉ r.parameterNames ∧ r.isGlobal x = true) := by
        rintro ⟨hparameter, hglobal⟩
        rw [resolve_eq_ambient_iff.2 ⟨hparameter, hglobal, rfl⟩] at hresolve
        cases hresolve
      grind

/-- Why the routine is refused at an occurrence, if it is. -/
def refusal? (r : Routine) (stem : Text) (o : Occurrence) : Option Failure :=
  o.site?.bind (r.rejection? stem)

theorem refusal?_identifier (r : Routine) (stem : Text) {role : Role} (hrole : role ≠ .word)
    (s : Span) (x : Text) : ∃ u key,
      r.refusal? stem ⟨role, .identifier s x⟩ = r.rejection? stem (.variable s x u key) := by
  cases role
  case word => exact absurd rfl hrole
  case value p => exact ⟨p.usage, none, rfl⟩
  case owner => exact ⟨Position.memberPart.usage, none, rfl⟩
  case shorthand key => exact ⟨Position.plain.usage, some key.shorthandKey, rfl⟩

theorem refuses_of_refusal? {r : Routine} {stem : Text} {o : Occurrence} {e : Failure}
    (h : r.refusal? stem o = some e) :
    ∃ construct span, e = .rejected construct span ∧ r.Refuses stem o construct span := by
  obtain ⟨role, node⟩ := o
  by_cases hword : role = .word
  · subst hword
    cases h
  cases node
  case identifier s x =>
    obtain ⟨u, key, hvariable⟩ := r.refusal?_identifier stem hword s x
    rw [hvariable] at h
    rcases rejection?_variable.1 h with ⟨rfl, rfl⟩ | ⟨heval, hparameter, hglobal, hshape, rfl⟩
    · exact ⟨_, _, rfl, .eval hword⟩
    · exact ⟨_, _, rfl, .syntheticName hword heval hparameter hglobal hshape⟩
  case this s =>
    cases role
    case owner => cases h
    case word => exact absurd rfl hword
    case shorthand key =>
      obtain rfl := Option.some.inj h
      exact ⟨_, _, rfl, .bareThis hword (by simp) (by simp)⟩
    case value p =>
      obtain rfl := Option.some.inj h
      by_cases hp : p = .memberPart
      · subst hp
        exact ⟨_, _, rfl, .computedThis⟩
      · exact ⟨.bareThis, s, by simp [Role.position, hp],
          .bareThis hword (by simp) (by simpa using hp)⟩
  case withObject s owner body =>
    have hsite : r.refusal? stem ⟨role, .withObject s owner body⟩ =
        some (.rejected .withObject s) := by
      cases role
      case word => exact absurd rfl hword
      all_goals rfl
    obtain rfl := Option.some.inj (hsite.symm.trans h)
    exact ⟨_, _, rfl, .withObject hword⟩
  -- a string is written anew and a property gets a name; nothing else has a site
  case literal s value => cases role <;> cases value <;> cases h
  case member s computed owner key => cases role <;> cases computed <;> cases owner <;> cases h
  all_goals cases role <;> cases h

theorem refusal?_of_refuses {r : Routine} {stem : Text} {o : Occurrence} {construct : Construct}
    {span : Span} (h : r.Refuses stem o construct span) :
    r.refusal? stem o = some (.rejected construct span) := by
  cases h with
  | eval hrole =>
    obtain ⟨u, key, hvariable⟩ := r.refusal?_identifier stem hrole span Word.eval
    rw [hvariable]
    exact rejection?_variable.2 (.inl ⟨rfl, rfl⟩)
  | syntheticName hrole heval hparameter hglobal hshape =>
    obtain ⟨u, key, hvariable⟩ := r.refusal?_identifier stem hrole span _
    rw [hvariable]
    exact rejection?_variable.2 (.inr ⟨heval, hparameter, hglobal, hshape, rfl⟩)
  | @withObject role _ _ _ hrole =>
    cases role
    case word => exact absurd rfl hrole
    all_goals rfl
  | computedThis => rfl
  | @bareThis role _ hrole howner hmember =>
    cases role
    case word => exact absurd rfl hrole
    case owner => exact absurd rfl howner
    case shorthand => rfl
    case value p =>
      have hp : p ≠ .memberPart := fun hp => hmember (hp ▸ rfl)
      simp [refusal?, Occurrence.site?, rejection?, Role.position, hp]

theorem refusal?_eq_some_iff {r : Routine} {stem : Text} {o : Occurrence} {construct : Construct}
    {span : Span} :
    r.refusal? stem o = some (.rejected construct span) ↔ r.Refuses stem o construct span := by
  refine ⟨fun h => ?_, refusal?_of_refuses⟩
  obtain ⟨_, _, he, hrefuses⟩ := refuses_of_refusal? h
  cases he
  exact hrefuses

theorem refusal?_eq_none_iff {r : Routine} {stem : Text} {o : Occurrence} :
    r.refusal? stem o = none ↔ ∀ construct span, ¬r.Refuses stem o construct span := by
  refine ⟨fun h construct span hrefuses => ?_, fun h => ?_⟩
  · rw [refusal?_of_refuses hrefuses] at h
    cases h
  · cases hrefusal : r.refusal? stem o with
    | none => rfl
    | some e =>
      obtain ⟨construct, span, -, hrefuses⟩ := refuses_of_refusal? hrefusal
      exact absurd hrefuses (h construct span)

end Routine

/-! ## The walk -/

namespace Rewriter

theorem checkParameters_eq (ps : List Parameter) :
    checkParameters ps =
      match ps.find? fun p => p.name = Word.eval with
      | some p => .error (.rejected .eval p.span)
      | none => .ok () := by
  induction ps with
  | nil => rfl
  | cons p ps ih =>
    rw [checkParameters, ih, List.find?_cons]
    by_cases h : p.name = Word.eval <;> simp [h]

/-- **A walk fails exactly for the first site that is refused**, if every edit lies inside the
text. -/
theorem visitAll_eq_error_iff {r : Routine} {scope stem : Text} {w : Rewriter}
    (hw : w.Consistent r scope stem) {ss : List Site}
    (hwithin : ∀ e ∈ ss.filterMap (r.edit? scope), e.span.Within 0 r.function.text.length)
    {e : Failure} :
    (∃ w', visitAll r w ss = .error (e, w')) ↔ ss.findSome? (r.rejection? stem) = some e := by
  induction ss generalizing w with
  | nil => simp [visitAll]
  | cons s ss ih =>
    have hnoted := noted_consistent hw s
    obtain ⟨hfirst, hrest⟩ := (forall_mem_filterMap_cons (r.edit? scope) s ss).1 hwithin
    rw [visitAll, visit_eq hw, List.findSome?_cons]
    cases hrejected : r.rejection? stem s with
    | some e' => simp [eq_comm]
    | none =>
      have hrecord : (w.noted r s).record (r.edit? scope s) =
          .ok ((w.noted r s).recorded (r.edit? scope s)) :=
        record_eq_ok_iff.2 ⟨by rwa [hnoted.text_eq], rfl⟩
      simp only [hrecord]
      exact ih (recorded_consistent hnoted _) hrest

end Rewriter

namespace Routine

theorem mem_replacements_iff {r : Routine} {scope : Text} {e : Edit} :
    e ∈ r.replacements scope ↔
      ∃ o ∈ r.function.body.occurrences, ∃ s, o.site? = some s ∧ r.edit? scope s = some e := by
  rw [replacements, sites, List.filterMap_filterMap, List.mem_filterMap]
  simp only [Option.bind_eq_some_iff]

theorem mem_parameterNames_iff {r : Routine} {x : Text} :
    x ∈ r.parameterNames ↔ ∃ p ∈ r.function.params, p.name = x := List.mem_map

/-- What is refused first in a body whose parameters are accepted. -/
theorem findSome?_sites (r : Routine) (stem : Text) :
    r.sites.findSome? (r.rejection? stem) =
      r.function.body.occurrences.findSome? (r.refusal? stem) := by
  rw [sites]
  induction r.function.body.occurrences with
  | nil => rfl
  | cons o os ih =>
    rw [List.filterMap_cons, List.findSome?_cons, ← ih, refusal?]
    cases o.site? <;> rfl

theorem firstRefused_iff_of_accepted {r : Routine} {stem : Text}
    (hparams : Word.eval ∉ r.parameterNames) {construct : Construct} {span : Span} :
    r.FirstRefused stem construct span ↔
      r.sites.findSome? (r.rejection? stem) = some (.rejected construct span) := by
  rw [findSome?_sites, List.findSome?_eq_some_iff]
  simp only [refusal?_eq_some_iff, refusal?_eq_none_iff]
  constructor
  · rintro (⟨hp, hname, -⟩ | ⟨-, hbody, ho, hfront⟩)
    · exact absurd (mem_parameterNames_iff.2 ⟨_, by simp [hp], hname⟩) hparams
    · exact ⟨_, _, _, hbody, ho, hfront⟩
  · rintro ⟨front, o, back, hbody, ho, hfront⟩
    exact .body hparams hbody ho hfront

theorem firstRefused_iff_of_parameter {r : Routine} {stem : Text} {p : Parameter}
    (hp : r.function.params.find? (fun p => p.name = Word.eval) = some p) {construct : Construct}
    {span : Span} :
    r.FirstRefused stem construct span ↔ construct = .eval ∧ span = p.span := by
  obtain ⟨hname, front, back, hparams, hfront⟩ := List.find?_eq_some_iff_append.1 hp
  have hmem : Word.eval ∈ r.parameterNames :=
    mem_parameterNames_iff.2 ⟨p, by simp [hparams], by simpa using hname⟩
  constructor
  · rintro (⟨hparams', hname', hfront'⟩ | ⟨hnone, -, -, -⟩)
    · have hp' : r.function.params.find? (fun p => p.name = Word.eval) = some _ :=
        List.find?_eq_some_iff_append.2
          ⟨by simpa using hname', _, _, hparams', fun q hq => by simpa using hfront' q hq⟩
      exact ⟨rfl, congrArg Parameter.span (Option.some.inj (hp'.symm.trans hp))⟩
    · exact absurd hmem hnone
  · rintro ⟨rfl, rfl⟩
    exact .parameter hparams (by simpa using hname) fun q hq => by simpa using hfront q hq

theorem newBody_eq_of_parameter {r : Routine} (scope stem : Text) {p : Parameter}
    (hp : r.function.params.find? (fun p => p.name = Word.eval) = some p) :
    r.newBody scope stem = .error (.rejected .eval p.span) := by
  rw [newBody, Rewriter.ofAnchored?, Rewriter.checkParameters_eq, hp]

/-- **A body that is refused fails for what is refused first**, if its edits lie inside the text.
Its only other failures are those of putting the edits together. -/
theorem newBody_eq_error_iff {r : Routine} {scope stem : Text}
    (hparams : Word.eval ∉ r.parameterNames)
    (hwithin : ∀ e ∈ r.replacements scope, e.span.Within 0 r.function.text.length)
    {e : Failure} (he : ∀ cause, e ≠ .edit cause) :
    r.newBody scope stem = .error e ↔ r.sites.findSome? (r.rejection? stem) = some e := by
  obtain ⟨w, hw⟩ := Rewriter.ofAnchored?_eq_ok { scope, stem } hparams
  have hconsistent : w.Consistent r scope stem := Rewriter.ofAnchored?_consistent hw
  rw [← Rewriter.visitAll_eq_error_iff hconsistent hwithin, newBody, hw]
  simp only [Rewriter.rewrite_eq]
  cases hwalk : Rewriter.visitAll r w r.sites with
  | error failure =>
    obtain ⟨e', w'⟩ := failure
    constructor
    · intro h
      obtain rfl : e' = e := by simpa using h
      exact ⟨w', rfl⟩
    · rintro ⟨w'', h⟩
      simp_all
  | ok w' =>
    refine ⟨fun h => ?_, fun ⟨_, h⟩ => absurd h (by simp)⟩
    simp only [Rewriter.bodyText] at h
    split at h
    · exact absurd (Except.error.inj h).symm (he _)
    · cases h

/-- **A routine is refused exactly if something in it cannot be flattened, and for what comes
first.**  Of the tree it is asked only that the spans of its nodes lie inside the text. -/
theorem newBody_rejected_iff (r : Routine) (scope stem : Text)
    (hspans : ∀ o, r.Contains o → ∀ s ∈ o.node.span?, s.Within 0 r.function.text.length) :
    ((∃ e, r.newBody scope stem = .error e ∧ e.kind = .unsupported) ↔
      Word.eval ∈ r.parameterNames ∨
        ∃ o construct span, r.Contains o ∧ r.Refuses stem o construct span) ∧
    ∀ construct span, r.newBody scope stem = .error (.rejected construct span) ↔
      r.FirstRefused stem construct span := by
  have hwithin : ∀ e ∈ r.replacements scope, e.span.Within 0 r.function.text.length := by
    intro e he
    obtain ⟨o, ho, s, hsite, hedit⟩ := mem_replacements_iff.1 he
    rw [span_of_edit? hedit]
    exact hspans o (Occurrence.mem_below_iff.1 ho) _ (Occurrence.span?_of_site? hsite)
  cases hp : r.function.params.find? (fun p => p.name = Word.eval) with
  | some p =>
    have hmem : Word.eval ∈ r.parameterNames :=
      mem_parameterNames_iff.2 ⟨p, List.mem_of_find?_eq_some hp,
        by simpa using List.find?_some hp⟩
    refine ⟨⟨fun _ => .inl hmem, fun _ => ⟨_, newBody_eq_of_parameter scope stem hp, rfl⟩⟩, ?_⟩
    intro construct span
    rw [newBody_eq_of_parameter scope stem hp, firstRefused_iff_of_parameter hp]
    simp [eq_comm]
  | none =>
    have hparams : Word.eval ∉ r.parameterNames := by
      rw [mem_parameterNames_iff]
      rintro ⟨p, hmem, hname⟩
      exact absurd hname (by simpa using List.find?_eq_none.1 hp p hmem)
    refine ⟨⟨?_, ?_⟩, fun construct span => ?_⟩
    · rintro ⟨e, he, hkind⟩
      have hsites := (newBody_eq_error_iff hparams hwithin (by rintro cause rfl; cases hkind)).1 he
      rw [findSome?_sites] at hsites
      obtain ⟨o, ho, hrefusal⟩ := List.exists_of_findSome?_eq_some hsites
      obtain ⟨construct, span, -, hrefuses⟩ := refuses_of_refusal? hrefusal
      exact .inr ⟨o, construct, span, Occurrence.mem_below_iff.1 ho, hrefuses⟩
    · rintro (hmem | ⟨o, construct, span, ho, hrefuses⟩)
      · exact absurd hmem hparams
      · have hsome : (r.sites.findSome? (r.rejection? stem)).isSome := by
          rw [findSome?_sites, List.findSome?_isSome_iff]
          exact ⟨o, Occurrence.mem_below_iff.2 ho, by rw [refusal?_of_refuses hrefuses]; rfl⟩
        obtain ⟨e, he⟩ := Option.isSome_iff_exists.1 hsome
        obtain ⟨o', -, hrefusal⟩ := List.exists_of_findSome?_eq_some (findSome?_sites r stem ▸ he)
        obtain ⟨construct, span, rfl, -⟩ := refuses_of_refusal? hrefusal
        exact ⟨_, (newBody_eq_error_iff hparams hwithin (by simp)).2 he, rfl⟩
    · rw [firstRefused_iff_of_accepted hparams]
      exact newBody_eq_error_iff hparams hwithin (by simp)

/-- The routine `a => a.eval + this[a] + eval`, written without blanks. -/
def computedRoutine : Routine where
  function :=
    { text := .ofChars ['(', 'a', '=', '>', 'a', '.', 'e', 'v', 'a', 'l', '+', 't', 'h', 'i', 's',
        '[', 'a', ']', '+', 'e', 'v', 'a', 'l', ')', '(', ')']
      isArrow := true
      span := ⟨1, 23⟩
      params := [⟨.ofChars ['a'], ⟨1, 2⟩⟩]
      body := .binary ⟨4, 23⟩ .plus
        (.binary ⟨4, 18⟩ .plus
          (.member ⟨4, 10⟩ false (.identifier ⟨4, 5⟩ (.ofChars ['a']))
            (.identifier ⟨6, 10⟩ Word.eval))
          (.member ⟨11, 18⟩ true (.this ⟨11, 15⟩) (.identifier ⟨16, 17⟩ (.ofChars ['a']))))
        (.identifier ⟨19, 23⟩ Word.eval)
      bodySpan := ⟨4, 23⟩ }
  isGlobal _ := false

/-- The property `eval` is accepted, and the `this` comes before the variable `eval`. -/
theorem newBody_computedRoutine :
    (∀ o, computedRoutine.Contains o → ∀ s ∈ o.node.span?, s.Within 0 26) ∧
    (∃ o construct span, computedRoutine.Contains o ∧
      computedRoutine.Refuses (.ofChars ['k', '_']) o construct span) ∧
    computedRoutine.FirstRefused (.ofChars ['k', '_']) .computedThis ⟨11, 15⟩ := by
  have hspans : ∀ o, computedRoutine.Contains o → ∀ s ∈ o.node.span?, s.Within 0 26 := by
    have hall : ∀ o ∈ computedRoutine.function.body.occurrences,
        ∀ s ∈ o.node.span?, s.Within 0 26 := by decide +kernel
    exact fun o ho => hall o (Occurrence.mem_below_iff.2 ho)
  have hbody : computedRoutine.newBody (.ofChars ['k', '_', '7', '_']) (.ofChars ['k', '_']) =
      .error (.rejected .computedThis ⟨11, 15⟩) := rfl
  obtain ⟨hexists, hfirst⟩ := newBody_rejected_iff computedRoutine (.ofChars ['k', '_', '7', '_'])
    (.ofChars ['k', '_']) hspans
  exact ⟨hspans, (hexists.1 ⟨_, hbody, rfl⟩).resolve_left (by decide), (hfirst _ _).1 hbody⟩

end Routine
end Elementwise
