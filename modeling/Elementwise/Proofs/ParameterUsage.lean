import Elementwise.Proofs.WrittenParameter

/-!
# The usage of parameters

Behind a walk there is one usage for every declared parameter.  The usage of the first parameter of
a name counts all variables of that name in the body, those in inner functions, patterns and labels
included, and says whether they are written and read.  A later parameter of the same name is never
used.

## What is here

* `Occurrence.isVariable` — the occurrences of a variable; `Routine.usages_eq` lists how they use
  it.
* `Occurrence.plainTarget_mem_inside_iff` — what stands on the left side of a plain assignment.
* `Rewriter.getElem?_after_arguments_of_repeated` — a repeated parameter is left alone.
* `Rewriter.rewrite_arguments` — the usages behind a successful walk.
-/

set_option autoImplicit false
namespace Elementwise

/-! ## Variables of a name -/

namespace Occurrence

/-- Whether an occurrence is a variable of a given name. -/
def isVariable (x : Text) : Occurrence → Bool
  | ⟨.word, _⟩ => false
  | ⟨_, .identifier _ y⟩ => y = x
  | _ => false

/-- Whether an occurrence is the left side of a plain assignment. -/
def isPlainTarget (o : Occurrence) : Bool :=
  match o.role with
  | .value (.target none) => true
  | _ => false

theorem isPlainTarget_iff {o : Occurrence} :
    o.isPlainTarget = true ↔ o.role = .value (.target none) := by
  unfold isPlainTarget
  split <;> simp_all

/-- Only the left side of a plain assignment is only written. -/
theorem isRead_usage_iff (o : Occurrence) :
    o.role.position.usage.isRead = true ↔ o.isPlainTarget = false := by
  obtain ⟨role, node⟩ := o
  cases role with
  | value p =>
    cases p with
    | target op => cases op <;> simp [isPlainTarget, Role.position, Position.usage]
    | updated | memberPart | plain => simp [isPlainTarget, Role.position, Position.usage]
  | owner | shorthand key | word => simp [isPlainTarget, Role.position, Position.usage]

/-- **The left side of a plain assignment** is what stands there directly. -/
theorem plainTarget_mem_inside_iff {o : Occurrence} {n : Node} :
    ⟨.value (.target none), n⟩ ∈ o.inside ↔
      o.role ≠ .word ∧ ∃ s right, o.node = .assignment s none n right := by
  constructor
  · intro h
    unfold inside at h
    split at h
    case h_1 => exact absurd h List.not_mem_nil
    case h_8 role node hword _ _ _ _ _ _ =>
      obtain ⟨part, hpart, hc⟩ := List.mem_map.1 h
      obtain ⟨hrole, rfl⟩ := Occurrence.mk.inj hc
      have hposition := Role.value.inj hrole
      rcases Node.of_mem_parts hpart (by rw [hposition]; rfl) with
        ⟨s, right, op, rfl, hop⟩ | ⟨-, hupdated⟩
      · rw [hposition] at hop
        cases hop
        exact ⟨hword, s, right, rfl⟩
      · rw [hposition] at hupdated
        cases hupdated
    all_goals
      simp only [List.mem_cons, List.not_mem_nil, or_false, Occurrence.mk.injEq] at h
      grind [Node.targetRole_eq, Node.keyRole_eq]
  · obtain ⟨role, node⟩ := o
    rintro ⟨hword, s, right, rfl⟩
    cases role
    case word => exact absurd rfl hword
    all_goals exact List.mem_cons_self

/-- How an occurrence uses a name. -/
theorem usage?_site? (x : Text) (o : Occurrence) :
    o.site?.bind (Site.usage? x) =
      if o.isVariable x then some o.role.position.usage else none := by
  obtain ⟨role, node⟩ := o
  cases node
  case identifier s y => cases role <;> simp [site?, Site.usage?, isVariable]
  case literal _ value => cases role <;> cases value <;> rfl
  case member _ computed owner _ => cases role <;> cases computed <;> cases owner <;> rfl
  all_goals cases role <;> rfl

end Occurrence

namespace Routine

/-- **The usages of a name are those of its variables.** -/
theorem usages_eq (r : Routine) (x : Text) :
    r.usages x =
      (r.function.body.occurrences.filter (·.isVariable x)).map fun o => o.role.position.usage := by
  rw [usages, sites, List.filterMap_filterMap]
  simp only [Occurrence.usage?_site?]
  induction r.function.body.occurrences with
  | nil => rfl
  | cons o os ih =>
    rw [List.filterMap_cons, List.filter_cons, ih]
    by_cases h : o.isVariable x = true <;> simp [h]

theorem length_usages (r : Routine) (x : Text) :
    (r.usages x).length = r.function.body.occurrences.countP (·.isVariable x) := by
  rw [usages_eq, List.length_map, List.countP_eq_length_filter]

/-- A variable is read if it is anything but the left side of a plain assignment somewhere. -/
theorem exists_read_iff (r : Routine) (x : Text) :
    (r.usages x).any Usage.isRead = true ↔
      ∃ o ∈ r.function.body.occurrences, o.isVariable x = true ∧ o.isPlainTarget = false := by
  rw [usages_eq, List.any_map, List.any_eq_true]
  simp only [List.mem_filter, Function.comp, Occurrence.isRead_usage_iff, and_assoc]

end Routine

/-! ## Repeated parameters -/

namespace Routine

/-- The first position of a name is not behind any other one. -/
theorem idxOf_parameterNames_le {r : Routine} {x : Text} {i : Nat}
    (h : r.parameterNames[i]? = some x) : r.parameterNames.idxOf x ≤ i := by
  have htake : x ∈ r.parameterNames.take (i + 1) :=
    List.mem_of_getElem? (i := i) (by rw [List.getElem?_take_of_succ, h])
  exact Nat.le_of_lt_succ ((List.mem_take_iff_idxOf_lt (List.mem_of_getElem? h)).1 htake)

end Routine

namespace Rewriter

/-- Nothing is noted at a position that is not the first one of a name. -/
theorem getElem?_noted_arguments_of_repeated {r : Routine} {i : Nat}
    (hi : ∀ x ∈ r.parameterNames, r.parameterNames.idxOf x ≠ i) (w : Rewriter) (s : Site) :
    (w.noted r s).arguments[i]? = w.arguments[i]? := by
  match s with
  | .variable span x u key =>
    rw [noted]
    by_cases hx : x ∈ r.parameterNames
    · have hresolve : r.resolve x = .parameter x := by rw [Routine.resolve, if_pos hx]
      simp only [hresolve]
      exact List.getElem?_modify_ne _ _ (hi x hx)
    · by_cases hglobal : r.isGlobal x = true <;> simp [Routine.resolve, hx, hglobal]
  | .thisProperty .. | .string .. | .this .. | .withObject .. => rfl

/-- **A repeated parameter is left alone.** -/
theorem getElem?_after_arguments_of_repeated {r : Routine} {i : Nat}
    (hi : ∀ x ∈ r.parameterNames, r.parameterNames.idxOf x ≠ i) (scope : Text) (w : Rewriter)
    (ss : List Site) : (w.after r scope ss).arguments[i]? = w.arguments[i]? := by
  induction ss generalizing w with
  | nil => rfl
  | cons s ss ih =>
    have hstep : w.after r scope (s :: ss) =
        ((w.noted r s).recorded (r.edit? scope s)).after r scope ss := rfl
    rw [hstep, ih]
    exact getElem?_noted_arguments_of_repeated hi w s

/-- **The usages behind a successful walk**: there is one for every parameter, in their order.  That
of the first parameter of a name counts the variables of the name in the body; it is written if
something assigns to the name itself, and read if one of these variables is anything but the left
side of a plain assignment.  That of a later parameter of a name stays as it was in the
beginning. -/
theorem rewrite_arguments {r : Routine} {scope stem body : Text} {w w' : Rewriter}
    (hw : ofAnchored? r.function { scope, stem } = .ok w) (h : rewrite r w = (.ok body, w')) :
    w'.arguments.map ArgumentUsage.name =
      (List.range r.function.params.length).map (fun (i : Nat) =>
        (Namer.mk scope stem [] []).argument i) ∧
    ∀ (i : Nat) (p : Parameter), r.function.params[i]? = some p →
      ∃ a, w'.arguments[i]? = some a ∧
        ((∀ j < i, ∀ q ∈ r.function.params[j]?, q.name ≠ p.name) →
          a.count = r.function.body.occurrences.countP (·.isVariable p.name) ∧
          (a.isWritten = true ↔ ∃ o ∈ r.function.body.occurrences, o.Assigns p.name) ∧
          (a.isRead = true ↔ ∃ o ∈ r.function.body.occurrences,
            o.isVariable p.name = true ∧ o.isPlainTarget = false)) ∧
        ((∃ j < i, ∃ q ∈ r.function.params[j]?, q.name = p.name) →
          a.count = 0 ∧ a.isWritten = false ∧ a.isRead = false) := by
  have hconsistent : w.Consistent r scope stem := ofAnchored?_consistent hw
  obtain ⟨-, rfl⟩ := rewrite_ok hconsistent h
  refine ⟨(after_consistent hconsistent _).names, fun i p hp => ?_⟩
  obtain ⟨hi, hname⟩ := List.getElem?_eq_some_iff.1 hp
  have hnames : r.parameterNames[i]? = some p.name := by
    rw [Routine.parameterNames, List.getElem?_map, hp]
    rfl
  have hfresh := ofAnchored?_arguments hw hi
  have hlookup : ∀ j < i, r.parameterNames[j]? = (r.function.params[j]?).map Parameter.name :=
    fun j _ => by rw [Routine.parameterNames, List.getElem?_map]
  by_cases hfirst : r.parameterNames.idxOf p.name = i
  · -- the first parameter of its name: no earlier one has it, and the walk gathers its usages
    have hmem : p.name ∈ r.parameterNames := List.mem_of_getElem? hnames
    have husage := getElem?_after_arguments hmem scope w r.sites
    rw [hfirst, hfresh, Option.map_some, ArgumentUsage.recordAll_eq] at husage
    refine ⟨_, husage, fun _ => ⟨?_, ?_, ?_⟩, ?_⟩
    · exact (Nat.zero_add _).trans (r.length_usages p.name)
    · rw [← r.exists_write_iff p.name]
      rfl
    · rw [← r.exists_read_iff p.name]
      rfl
    · rintro ⟨j, hj, q, hq, hqp⟩
      have hearlier : r.parameterNames[j]? = some p.name := by
        rw [hlookup j hj, hq, Option.map_some, hqp]
      exact absurd (Routine.idxOf_parameterNames_le hearlier) (by omega)
  · -- a later one: the walk never comes to its position
    have hmem : p.name ∈ r.parameterNames := List.mem_of_getElem? hnames
    have hi' : ∀ x ∈ r.parameterNames, r.parameterNames.idxOf x ≠ i := by
      rintro x hx rfl
      rw [List.getElem?_idxOf hx] at hnames
      exact hfirst (by rw [Option.some.inj hnames])
    refine ⟨_, (getElem?_after_arguments_of_repeated hi' scope w r.sites).trans hfresh,
      fun hnone => ?_, fun _ => ⟨rfl, rfl, rfl⟩⟩
    have hlt : r.parameterNames.idxOf p.name < i :=
      lt_of_le_of_ne (Routine.idxOf_parameterNames_le hnames) hfirst
    have hearlier := List.getElem?_idxOf hmem
    rw [hlookup _ hlt] at hearlier
    obtain ⟨q, hq, hqp⟩ := Option.map_eq_some_iff.1 hearlier
    exact absurd hqp (hnone _ hlt q hq)

/-- The function `function(x,y,x){x=y++}`, the last parameter of which is never used. -/
def repeatingRoutine : Routine where
  function :=
    { text := .ofChars ['(', 'f', 'u', 'n', 'c', 't', 'i', 'o', 'n', '(', 'x', ',', 'y', ',', 'x',
        ')', '{', 'x', '=', 'y', '+', '+', '}', ')', '(', ')']
      isArrow := false
      span := ⟨1, 23⟩
      params := [⟨.ofChars ['x'], ⟨10, 11⟩⟩, ⟨.ofChars ['y'], ⟨12, 13⟩⟩, ⟨.ofChars ['x'], ⟨14, 15⟩⟩]
      body := .block ⟨16, 23⟩ [.expression ⟨17, 22⟩
        (.assignment ⟨17, 22⟩ none (.identifier ⟨17, 18⟩ (.ofChars ['x']))
          (.update ⟨19, 22⟩ .increment false (.identifier ⟨19, 20⟩ (.ofChars ['y'])))) none]
      bodySpan := ⟨16, 23⟩ }
  isGlobal _ := false

theorem rewrite_arguments_repeatingRoutine :
    ∃ w w' body, ofAnchored? repeatingRoutine.function
        ⟨.ofChars ['k', '_', '7', '_'], .ofChars ['k', '_'], [], []⟩ = .ok w ∧
      rewrite repeatingRoutine w = (.ok body, w') ∧
      ∃ a b c, w'.arguments[0]? = some a ∧ w'.arguments[1]? = some b ∧ w'.arguments[2]? = some c ∧
        (a.count = 1 ∧ a.isRead = false) ∧ (b.count = 1 ∧ b.isRead = true) ∧
        (c.count = 0 ∧ c.isWritten = false ∧ c.isRead = false) := by
  obtain ⟨w, hw⟩ : ∃ w, ofAnchored? repeatingRoutine.function
      ⟨.ofChars ['k', '_', '7', '_'], .ofChars ['k', '_'], [], []⟩ = .ok w := ⟨_, rfl⟩
  have hsome : (rewrite repeatingRoutine w).1.toOption.isSome = true := by
    obtain rfl := Except.ok.inj hw
    decide +kernel
  obtain ⟨body, w', h⟩ : ∃ body w', rewrite repeatingRoutine w = (.ok body, w') := by
    match hresult : rewrite repeatingRoutine w with
    | (.ok body, w') => exact ⟨body, w', rfl⟩
    | (.error e, w') => simp [hresult, Except.toOption] at hsome
  obtain ⟨-, husage⟩ := rewrite_arguments hw h
  obtain ⟨a, ha, hfirst, -⟩ := husage 0 _ rfl
  obtain ⟨b, hb, hsecond, -⟩ := husage 1 _ rfl
  obtain ⟨c, hc, -, hrepeated⟩ := husage 2 _ rfl
  obtain ⟨hacount, -, haread⟩ := hfirst (by simp)
  obtain ⟨hbcount, -, hbread⟩ := hsecond (by decide +kernel)
  refine ⟨w, w', body, hw, h, a, b, c, ha, hb, hc, ⟨hacount.trans (by decide +kernel), ?_⟩,
    ⟨hbcount.trans (by decide +kernel), hbread.2 (by decide +kernel)⟩,
    hrepeated ⟨0, by decide, _, rfl, rfl⟩⟩
  exact Bool.eq_false_iff.2 (mt haread.1 (by decide +kernel))

end Rewriter
end Elementwise
