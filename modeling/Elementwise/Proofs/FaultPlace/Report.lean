import Mathlib.Data.List.TakeWhile
import Elementwise.Proofs.FaultPlace.Statement
import Elementwise.Proofs.SingleFunction

/-!
# What is reported of a source that does not parse

A source is parsed in parentheses, so everything on its first line stands one column further to the
right than in the source itself.  The offset that is reported allows for this and the column does
not: on the first line the two name different characters, and only on later lines the same one.

## What is here

* `Text.columnAt` — the column of an offset in a text.
* `Anchor.lineEnds_wrap`, `Anchor.lineAt_wrap`, `Anchor.startsLine_wrap` — the lines of a source are
  those of the text that is parsed, the first of them with a parenthesis in front of it.
* `Anchor.anchor_eq_unparsable` — a fault that is reported is one of the parser.
* `anchor_reports` — what the details of a source that does not parse say about the source.
* `anchor_fault_of_one_line` — the wrong column of every source that is one line.
-/

set_option autoImplicit false
namespace Elementwise

/-! ## The lines of a source -/

namespace Text

variable {c : CodePoint} {t u : Text}

theorem endsLine_append (hu : u.head? ≠ some (.scalar '\n')) :
    EndsLine c (t ++ u) ↔ EndsLine c t := by
  cases t with
  | nil =>
    have hpair : ¬Separator.BeginsPair c u := fun h => hu h.2
    have hnil : ¬Separator.BeginsPair c [] := fun h => by cases h.2
    exact and_congr_right' (iff_of_true hpair hnil)
  | cons d t => exact Iff.rfl

theorem lineEnds_append (hu : u.head? ≠ some (.scalar '\n')) :
    lineEnds (t ++ u) = t.lineEnds + u.lineEnds := by
  induction t with
  | nil => exact (Nat.zero_add _).symm
  | cons c t ih =>
    rw [List.cons_append, lineEnds, lineEnds, ih]
    simp only [endsLine_append hu]
    split <;> omega

/-- What is put behind a text ends none of its lines if it has no line ends of its own. -/
theorem lineEnds_append_inLine (hu : ∀ c ∈ u, c.isLineTerminator = false) :
    lineEnds (t ++ u) = t.lineEnds := by
  have hnone : lineEnds (u ++ []) = 0 := lineEnds_append_of_inLine [] hu
  rw [List.append_nil] at hnone
  rw [lineEnds_append, hnone, Nat.add_zero]
  intro hhead
  cases hu _ (List.mem_of_head? hhead)

theorem lineAt_zero (t : Text) : t.lineAt 0 = 1 := by
  rw [lineAt, List.drop_zero, Nat.sub_self]

/-- A text without line ends is one line. -/
theorem StartsLine.eq_zero {k : Nat} (h : t.StartsLine k) (ht : t.lineEnds = 0) : k = 0 := by
  obtain hzero | ⟨c, u, hsuffix, hends, -⟩ := h
  · exact hzero
  · have hle := lineEnds_le_of_suffix hsuffix
    rw [lineEnds, if_pos hends] at hle
    omega

theorem isLineTerminator_of_lineEnds_eq_zero (h : t.lineEnds = 0) :
    ∀ c ∈ t, c.isLineTerminator = false := by
  induction t with
  | nil => simp
  | cons c t ih =>
    have hrest : lineEnds t = 0 := Nat.le_zero.1 (h ▸ lineEnds_le_cons c t)
    have hends : ¬EndsLine c t := fun hends => by
      rw [lineEnds, if_pos hends] at h
      omega
    refine List.forall_mem_cons.2 ⟨?_, ih hrest⟩
    by_contra hc
    refine hends (endsLine_of_forall (by simpa using hc) fun u _ ht => ?_)
    have := ih hrest '\n' (by simp [ht])
    cases this

/-- The column of an offset: how far it is from the start of its line, counted from one on. -/
def columnAt (t : Text) (i : Nat) : Nat :=
  1 + ((t.take i).reverse.takeWhile fun c => !c.isLineTerminator).length

theorem columnAt_of_lineEnds_eq_zero {i : Nat} (h : t.lineEnds = 0) (hi : i ≤ t.length) :
    t.columnAt i = 1 + i := by
  have hall : ∀ c ∈ (t.take i).reverse, (!c.isLineTerminator) = true := fun c hc => by
    simp [isLineTerminator_of_lineEnds_eq_zero h c (List.mem_of_mem_take (List.mem_reverse.1 hc))]
  rw [columnAt, List.takeWhile_eq_self_iff.2 hall, List.length_reverse, List.length_take_of_le hi]

end Text

namespace Anchor

theorem inLine_callSuffix : ∀ c ∈ callSuffix, c.isLineTerminator = false := by decide

theorem lineEnds_wrap (source : Text) : (wrap source).lineEnds = source.lineEnds := by
  rw [wrap_eq, Text.lineEnds_cons_of_inLine rfl, Text.lineEnds_append_inLine inLine_callSuffix]

/-- In the text that is parsed the line of an offset is that of the offset before it in the source;
the parenthesis in front of the source stands on the first line. -/
theorem lineAt_wrap (source : Text) (i : Nat) : (wrap source).lineAt i = source.lineAt (i - 1) := by
  cases i with
  | zero => rw [Text.lineAt_zero, Text.lineAt_zero]
  | succ i =>
    have hsuffix : ∀ c ∈ callSuffix.drop (i - source.length), c.isLineTerminator = false :=
      fun c hc => inLine_callSuffix c (List.mem_of_mem_drop hc)
    rw [Text.lineAt, Text.lineAt, lineEnds_wrap, wrap_eq, List.drop_succ_cons, List.drop_append,
      Text.lineEnds_append_inLine hsuffix, Nat.add_sub_cancel]

/-- A line of the source starts one offset later if the source stands in parentheses, except for the
first one. -/
theorem startsLine_wrap {source : Text} {k : Nat} (h : (wrap source).StartsLine k) :
    k = 0 ∨ ∃ j, k = j + 1 ∧ 0 < j ∧ source.StartsLine j := by
  obtain hzero | ⟨c, t, ⟨v, hv⟩, hends, hlength⟩ := h
  · exact .inl hzero
  have hline : c.isLineTerminator = true := hends.1
  rw [length_wrap] at hlength
  rw [wrap_eq] at hv
  cases v with
  | nil =>
    -- the parenthesis in front of the source ends no line
    cases hv
    cases hline
  | cons b v =>
    obtain ⟨u, hu, hrest⟩ | ⟨u, hu, hrest⟩ := List.append_eq_append_iff.1 (List.cons.inj hv).2
    · cases u with
      | nil =>
        cases hrest
        cases hline
      | cons d u =>
        have hhead : c = d := (List.cons.inj hrest).1
        have htail : t = u ++ callSuffix := (List.cons.inj hrest).2
        subst hhead htail
        rw [Text.endsLine_append (by decide)] at hends
        have hsource : source.length = v.length + (u.length + 1) := by rw [hu]; simp
        rw [List.length_append] at hlength
        have hsuffix : callSuffix.length = 3 := rfl
        exact .inr ⟨k - 1, by omega, by omega, .inr ⟨c, u, ⟨v, hu.symm⟩, hends, by omega⟩⟩
    · have hmem : c ∈ callSuffix := by simp [hrest]
      have hnone : ∀ d ∈ callSuffix, d.isLineTerminator = false := by decide
      exact absurd hline (by simp [hnone c hmem])

/-! ## What is not a fault -/

section Unparsable

variable {text : Text} {nodes statements : List Node} {node : Node} {error : ParseError}

theorem callee_ne_unparsable : callee statements ≠ .error (.unparsable error) := by
  intro h
  unfold callee at h
  split at h
  · split at h <;> cases h
  · cases h

theorem span_ne_unparsable : node.span ≠ .error (.unparsable error) := by
  intro h
  unfold Node.span at h
  split at h <;> cases h

theorem parameters_ne_unparsable : parameters nodes ≠ .error (.unparsable error) := by
  intro h
  fun_induction parameters nodes
  case case1 => cases h
  case case2 => cases h
  case case3 hrest ih =>
    cases h
    exact ih hrest
  case case4 => cases h
  case case5 hspan =>
    cases h
    exact span_ne_unparsable hspan

theorem function_ne_unparsable {isArrow isAsync isGenerator : Bool} {span : Span} {body : Node} :
    function text isArrow isAsync isGenerator span nodes body ≠ .error (.unparsable error) := by
  intro h
  unfold function at h
  split at h
  · cases h
  split at h
  · next hparameters =>
    cases h
    exact parameters_ne_unparsable hparameters
  split at h
  · next hspan =>
    cases h
    exact span_ne_unparsable hspan
  · cases h

/-- A text in which no function is found has no fault if it parses. -/
theorem locate_ne_unparsable : locate text statements ≠ .error (.unparsable error) := by
  intro h
  unfold locate at h
  split at h
  · next hcallee =>
    cases h
    exact callee_ne_unparsable hcallee
  · exact function_ne_unparsable h
  · exact function_ne_unparsable h
  · cases h

end Unparsable

/-! ## Reported places -/

/-- What a source is refused for by the parser, if it is. -/
def fault? (source : Text) : Option ParseError :=
  match parseScript (wrap source) with
  | .ok _ => none
  | .error error => some error

variable {source : Text} {error : ParseError}

theorem fault?_eq_some : fault? source = some error ↔ parseScript (wrap source) = .error error := by
  constructor
  · intro h
    unfold fault? at h
    split at h
    · cases h
    · next hparse =>
      cases h
      exact hparse
  · intro h
    unfold fault?
    rw [h]

/-- What is reported as a fault of a source is what the parser refuses it for. -/
theorem anchor_eq_unparsable :
    anchor source = .error (.unparsable error) ↔ fault? source = some error := by
  constructor
  · intro h
    unfold anchor at h
    dsimp only at h
    split at h
    · exact absurd h locate_ne_unparsable
    · next hparse =>
      cases h
      exact fault?_eq_some.2 hparse
  · intro h
    unfold anchor
    dsimp only
    rw [fault?_eq_some.1 h]

end Anchor

/-- Where a source is refused: at most behind what follows it when it is called, and on a line that
is not in front of the character before the offset.  The column counts from the start of a line, but
from the parenthesis in front of the source on the first one.  That is the line of the fault, or
else this is the line of the offset or of a later one. -/
theorem anchor_fault {source : Text} {index line : Nat} {column : Int} {cause : Fault}
    (h : anchor source = .error (.unparsable (.fault index line column cause))) :
    index ≤ source.length + 4 ∧ (1 ≤ line ∧ line ≤ 1 + source.lineEnds) ∧
      source.lineAt (index - 2) ≤ line ∧
      ∃ k, source.StartsLine k ∧ column = (index : Int) - k + (if k = 0 then 1 else 0) ∧
        (line = source.lineAt k ∨ ∃ i, index - 1 ≤ i ∧ line = source.lineAt i) := by
  have hlast : (Anchor.wrap source).getLast? ≠ some (.scalar '\\') := by
    simp [Anchor.wrap_eq, Anchor.callSuffix, Text.ofChars, List.getLast?_cons]
  have hnonempty : Anchor.wrap source ≠ [] := List.cons_ne_nil _ _
  have hparse := Anchor.fault?_eq_some.1 (Anchor.anchor_eq_unparsable.1 h)
  obtain ⟨hindex, hbefore, k, hstarts, hcolumn, hline⟩ :=
    Parse.parseScript_liesIn hnonempty hlast hparse
  rw [Anchor.length_wrap] at hindex
  simp only [Anchor.lineAt_wrap] at hbefore hline
  have hlines : 1 ≤ line ∧ line ≤ 1 + source.lineEnds := by
    rcases hline with rfl | ⟨i, -, rfl⟩ <;> exact ⟨Text.lineAt_pos _ _, Text.lineAt_le _ _⟩
  have hline : line = source.lineAt (k - 1) ∨ ∃ i, index - 1 ≤ i ∧ line = source.lineAt i := by
    rcases hline with hline | ⟨i, hi, hline⟩
    · exact .inl hline
    · exact .inr ⟨i - 1, by omega, hline⟩
  refine ⟨by omega, hlines, hbefore, ?_⟩
  obtain rfl | ⟨j, rfl, hj, hstarts⟩ := Anchor.startsLine_wrap hstarts
  · exact ⟨0, .inl rfl, hcolumn, hline⟩
  · exact ⟨j, hstarts, by rw [if_neg (by omega)]; omega, hline⟩

/-- Only a fault of the text has been found while parsing. -/
theorem Failure.eq_fault_of_parsing {failure : Failure}
    (h : ("phase", Value.ofString "parsing") ∈ failure.details) :
    ∃ index line column cause, failure = .unparsable (.fault index line column cause) := by
  have hphase : Value.ofString "parsing" ≠ .ofString "anchoring" :=
    fun h => absurd (Value.text.inj h) (by decide)
  cases failure with
  | unparsable error =>
    cases error with
    | fault index line column cause => exact ⟨index, line, column, cause, rfl⟩
    | templateContinuation => cases h
  | statementCount => simp [details, hphase] at h
  | notCall => simp [details, hphase] at h
  | notFunction => simp [details, hphase] at h
  | edit error => cases error <;> simp [details, EditError.details] at h
  | _ => simp [details, spanDetails, errorDetails] at h

/-- **What is reported of a source that does not parse.**  The offset is that in the source, or one
of the three behind it, and the line is one of the source, not in front of the character before the
offset.  The column counts from the start of a line of the source; on the first line it is that in
the text with a parenthesis in front of the source, and so one more than the column of the offset.
The line is the one from whose start the column counts.  Where the two come from different places,
as for a token that is blamed relative to the end of the last one, it is the line of the offset or
of a later one, on which the token ends. -/
theorem anchor_reports {source : Text} {failure : Failure} (h : anchor source = .error failure)
    (hphase : ("phase", Value.ofString "parsing") ∈ failure.details) :
    ∃ reason index line column, failure.details = [("phase", .ofString "parsing"),
        ("reason", .text reason), ("index", .ofNat (index - 1)), ("line", .ofNat line),
        ("column", .integer column)] ∧
      index ≤ source.length + 4 ∧ (1 ≤ line ∧ line ≤ 1 + source.lineEnds) ∧
      source.lineAt (index - 2) ≤ line ∧
      ∃ k, source.StartsLine k ∧ column = (index : Int) - k + (if k = 0 then 1 else 0) ∧
        (line = source.lineAt k ∨ ∃ i, index - 1 ≤ i ∧ line = source.lineAt i) := by
  obtain ⟨index, line, column, cause, rfl⟩ := Failure.eq_fault_of_parsing hphase
  exact ⟨_, index, line, column, rfl, anchor_fault h⟩

/-- A bracket on the second line: its offset, its line and its column are those in the source. -/
theorem anchor_reports_secondLine :
    let source : Text := .ofChars ['\n', ']']
    ∃ failure, anchor source = .error failure ∧
      ("phase", Value.ofString "parsing") ∈ failure.details ∧
      ∃ reason index line column, failure.details = [("phase", .ofString "parsing"),
          ("reason", .text reason), ("index", .ofNat (index - 1)), ("line", .ofNat line),
          ("column", .integer column)] ∧
        index ≤ source.length + 4 ∧ (1 ≤ line ∧ line ≤ 1 + source.lineEnds) ∧
        source.lineAt (index - 2) ≤ line ∧
        ∃ k, source.StartsLine k ∧ column = (index : Int) - k + (if k = 0 then 1 else 0) ∧
          (line = source.lineAt k ∨ ∃ i, index - 1 ≤ i ∧ line = source.lineAt i) := by
  intro source
  have hfault : Anchor.fault? source = some (.fault 2 2 1 (.unexpected [.scalar ']'])) := by
    decide +kernel
  have hanchor := Anchor.anchor_eq_unparsable.2 hfault
  exact ⟨_, hanchor, List.mem_cons_self, anchor_reports hanchor List.mem_cons_self⟩

/-- A bracket at the beginning is said to be in the second column, though its offset is the first
one. -/
theorem anchor_bracket :
    ∃ failure, anchor [.scalar ']'] = .error failure ∧ failure.details =
        [("phase", .ofString "parsing"), ("reason", .text (.ofString "Line 1: Unexpected token ]")),
         ("index", .ofNat 0), ("line", .ofNat 1), ("column", .integer 2)] ∧
      Text.columnAt [.scalar ']'] 0 = 1 := by
  have hfault : Anchor.fault? [.scalar ']'] = some (.fault 1 1 2 (.unexpected [.scalar ']'])) := by
    decide +kernel
  have hreason : (ParseError.fault 1 1 2 (.unexpected [.scalar ']'])).reason =
      .ofString "Line 1: Unexpected token ]" := by
    decide +kernel
  refine ⟨_, Anchor.anchor_eq_unparsable.2 hfault, ?_, rfl⟩
  rw [← hreason]
  rfl

/-- **On a source that is one line, the column is always one too high**: it is that of the offset
that is reported and one more. -/
theorem anchor_fault_of_one_line {source : Text} {index line : Nat} {column : Int} {cause : Fault}
    (hends : source.lineEnds = 0)
    (h : anchor source = .error (.unparsable (.fault index line column cause))) :
    line = 1 ∧ column = index + 1 ∧
      (0 < index → index ≤ source.length + 1 → column = source.columnAt (index - 1) + 1) := by
  obtain ⟨-, hline, -, k, hstarts, hcolumn, -⟩ := anchor_fault h
  obtain rfl := hstarts.eq_zero hends
  rw [if_pos rfl] at hcolumn
  refine ⟨by omega, by omega, fun hpos hle => ?_⟩
  rw [Text.columnAt_of_lineEnds_eq_zero hends (by omega)]
  omega

end Elementwise
