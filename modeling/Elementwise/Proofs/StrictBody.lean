import Elementwise.Proofs.PartMarks
import Elementwise.Proofs.WrittenString

/-!
# Strict bodies

Strings at the beginning of a body are directives, and a body is strict if one of them reads
`use strict` between its quotes.  An escape in it makes it another directive, although the string is
the same.  Flattening goes by the string, and so a body may become strict that was not, and one that
was strict may be so no more.

## What is here

* `Node.directives`, `Directive.MakeStrict` — the directives of a body, and what they make of it.
* `AnchoredFunction.bodies` — the bodies of a function and of the functions in it.
* `Directive.IsDisguised` — a directive that is `use strict`, or nothing at all, by its escapes
  only.
* `Directive.makeStrict_rewritten` — directives that are written anew go by their values.
* `AnchoredFunction.quotes_directive` — a directive stands in the text as it is spelled.
* `Routine.edit_or_apart` — nothing else is replaced between the directives of a body.
* `Compiler.compile_strict` — which bodies are strict when they have been flattened.
* `Compiler.compile_escapedDirective` — a body that becomes strict.
-/

set_option autoImplicit false
namespace Elementwise

/-! ## Directives -/

/-- A string at the beginning of a body: where it stands, its value, and what stands between its
quotes. -/
structure Directive where
  span : Span
  value : Text
  spelling : Text
deriving DecidableEq, Repr

namespace Directive

/-- What stands between the quotes when a directive has been written anew. -/
def rewritten (d : Directive) : Text := d.value.flatMap escapeStringChar

/-- Whether a body is strict that begins with strings of these spellings.  An empty string is no
directive, and no directives follow it. -/
def MakeStrict (spellings : List Text) : Prop := Word.useStrict ∈ spellings.takeWhile (· ≠ [])

instance (spellings : List Text) : Decidable (MakeStrict spellings) :=
  inferInstanceAs (Decidable (_ ∈ _))

/-- A directive has a backslash in it and is `use strict`, or nothing at all, without it. -/
def IsDisguised (d : Directive) : Prop :=
  .scalar '\\' ∈ d.spelling ∧ (d.value = Word.useStrict ∨ d.value = [])

instance (d : Directive) : Decidable d.IsDisguised := inferInstanceAs (Decidable (_ ∧ _))

end Directive

namespace Node

/-- The directives with which statements begin. -/
def leadingDirectives : List Node → List Directive
  | expression _ (literal s (.string value)) (some spelling) :: nodes =>
    ⟨s, value, spelling⟩ :: leadingDirectives nodes
  | _ => []

/-- The directives of a body.  A body that is an expression has none. -/
def directives : Node → List Directive
  | block _ statements => leadingDirectives statements
  | _ => []

end Node

/-- The body of a function.  What is only a word is left out, because it is not flattened. -/
def Occurrence.functionBody? : Occurrence → Option Node
  | ⟨.word, _⟩ => none
  | ⟨_, .function _ _ _ _ _ _ body⟩ | ⟨_, .arrow _ _ _ body⟩ => some body
  | _ => none

/-- The bodies of a function and of all functions in it. -/
def AnchoredFunction.bodies (f : AnchoredFunction) : List Node :=
  f.body :: f.body.occurrences.filterMap Occurrence.functionBody?

/-! ## What is written for directives -/

/-- Different strings are written differently. -/
theorem flatMap_escapeStringChar_inj {u v : Text} :
    u.flatMap escapeStringChar = v.flatMap escapeStringChar ↔ u = v := by
  refine ⟨fun h => ?_, congrArg _⟩
  have hu := StringLiteral.token_escaped u [] default
  have hv := StringLiteral.token_escaped v [] default
  rw [h, hv] at hu
  simp only [Except.ok.injEq, Prod.mk.injEq, TokenKind.string.injEq] at hu
  exact hu.1.1.symm

namespace Directive

theorem rewritten_eq_nil {d : Directive} : d.rewritten = [] ↔ d.value = [] :=
  flatMap_escapeStringChar_inj (v := [])

/-- A directive makes a body strict when it has been written anew if this is its value. -/
theorem rewritten_eq_useStrict {d : Directive} :
    d.rewritten = Word.useStrict ↔ d.value = Word.useStrict :=
  flatMap_escapeStringChar_inj (v := Word.useStrict)

theorem makeStrict_cons {s : Text} {spellings : List Text} :
    MakeStrict (s :: spellings) ↔ s ≠ [] ∧ (s = Word.useStrict ∨ MakeStrict spellings) := by
  by_cases hs : s = []
  · simp [MakeStrict, hs]
  · simp [MakeStrict, hs, eq_comm]

/-- **What directives make of a body when they have been written anew** depends on their values
alone. -/
theorem makeStrict_rewritten (ds : List Directive) :
    MakeStrict (ds.map rewritten) ↔ MakeStrict (ds.map value) := by
  induction ds with
  | nil => rfl
  | cons d ds ih =>
    simp only [List.map_cons, makeStrict_cons, rewritten_eq_useStrict, ne_eq, rewritten_eq_nil, ih]

/-- A directive that is not disguised counts for what it is, if it is spelled as it is where there
is no backslash in it. -/
theorem value_eq_iff {d : Directive} (hplain : .scalar '\\' ∉ d.spelling → d.value = d.spelling)
    (hd : ¬d.IsDisguised) {s : Text} (hs : s = Word.useStrict ∨ s = []) :
    d.value = s ↔ d.spelling = s := by
  have hslash : CodePoint.scalar '\\' ∉ s := by
    rcases hs with rfl | rfl <;> decide
  by_cases hmem : .scalar '\\' ∈ d.spelling
  · refine iff_of_false (fun h => hd ⟨hmem, ?_⟩) fun h => hslash (h ▸ hmem)
    rwa [h]
  · rw [hplain hmem]

/-- **Directives that are not disguised make of a body what they made of it before.** -/
theorem makeStrict_rewritten_iff {ds : List Directive}
    (hplain : ∀ d ∈ ds, .scalar '\\' ∉ d.spelling → d.value = d.spelling)
    (hds : ∀ d ∈ ds, ¬d.IsDisguised) :
    MakeStrict (ds.map rewritten) ↔ MakeStrict (ds.map spelling) := by
  rw [makeStrict_rewritten]
  induction ds with
  | nil => rfl
  | cons d ds ih =>
    obtain ⟨hd, hds⟩ := List.forall_mem_cons.1 hds
    obtain ⟨hd', hplain⟩ := List.forall_mem_cons.1 hplain
    simp only [List.map_cons, makeStrict_cons, ne_eq, value_eq_iff hd' hd (.inl rfl),
      value_eq_iff hd' hd (.inr rfl), ih hplain hds]

end Directive

/-! ## Directives are written anew -/

namespace Text.Quotes

variable {t : Text} {s : Span} {value spelling : Text}

/-- The spelling of a string stands between its quotes. -/
theorem slice (h : t.Quotes s value spelling) :
    ∃ quote : CodePoint, quote.IsQuote ∧ t.slice s = quote :: (spelling ++ [quote]) := by
  obtain ⟨quote, hquote, hdrop, -⟩ := h.quoted
  have hlength := congrArg List.length hdrop
  simp only [List.length_cons, List.length_append, List.length_drop] at hlength
  have hwhole : t.slice s ++ t.drop s.stop = quote :: (spelling ++ [quote]) ++ t.drop s.stop := by
    rw [slice_append_drop t (by omega : s.start ≤ s.stop), hdrop, List.cons_append,
      List.append_assoc, List.singleton_append]
  exact ⟨quote, hquote, List.append_cancel_right hwhole⟩

/-- A string without a backslash in it is what it is spelled as. -/
theorem value_eq (h : t.Quotes s value spelling) (hplain : .scalar '\\' ∉ spelling) :
    value = spelling := by
  obtain ⟨quote, -, -, hvalue⟩ := h.quoted
  exact hvalue hplain

end Text.Quotes

/-- A directive is a statement that is a string and nothing else. -/
theorem Node.exists_expression_of_mem_leadingDirectives {statements : List Node} {d : Directive}
    (h : d ∈ leadingDirectives statements) :
    ∃ s, expression s (literal d.span (.string d.value)) (some d.spelling) ∈ statements := by
  fun_induction leadingDirectives statements with
  | case1 r s value spelling nodes ih =>
    rcases List.mem_cons.1 h with rfl | h
    · exact ⟨r, List.mem_cons_self⟩
    · obtain ⟨s, hs⟩ := ih h
      exact ⟨s, List.mem_cons_of_mem _ hs⟩
  | case2 => cases h

/-- Where a mark stands and what it is, in whatever zone. -/
def Mark.content (m : Mark) : Span × MarkKind := (m.span, m.kind)

@[simp] theorem Mark.content_around (z? : Option Span) (m : Mark) :
    (m.around z?).content = m.content := by
  cases z? <;> rfl

/-- The mark of a directive. -/
def Directive.content (d : Directive) : Span × MarkKind :=
  (d.span, .string (some ⟨d.value, some d.spelling⟩))

/-- The edit of a directive. -/
def Directive.edit (d : Directive) : Edit := ⟨d.span, escapeString d.value⟩

/-- The marks of a body begin with its directives. -/
theorem Node.prefix_content (body : Node) :
    body.directives.map Directive.content <+: body.marks.map Mark.content := by
  cases body with
  | block r statements =>
    show (leadingDirectives statements).map Directive.content <+:
      (marksOfAll statements).map Mark.content
    fun_induction leadingDirectives statements with
    | case1 s r value spelling statements ih => exact (List.prefix_cons_inj _).2 ih
    | case2 => exact List.nil_prefix
  | _ => exact List.nil_prefix

namespace Occurrence

/-- The body of a function is directly inside it. -/
theorem mem_inside_of_functionBody? {o : Occurrence} {body : Node}
    (h : o.functionBody? = some body) : ⟨.value .plain, body⟩ ∈ o.inside := by
  have hlast (parts : List Part) : (⟨.value .plain, body⟩ : Occurrence) ∈
      (parts ++ [Part.mk "body" body .plain]).map fun p => ⟨.value p.position, p.node⟩ :=
    List.mem_map.2 ⟨_, List.mem_append_right _ List.mem_cons_self, rfl⟩
  obtain ⟨role, node⟩ := o
  cases role <;> cases node <;> cases h <;> exact hlast _

/-- A directive of a body is a statement of it. -/
theorem exists_mem_inside_of_mem_directives {body : Node} {d : Directive}
    (hd : d ∈ body.directives) :
    ∃ s, ⟨.value .plain, .expression s (.literal d.span (.string d.value)) (some d.spelling)⟩ ∈
      inside ⟨.value .plain, body⟩ := by
  cases body with
  | block r statements =>
    obtain ⟨s, hs⟩ := Node.exists_expression_of_mem_leadingDirectives hd
    exact ⟨s, List.mem_map.2 ⟨_, List.mem_map.2 ⟨_, hs, rfl⟩, rfl⟩⟩
  | _ => cases hd

end Occurrence

namespace AnchoredFunction

variable {f : AnchoredFunction} {body : Node} {d : Directive}

/-- The bodies of the functions in a function are in its body. -/
theorem holds_of_mem_bodies (h : body ∈ f.bodies) :
    Occurrence.Holds ⟨.value .plain, f.body⟩ ⟨.value .plain, body⟩ := by
  rcases List.mem_cons.1 h with rfl | h
  · exact .refl
  · obtain ⟨o, ho, hbody⟩ := List.mem_filterMap.1 h
    exact (Occurrence.mem_below_iff.1 ho).tail (Occurrence.mem_inside_of_functionBody? hbody)

/-- A directive of a function, or of a function in it, is a statement in its body. -/
theorem exists_holds_of_mem_directives (h : body ∈ f.bodies) (hd : d ∈ body.directives) :
    ∃ s, Occurrence.Holds ⟨.value .plain, f.body⟩
      ⟨.value .plain, .expression s (.literal d.span (.string d.value)) (some d.spelling)⟩ := by
  obtain ⟨s, hs⟩ := Occurrence.exists_mem_inside_of_mem_directives hd
  exact ⟨s, (holds_of_mem_bodies h).tail hs⟩

/-- Every directive of a function, and of the functions in it, is a string in its body. -/
theorem mem_occurrences_of_mem_directives (h : body ∈ f.bodies) (hd : d ∈ body.directives) :
    ⟨.value .plain, .literal d.span (.string d.value)⟩ ∈ f.body.occurrences := by
  obtain ⟨s, hs⟩ := exists_holds_of_mem_directives h hd
  exact Occurrence.mem_below_iff.2 (hs.tail List.mem_cons_self)

/-- The directives of a body are marks one behind the other. -/
theorem infix_content (h : body ∈ f.bodies) :
    body.directives.map Directive.content <:+: f.body.marks.map Mark.content := by
  cases hliteral : body.isLiteral with
  | false =>
    obtain ⟨z?, hinfix⟩ := (holds_of_mem_bodies h).infix_marks nofun hliteral
    have hcontent := hinfix.map Mark.content
    rw [List.map_map, show Mark.content ∘ Mark.around z? = Mark.content from
      funext (Mark.content_around z?)] at hcontent
    exact body.prefix_content.isInfix.trans hcontent
  | true =>
    cases body with
    | literal => exact List.nil_infix
    | _ => cases hliteral

/-- **A directive stands in the text as it is spelled.** -/
theorem quotes_directive {t : Text} {start stop : Nat} (hfits : Fits t start stop f.body.marks)
    (h : body ∈ f.bodies) (hd : d ∈ body.directives) : t.Quotes d.span d.value d.spelling := by
  obtain ⟨⟨_, _, _⟩, hm, heq⟩ := List.mem_map.1 ((infix_content h).subset (List.mem_map_of_mem hd))
  cases heq
  obtain ⟨spelling, hquotes, hspelling⟩ := (hfits.suited _ hm).string _ rfl
  obtain rfl := hspelling d.spelling rfl
  exact hquotes

end AnchoredFunction

/-- A span that is not empty does not lie in one that it stands apart from. -/
theorem Span.Apart.not_within {a b : Span} (h : a.Apart b) (ha : a.start < a.stop) :
    ¬a.Within b.start b.stop := by
  simp only [Apart, Within] at *
  omega

namespace Routine

variable {r : Routine} {t scope : Text} {start stop : Nat} {body : Node} {d : Directive} {e : Edit}
  {es : List Edit}

theorem edit_mem_replacements (h : body ∈ r.function.bodies) (hd : d ∈ body.directives)
    (scope : Text) :
    d.edit ∈ r.replacements scope :=
  mem_replacements_of_string
    (AnchoredFunction.mem_occurrences_of_mem_directives h hd) rfl nofun scope

/-- An edit stands apart from a directive unless it is the edit of that directive. -/
theorem apart_directive (hperm : es.Perm (r.replacements scope))
    (hbehind : es.Pairwise fun a b => a.span.stop ≤ b.span.start) (h : body ∈ r.function.bodies)
    (hd : d ∈ body.directives) (he : e ∈ es) (hne : e ≠ d.edit) : e.span.Apart d.span := by
  have : Std.Symm fun a b : Edit => a.span.Apart b.span := ⟨fun _ _ => Span.Apart.symm⟩
  have hpairwise : es.Pairwise fun a b : Edit => a.span.Apart b.span := hbehind.imp Or.inl
  exact hpairwise.forall he (hperm.mem_iff.2 (edit_mem_replacements h hd scope)) hne

/-- **Between the directives of a body nothing else is replaced.**  An edit is that of a directive,
or ends in front of all of them, or begins behind all of them. -/
theorem edit_or_apart (hfits : Fits t start stop r.function.body.marks)
    (hperm : es.Perm (r.replacements scope))
    (hbehind : es.Pairwise fun a b => a.span.stop ≤ b.span.start) (h : body ∈ r.function.bodies)
    (he : e ∈ es) :
    (∃ d ∈ body.directives, e = d.edit) ∨ (∀ d ∈ body.directives, e.span.stop ≤ d.span.start) ∨
      ∀ d ∈ body.directives, d.span.stop ≤ e.span.start := by
  refine or_iff_not_imp_left.2 fun hno => ?_
  have hsuited : ∀ c ∈ r.function.body.marks.map Mark.content, c.1.start < c.1.stop :=
    List.forall_mem_map.2 fun m hm => (hfits.suited m hm).nonempty
  have hprecedes : (r.function.body.marks.map Mark.content).Pairwise fun a b =>
      a.1.stop ≤ b.1.start ∨ a.1.Within b.1.start b.1.stop :=
    List.pairwise_map.2 (hfits.precedes.imp fun h => h.imp And.left fun h => h.2.2)
  have hapart (d : Directive) (hd : d ∈ body.directives) : e.span.Apart d.span :=
    apart_directive hperm hbehind h hd he fun heq => hno ⟨d, hd, heq⟩
  obtain ⟨m, hm, hspan⟩ := List.mem_map.1 ((r.replacements_sublist scope).subset
    (List.mem_map_of_mem (hperm.mem_iff.1 he)))
  obtain ⟨front, back, hmarks⟩ := AnchoredFunction.infix_content h
  have hmem : m.content ∈ front ++ body.directives.map Directive.content ++ back :=
    hmarks ▸ List.mem_map_of_mem hm
  have hnonempty := hsuited _ (List.mem_map_of_mem hm)
  rw [← hmarks] at hprecedes hsuited
  obtain ⟨hahead, -, hback⟩ := List.pairwise_append.1 hprecedes
  obtain ⟨-, -, hfront⟩ := List.pairwise_append.1 hahead
  rw [← hspan]
  rw [← hspan] at hapart
  rcases List.mem_append.1 hmem with hmem | hm
  · rcases List.mem_append.1 hmem with hm | hm
    · refine .inl fun d hd => ?_
      have hd' : d.content ∈ body.directives.map Directive.content := List.mem_map_of_mem hd
      exact (hfront _ hm d.content hd').resolve_right ((hapart d hd).not_within hnonempty)
    · obtain ⟨d, hd, heq⟩ := List.mem_map.1 hm
      have hsame : d.span = m.span := congrArg Prod.fst heq
      refine absurd ?_ ((hapart d hd).not_within hnonempty)
      rw [hsame]
      exact ⟨le_rfl, hnonempty.le, le_rfl⟩
  · refine .inr fun d hd => ?_
    have hd' : d.content ∈ front ++ body.directives.map Directive.content :=
      List.mem_append_right _ (List.mem_map_of_mem hd)
    exact (hback d.content hd' _ hm).resolve_right
      ((hapart d hd).symm.not_within (hsuited _ (List.mem_append_left _ hd')))

end Routine

/-- What is written for a directive is read as a string that is spelled this way. -/
theorem Directive.kind_rewritten (d : Directive) (t : Text) (p : Place) (braces : List Brace) :
    ∃ p', Reader.kind ⟨p, escapeString d.value ++ t, braces⟩ =
      .ok (.string d.value d.rewritten false, p', t) := by
  rw [escapeString_append]
  exact ⟨_, StringLiteral.token_escaped d.value t p⟩

namespace Compiler

/-- **Which bodies are strict when they have been flattened.**  The directives of a body, and of the
functions in it, stand in the text as they are spelled, in quotes.  They are all written anew, with
nothing else replaced between them, and what is written in their place is read as a string that is
spelled as what is written.  So the values of the directives alone tell whether the body is strict.
It is strict exactly if it was before, unless there is a directive in it that is disguised. -/
theorem compile_strict {c : Compiler} {source : RoutineSource} {q : PrefixSequence}
    {out : CompiledRoutine} (h : (c.compile source q).1 = .ok out) :
    ∃ f es, (source.text >>= anchor) = .ok f ∧
      out.body = f.editedBody es ∧
      (es.Pairwise fun a b => a.span.stop ≤ b.span.start) ∧
      ∀ body ∈ f.bodies,
        (∀ d ∈ body.directives,
          (∃ quote : CodePoint, quote.IsQuote ∧
            f.text.slice d.span = quote :: (d.spelling ++ [quote])) ∧
          d.edit ∈ es ∧
          ∃ before after, out.body = before ++ escapeString d.value ++ after ∧
            ∀ p braces, ∃ p', Reader.kind ⟨p, escapeString d.value ++ after, braces⟩ =
              .ok (.string d.value d.rewritten false, p', after)) ∧
        (∀ e ∈ es, (∃ d ∈ body.directives, e = d.edit) ∨
          (∀ d ∈ body.directives, e.span.stop ≤ d.span.start) ∨
          ∀ d ∈ body.directives, d.span.stop ≤ e.span.start) ∧
        (Directive.MakeStrict (body.directives.map Directive.rewritten) ↔
          Directive.MakeStrict (body.directives.map Directive.value)) ∧
        ((∀ d ∈ body.directives, ¬d.IsDisguised) →
          (Directive.MakeStrict (body.directives.map Directive.rewritten) ↔
            Directive.MakeStrict (body.directives.map Directive.spelling))) := by
  obtain ⟨f, hf, hflattens⟩ := compile_flattens h
  obtain ⟨t, hanchor⟩ := exists_anchor_eq_ok hf
  have hfits := (anchor_placed hanchor).2
  let scope := PrefixSequence.prefixFor c.stem q.next
  have hperm := Edit.sort_perm (Routine.replacements ⟨f, c.isGlobal⟩ scope)
  refine ⟨f, _, hf, hflattens.body_eq, hflattens.behind, fun body hbody =>
    ⟨fun d hd => ?written, fun e he => ?between, Directive.makeStrict_rewritten _,
      Directive.makeStrict_rewritten_iff fun d hd => ?plain⟩⟩
  case written =>
    have hmem := hperm.mem_iff.2
      (Routine.edit_mem_replacements (r := ⟨f, c.isGlobal⟩) hbody hd scope)
    obtain ⟨before, after, heq⟩ := f.editedBody_of_mem hmem
    exact ⟨(AnchoredFunction.quotes_directive hfits hbody hd).slice, hmem, before, after,
      hflattens.body_eq.trans heq, d.kind_rewritten after⟩
  case between => exact Routine.edit_or_apart hfits hperm hflattens.behind hbody he
  case plain => exact (AnchoredFunction.quotes_directive hfits hbody hd).value_eq

/-- `"use strict"` of `function(){"use strict"}` is written in single quotes, and makes the body
strict. -/
theorem compile_strict_sample :
    let source : RoutineSource := .value (.text (.ofChars ['f', 'u', 'n', 'c', 't', 'i', 'o', 'n',
      '(', ')', '\x7b', '\x22', 'u', 's', 'e', ' ', 's', 't', 'r', 'i', 'c', 't', '\x22', '\x7d']))
    ∃ out f, (sample.compile source ⟨0⟩).1 = .ok out ∧ (source.text >>= anchor) = .ok f ∧
      Directive.MakeStrict (f.body.directives.map Directive.rewritten) := by
  intro source
  have hsome : (sample.compile source ⟨0⟩).1.toOption.isSome = true := by decide +kernel
  obtain ⟨out, hout⟩ := Option.isSome_iff_exists.1 hsome
  have hcompile := congrArg Prod.fst (compile_eq_of_toOption hout rfl)
  have hstrict : (source.text >>= anchor).toOption.all fun f =>
      decide ((∀ d ∈ f.body.directives, ¬d.IsDisguised) ∧
        Directive.MakeStrict (f.body.directives.map Directive.spelling)) := by decide +kernel
  obtain ⟨f, es, hf, -, -, hbodies⟩ := compile_strict hcompile
  rw [hf] at hstrict
  obtain ⟨hplain, hstrict⟩ := of_decide_eq_true hstrict
  obtain ⟨-, -, -, hiff⟩ := hbodies f.body List.mem_cons_self
  exact ⟨out, f, hcompile, hf, (hiff hplain).2 hstrict⟩

/-- **A body that was not strict becomes strict.**  The only directive of
`function(){"use\x20strict"}` has a blank in it that is not spelled as a blank.  The compiled body
is `{'use strict'}`. -/
theorem compile_escapedDirective :
    let head : Text := .ofChars ['f', 'u', 'n', 'c', 't', 'i', 'o', 'n', '(', ')']
    let source : Text := head ++ .ofChars ['\x7b', '\x22', 'u', 's', 'e', '\\', 'x', '2', '0', 's',
      't', 'r', 'i', 'c', 't', '\x22', '\x7d']
    ∃ out f f', (sample.compile (.value (.text source)) ⟨0⟩).1 = .ok out ∧ anchor source = .ok f ∧
      anchor (head ++ out.body) = .ok f' ∧
      ¬Directive.MakeStrict (f.body.directives.map Directive.spelling) ∧
      Directive.MakeStrict (f'.body.directives.map Directive.spelling) := by
  intro head source
  have hsome : (anchor source).toOption.isSome = true := by decide +kernel
  have hsloppy : (anchor source).toOption.all fun f =>
      decide (¬Directive.MakeStrict (f.body.directives.map Directive.spelling)) := by decide +kernel
  have hstrict : (sample.compile (.value (.text source)) ⟨0⟩).1.toOption.any fun out =>
      (anchor (head ++ out.body)).toOption.any fun f' =>
        decide (Directive.MakeStrict (f'.body.directives.map Directive.spelling)) := by
    decide +kernel
  obtain ⟨f, hf⟩ := Option.isSome_iff_exists.1 hsome
  rw [hf] at hsloppy
  obtain ⟨out, hout, hstrict⟩ := (Option.any_eq_true _ _).1 hstrict
  obtain ⟨f', hf', hstrict⟩ := (Option.any_eq_true _ _).1 hstrict
  exact ⟨out, f, f', eq_ok_of_toOption hout, eq_ok_of_toOption hf, eq_ok_of_toOption hf',
    of_decide_eq_true hsloppy, of_decide_eq_true hstrict⟩

end Compiler
end Elementwise
