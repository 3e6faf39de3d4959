import Elementwise.Proofs.CompiledBody
import Mathlib.Data.List.Pairwise

/-!
# Strings in a compiled body

String literals are written anew, in single quotes and with every underscore behind a backslash, so
that no string can hold what looks like a generated name.  Such a literal is read back as the string
it was written for, and as nothing more.  Strings are not written anew everywhere, though: the plain
key of a class member is left as it is.

## What is here

* `StringLiteral.token_escaped`, `Reader.kind_escapeString` — what is written for a string is read
  as one token of this value.
* `AnchoredFunction.editedBody_of_mem`, `AnchoredFunction.editedBody_keeps` — what replaces a part
  of a body stands in its new text, and so does what no edit touches.
* `Routine.claimed_apart` — what is left as it is is not touched; `Routine.keptKey_apart` says this
  of the plain key of a class member.
* `Compiler.compile_writes_strings` — which strings of a body are written anew.
* `Compiler.compile_keeps_memberKey` — a string that is not.
-/

set_option autoImplicit false
namespace Elementwise

/-! ## Written strings are read back -/

@[simp] theorem Place.step_step (p : Place) (m n : Nat) : (p.step m).step n = p.step (m + n) := by
  simp only [step, Nat.add_assoc]

theorem escapeString_append (v t : Text) :
    escapeString v ++ t =
      .scalar '\x27' :: (v.flatMap escapeStringChar ++ .scalar '\x27' :: t) := by
  simp [escapeString]

theorem length_escapeString (v : Text) :
    (escapeString v).length = (v.flatMap escapeStringChar).length + 2 := by
  rw [escapeString, List.length_append, List.length_cons, List.length_singleton]

namespace StringLiteral

/-- A code point that was written in a string is read back in one step, on the same line. -/
theorem body_escapeStringChar (c : CodePoint) (start fuel : Nat) (done : Text) (p : Place)
    (t : Text) :
    body (.scalar '\x27') start (fuel + 1) done false p (escapeStringChar c ++ t) =
      body (.scalar '\x27') start fuel (c :: done) false
        (p.step (escapeStringChar c).length) t := by
  unfold escapeStringChar
  split
  case h_8 h₁ h₂ h₃ h₄ h₅ h₆ _ =>
    have hplain : c.isLineTerminator = false := by
      cases c with
      | surrogate k => rfl
      | scalar c =>
        simp only [CodePoint.isLineTerminator, Bool.or_eq_false_iff, beq_eq_false_iff_ne]
        refine ⟨⟨⟨?_, ?_⟩, ?_⟩, ?_⟩ <;> rintro rfl <;> contradiction
    simp only [List.singleton_append, body, hplain, eq_false h₁, eq_false h₂, if_false,
      Bool.false_eq_true, List.length_singleton]
  all_goals rfl

theorem body_escaped (v : Text) {fuel : Nat} (hfuel : v.length < fuel) (start : Nat) (done : Text)
    (p : Place) (t : Text) :
    body (.scalar '\x27') start fuel done false p
        (v.flatMap escapeStringChar ++ .scalar '\x27' :: t) =
      .ok (done.reverse ++ v, false, p.step ((v.flatMap escapeStringChar).length + 1), t) := by
  induction v generalizing fuel done p with
  | nil =>
    obtain ⟨fuel, rfl⟩ := Nat.exists_eq_succ_of_ne_zero (Nat.ne_of_gt hfuel)
    rw [List.append_nil]
    rfl
  | cons c v ih =>
    obtain ⟨fuel, rfl⟩ := Nat.exists_eq_succ_of_ne_zero (Nat.ne_of_gt (Nat.zero_lt_of_lt hfuel))
    rw [List.flatMap_cons, List.append_assoc, body_escapeStringChar,
      ih (Nat.lt_of_succ_lt_succ hfuel), Place.step_step, List.reverse_cons, List.append_assoc,
      List.singleton_append, List.length_append, Nat.add_assoc]

/-- A string is not longer than what is written for it. -/
theorem length_le_escaped (v : Text) : v.length ≤ (v.flatMap escapeStringChar).length := by
  induction v with
  | nil => exact Nat.le_refl 0
  | cons c v ih =>
    have hone : 1 ≤ (escapeStringChar c).length := by
      unfold escapeStringChar
      split <;> simp
    rw [List.flatMap_cons, List.length_append, List.length_cons]
    omega

/-- **A string that was written is read back**, from its first quote to its last, with what stands
between them as its spelling. -/
theorem token_escaped (v t : Text) (p : Place) :
    token (.scalar '\x27') p (v.flatMap escapeStringChar ++ .scalar '\x27' :: t) =
      .ok (.string v (v.flatMap escapeStringChar) false, p.step (escapeString v).length, t) := by
  have hfuel : v.length < (v.flatMap escapeStringChar ++ .scalar '\x27' :: t).length + 1 := by
    have := length_le_escaped v
    rw [List.length_append]
    omega
  have hplace : (p.step 1).step ((v.flatMap escapeStringChar).length + 1) =
      p.step (escapeString v).length := by
    rw [Place.step_step, length_escapeString, Nat.add_comm 1]
  have hraw : (p.step (escapeString v).length).index - p.index - 2 =
      (v.flatMap escapeStringChar).length := by
    show p.index + (escapeString v).length - p.index - 2 = _
    rw [length_escapeString, Nat.add_sub_cancel_left, Nat.add_sub_cancel]
  rw [token, body_escaped v hfuel, hplace]
  simp only [List.reverse_nil, List.nil_append, hraw, List.take_left]

end StringLiteral

/-- **What is written for a string is read as one token** of just this value, whatever follows. -/
theorem Reader.kind_escapeString (v t : Text) (p : Place) (braces : List Brace) :
    ∃ raw p', Reader.kind ⟨p, escapeString v ++ t, braces⟩ = .ok (.string v raw false, p', t) := by
  rw [escapeString_append]
  exact ⟨_, _, StringLiteral.token_escaped v t p⟩

/-! ## Parts of the new text -/

namespace AnchoredFunction

/-- What stands in a part of the text of a body stands in the whole of it. -/
theorem editedBody_of_substitute (f : AnchoredFunction) {es : List Edit} {u : Text}
    (h : ∃ before after,
      f.text.substitute f.bodySpan.start f.bodySpan.stop es = before ++ u ++ after) :
    ∃ before after, f.editedBody es = before ++ u ++ after := by
  obtain ⟨before, after, h⟩ := h
  rw [editedBody, h]
  split
  · exact ⟨.ofChars ['{', 'r', 'e', 't', 'u', 'r', 'n', ' '] ++ before,
      after ++ .ofChars [';', '}'], by simp only [List.append_assoc]⟩
  · exact ⟨before, after, rfl⟩

/-- What an edit writes stands in the new text. -/
theorem editedBody_of_mem (f : AnchoredFunction) {es : List Edit} {e : Edit} (he : e ∈ es) :
    ∃ before after, f.editedBody es = before ++ e.replacement ++ after := by
  obtain ⟨es₁, es₂, rfl⟩ := List.append_of_mem he
  exact f.editedBody_of_substitute ⟨_, _, f.text.substitute_append_cons es₁ e es₂ _ _⟩

/-- What no edit touches stands in the new text. -/
theorem editedBody_keeps (f : AnchoredFunction) {es : List Edit} {s : Span}
    (hs : s.Within f.bodySpan.start f.bodySpan.stop)
    (hwithin : ∀ e ∈ es, e.span.Within f.bodySpan.start f.bodySpan.stop)
    (hbehind : es.Pairwise fun a b => a.span.stop ≤ b.span.start)
    (hapart : ∀ e ∈ es, e.span.Apart s) :
    ∃ before after, f.editedBody es = before ++ f.text.slice s ++ after :=
  f.editedBody_of_substitute (f.text.substitute_keeps hs hwithin hbehind hapart)

end AnchoredFunction

/-! ## The keys of class members -/

/-- A literal that is a key is a string. -/
theorem Node.exists_span_of_isKey {n : Node} {key : Text} (hliteral : n.isLiteral = true)
    (hkey : n.isKey key = true) : ∃ s, n = .literal s (.string key) := by
  cases n with
  | literal s value =>
    cases value with
    | string v => exact ⟨s, by rw [of_decide_eq_true hkey]⟩
    | _ => cases hkey
  | _ => cases hliteral

namespace Routine

variable {r : Routine} {t : Text} {start stop : Nat} {o : Occurrence} {k : Span}

/-- The parts of the text that belong to two occurrences of a body are apart, unless they lie in one
ambiguous property. -/
theorem claimed_pairwise (hfits : Fits t start stop r.function.body.marks) :
    r.function.body.occurrences.Pairwise fun o c => ∀ a ∈ o.claimed?, ∀ b ∈ c.claimed?,
      a.span.Apart b.span ∨ r.Ambiguous a.span b.span := by
  have hclaimed := (Occurrence.claimed_sublist ⟨.value .plain, r.function.body⟩).map Mark.span
  rw [List.map_map] at hclaimed
  have hpairwise := (marks_apart hfits).sublist hclaimed
  exact List.pairwise_filterMap.1 (List.pairwise_map.1 hpairwise)

/-- What belongs to an occurrence that is left as it is, and an edit of the body, are apart, unless
they lie in one ambiguous property. -/
theorem claimed_apart (hfits : Fits t start stop r.function.body.marks)
    (ho : o ∈ r.function.body.occurrences) {m : Mark} (hm : o.claimed? = some m) {scope : Text}
    (hkept : o.site?.bind (r.edit? scope) = none) {e : Edit} (he : e ∈ r.replacements scope) :
    e.span.Apart m.span ∨ r.Ambiguous e.span m.span := by
  obtain ⟨site, hsite, hedit⟩ := List.mem_filterMap.1 he
  obtain ⟨c, hc, hcsite⟩ := List.mem_filterMap.1 hsite
  obtain ⟨n, hn, hspan⟩ := exists_rewritten?_of_edit? hedit
  have hcclaimed : c.claimed? = some n := by
    rw [Occurrence.claimed?, Occurrence.rewritten?, hcsite, Option.bind_some, hn, Option.some_or]
  have hne : c ≠ o := by
    rintro rfl
    rw [hcsite, Option.bind_some, hedit] at hkept
    cases hkept
  have : Std.Symm fun o c : Occurrence => ∀ a ∈ o.claimed?, ∀ b ∈ c.claimed?,
      a.span.Apart b.span ∨ r.Ambiguous a.span b.span :=
    ⟨fun _ _ h a ha b hb => (h b hb a ha).imp Span.Apart.symm Ambiguous.symm⟩
  rw [← hspan]
  exact (claimed_pairwise hfits).forall hc ho hne n hcclaimed m hm

/-- **The plain key of a class member lies in the body, and no edit touches it** but one in an
ambiguous property that covers it too. -/
theorem keptKey_apart (hfits : Fits t start stop r.function.body.marks)
    (ho : o ∈ r.function.body.occurrences) (hk : o.keptKey? = some k) (scope : Text) :
    k.Within start stop ∧ ∀ e ∈ r.replacements scope, e.span.Apart k ∨ r.Ambiguous e.span k := by
  have hsite : o.site? = none := by
    obtain ⟨hrole, _, _, _, _, _, hnode⟩ := Occurrence.of_keptKey? hk
    obtain ⟨role, node⟩ := o
    obtain rfl := hnode
    cases role <;> rfl
  have hclaimed : o.claimed? = some ⟨k, .string none, none⟩ := by
    rw [Occurrence.claimed?, Occurrence.rewritten?, hsite, hk]
    rfl
  refine ⟨?_, fun e he => claimed_apart hfits ho hclaimed (by rw [hsite]; rfl) he⟩
  have hsublist := Occurrence.claimed_sublist ⟨.value .plain, r.function.body⟩
  obtain ⟨m, hm, heq⟩ := List.mem_map.1 (hsublist.subset (List.mem_filterMap.2 ⟨o, ho, hclaimed⟩))
  rw [show k = m.span from (congrArg Mark.span heq).symm]
  exact hfits.within m hm

/-- A string that is not only a word is written anew. -/
theorem mem_replacements_of_string {s : Span} {v : Text} (ho : o ∈ r.function.body.occurrences)
    (hnode : o.node = .literal s (.string v)) (hrole : o.role ≠ .word) (scope : Text) :
    ⟨s, escapeString v⟩ ∈ r.replacements scope := by
  obtain ⟨role, node⟩ := o
  obtain rfl := hnode
  have hsite : Occurrence.site? ⟨role, .literal s (.string v)⟩ = some (.string s v) := by
    cases role <;> first | rfl | exact absurd rfl hrole
  exact List.mem_filterMap.2 ⟨_, List.mem_filterMap.2 ⟨_, ho, hsite⟩, rfl⟩

end Routine

/-! ## Compilations -/

namespace Compiler

/-- **Which strings a compiled body holds.**  Its edits stand in it in the order of their places.
Every string literal of the source body is written anew, unless it is only a word; what is written
stands in the body and is read there as one token with the value of the literal.  Strings that are
plain keys of class members are words and stand in the body as they were, except in an ambiguous
property. -/
theorem compile_writes_strings {c : Compiler} {source : RoutineSource} {q : PrefixSequence}
    {out : CompiledRoutine} (h : (c.compile source q).1 = .ok out) :
    ∃ f es, (source.text >>= anchor) = .ok f ∧
      out.body = f.editedBody es ∧
      (es.Pairwise fun a b => a.span.stop ≤ b.span.start) ∧
      (∀ o ∈ f.body.occurrences, ∀ s v, o.node = .literal s (.string v) → o.role ≠ .word →
        ⟨s, escapeString v⟩ ∈ es) ∧
      (∀ s v, ⟨s, escapeString v⟩ ∈ es →
        ∃ before after, out.body = before ++ escapeString v ++ after ∧
          ∀ p braces, ∃ raw p',
            Reader.kind ⟨p, escapeString v ++ after, braces⟩ =
              .ok (.string v raw false, p', after)) ∧
      ∀ o ∈ f.body.occurrences, ∀ k ∈ o.keptKey?,
        (∃ before after, out.body = before ++ f.text.slice k ++ after) ∨
          ∃ z, f.body.HasZone z ∧ k.Within z.start z.stop := by
  obtain ⟨f, hf, hflattens⟩ := compile_flattens h
  obtain ⟨t, hanchor⟩ := exists_anchor_eq_ok hf
  have hfits := (anchor_placed hanchor).2
  have hperm := Edit.sort_perm (Routine.replacements ⟨f, c.isGlobal⟩
    (PrefixSequence.prefixFor c.stem q.next))
  refine ⟨f, _, hf, hflattens.body_eq, hflattens.behind, fun o ho s v hnode hrole => ?_,
    fun s v hmem => ?_, fun o ho k hk => ?_⟩
  · exact hperm.mem_iff.2 (Routine.mem_replacements_of_string ho hnode hrole _)
  · obtain ⟨before, after, hbody⟩ := f.editedBody_of_mem hmem
    exact ⟨before, after, hflattens.body_eq.trans hbody, Reader.kind_escapeString v after⟩
  · obtain ⟨hwithin, hapart⟩ := Routine.keptKey_apart (r := ⟨f, c.isGlobal⟩) hfits ho hk
      (PrefixSequence.prefixFor c.stem q.next)
    by_cases hzone : ∃ z, f.body.HasZone z ∧ k.Within z.start z.stop
    · exact .inr hzone
    · have hkept := f.editedBody_keeps hwithin
        (fun e he => hflattens.within e (hperm.mem_iff.1 he)) hflattens.behind fun e he =>
          (hapart e (hperm.mem_iff.1 he)).resolve_right fun ⟨z, hz, _, hkz⟩ => hzone ⟨z, hz, hkz⟩
      rw [← hflattens.body_eq] at hkept
      exact .inl hkept

/-- The string of `()=>"a_b"` is written with its underscore behind a backslash. -/
theorem compile_writes_strings_sample :
    let source : RoutineSource :=
      .value (.text (.ofChars ['(', ')', '=', '>', '\x22', 'a', '_', 'b', '\x22']))
    ∃ out before after, (sample.compile source ⟨7⟩).1 = .ok out ∧
      out.body = before ++ .ofChars ['\x27', 'a', '\\', '_', 'b', '\x27'] ++ after := by
  intro source
  have hsome : (sample.compile source ⟨7⟩).1.toOption.isSome = true := by decide +kernel
  obtain ⟨out, hout⟩ := Option.isSome_iff_exists.1 hsome
  have hcompile := congrArg Prod.fst (compile_eq_of_toOption hout rfl)
  have hliteral : (source.text >>= anchor).toOption.all fun f =>
      f.body.isLiteral && f.body.isKey (.ofChars ['a', '_', 'b']) := by decide +kernel
  obtain ⟨f, es, hf, -, -, hwritten, hread, -⟩ := compile_writes_strings hcompile
  rw [hf] at hliteral
  obtain ⟨hliteral, hkey⟩ := (Bool.and_eq_true _ _).mp hliteral
  obtain ⟨s, hbody⟩ : ∃ s, f.body = .literal s (.string (.ofChars ['a', '_', 'b'])) :=
    Node.exists_span_of_isKey hliteral hkey
  have hfirst : ⟨.value .plain, f.body⟩ ∈ f.body.occurrences := by
    rw [Node.occurrences, Occurrence.below_eq]
    exact List.mem_cons_self
  obtain ⟨before, after, h, -⟩ := hread s _ (hwritten _ hfirst s _ hbody (by simp))
  exact ⟨out, before, after, hcompile, h⟩

/-- **The plain key of a class member is not written anew.**  The body of `function(){class
A{"a_b"(){}}}` still has a string in double quotes in it, with its underscore as it was. -/
theorem compile_keeps_memberKey :
    let source : RoutineSource := .value (.text (.ofChars ['f', 'u', 'n', 'c', 't', 'i', 'o', 'n',
      '(', ')', '\x7b', 'c', 'l', 'a', 's', 's', ' ', 'A', '\x7b', '\x22', 'a', '_', 'b', '\x22',
      '(', ')', '\x7b', '\x7d', '\x7d', '\x7d']))
    let before : Text := .ofChars ['\x7b', 'c', 'l', 'a', 's', 's', ' ', 'k', '_', '0', '_', 'A',
      '\x7b']
    let quoted : Text := .ofChars ['\x22', 'a', '_', 'b', '\x22']
    let after : Text := .ofChars ['(', ')', '\x7b', '\x7d', '\x7d', '\x7d']
    ∃ out, (sample.compile source ⟨0⟩).1 = .ok out ∧ out.body = before ++ quoted ++ after ∧
      (∀ p braces, ∃ raw p', Reader.kind ⟨p, quoted ++ after, braces⟩ =
        .ok (.string (.ofChars ['a', '_', 'b']) raw false, p', after)) ∧
      quoted ≠ escapeString (.ofChars ['a', '_', 'b']) := by
  intro source before quoted after
  have hbody : (sample.compile source ⟨0⟩).1.toOption.map CompiledRoutine.body =
      some (before ++ quoted ++ after) := by decide +kernel
  obtain ⟨out, hout, hbody⟩ := Option.map_eq_some_iff.1 hbody
  have hcompile := congrArg Prod.fst (compile_eq_of_toOption hout rfl)
  exact ⟨out, hcompile, hbody, fun p braces => ⟨_, _, rfl⟩, by decide +kernel⟩

end Compiler
end Elementwise
