import Elementwise.Proofs.Overlap

/-!
# The marks of a part of a tree

The marks of a part are marks of the whole tree, one behind the other, unless the part is a word or
a literal.  They are the same there, but for the zone they get if the part lies in an ambiguous
property.

## What is here

* `Mark.around` — a mark in an ambiguous property, if there is one.
* `Occurrence.Holds.infix_marks` — the marks of a tree that lies in another one.
-/

set_option autoImplicit false
namespace Elementwise

/-- A mark with the zone around it, if there is one. -/
def Mark.around : Option Span → Mark → Mark
  | none, m => m
  | some z, m => m.inZone z

namespace Mark

/-- The outer zone counts. -/
theorem around_around (z? z'? : Option Span) (m : Mark) :
    (m.around z?).around z'? = m.around (z'?.or z?) := by
  cases z? <;> cases z'? <;> rfl

@[simp] theorem map_around_none (ms : List Mark) : ms.map (around none) = ms := List.map_id _

end Mark

namespace Occurrence

/-- What lies in an occurrence without anything inside is that occurrence. -/
theorem Holds.eq_of_inside_eq_nil {o c : Occurrence} (h : o.Holds c) (hnil : o.inside = []) :
    c = o := by
  rcases Relation.ReflTransGen.cases_head h with rfl | ⟨d, hd, -⟩
  · rfl
  · rw [hnil] at hd
    cases hd

/-- Nothing is inside a word or a literal. -/
theorem inside_eq_nil {o : Occurrence} (h : o.role = .word ∨ o.node.isLiteral = true) :
    o.inside = [] := by
  obtain ⟨role, node⟩ := o
  rcases h with rfl | h
  · rfl
  · cases node with
    | literal => cases role <;> rfl
    | _ => cases h

/-- The marks of a part of a tree are marks of the tree, one behind the other, unless the part is a
word or a literal. -/
theorem infix_marks_of_mem_inside {o c : Occurrence} (hc : c ∈ o.inside) (hword : c.role ≠ .word)
    (hliteral : c.node.isLiteral = false) :
    ∃ z?, c.node.marks.map (Mark.around z?) <:+: o.node.marks := by
  obtain ⟨role, n⟩ := o
  have hrole : role ≠ .word := by
    rintro rfl
    cases hc
  have hinner : ∃ p ∈ n.parts, p.node = c.node := by
    rw [← List.mem_map, ← map_node_inside (o := ⟨role, n⟩) hrole]
    exact List.mem_map_of_mem hc
  have hsegment : c.node.marks <:+: n.innerMarks := by
    obtain ⟨p, hp, heq⟩ := hinner
    rw [← heq, Node.innerMarks, List.flatMap_def]
    exact List.infix_of_mem_flatten (List.mem_map_of_mem hp)
  -- but in an ambiguous property the marks are the same
  have hsame {ms : List Mark} (h : c.node.marks <:+: ms) :
      ∃ z?, c.node.marks.map (Mark.around z?) <:+: ms := ⟨none, by rwa [Mark.map_around_none]⟩
  show ∃ z?, _ <:+: n.marks
  rw [Node.marks_eq n]
  split
  case h_4 s t key =>
    -- the owner has no marks, and the key is a word
    rw [inside_member hrole] at hc
    rcases List.mem_pair.1 hc with rfl | rfl
    · exact hsame List.nil_infix
    · exact absurd rfl hword
  case h_5 s t v spelling =>
    obtain ⟨p, hp, heq⟩ := hinner
    obtain rfl := List.mem_singleton.1 hp
    rw [← heq] at hliteral
    cases hliteral
  case h_6 s head key =>
    rw [inside_metaProperty hrole] at hc
    rcases List.mem_pair.1 hc with rfl | rfl <;> exact absurd rfl hword
  case h_7 s nodes =>
    obtain ⟨p, hp, heq⟩ := hinner
    obtain ⟨n, hn, rfl⟩ := List.mem_map.1 hp
    obtain ⟨next, hnext⟩ := Node.infix_marksOfProperties s.stop hn
    rw [show n = c.node from heq] at hnext
    exact hsame ((List.prefix_append _ _).isInfix.trans hnext)
  case h_8 s kind isMethod key value => exact ⟨some s, hsegment.map _⟩
  case h_9 s kind isMethod key value =>
    rw [inside_shorthand hrole] at hc
    rcases List.mem_pair.1 hc with rfl | rfl
    · exact absurd rfl hword
    · exact hsame List.infix_rfl
  case h_10 s kind computed isMethod key value =>
    cases computed with
    | true =>
      have hinner : (Node.property s kind true isMethod false key value).innerMarks =
          key.marks ++ value.marks := by simp [Node.innerMarks, Node.parts]
      rw [hinner] at hsegment
      exact hsame (hsegment.trans Node.suffix_keyedMarks_computed.isInfix)
    | false =>
      -- a key without brackets is a word, if it is no literal
      rw [inside_keyed hrole] at hc
      rcases List.mem_pair.1 hc with rfl | rfl
      · exact absurd (by rw [Node.keyRole, hliteral]; rfl) hword
      · exact hsame Node.suffix_keyedMarks.isInfix
  case h_11 => exact hsame hsegment
  -- names and literals have no parts
  all_goals
    obtain ⟨p, hp, -⟩ := hinner
    cases hp

/-- **The marks of a tree that lies in another one are marks of that one**, one behind the other. -/
theorem Holds.infix_marks {o c : Occurrence} (h : o.Holds c) (hword : c.role ≠ .word)
    (hliteral : c.node.isLiteral = false) :
    ∃ z?, c.node.marks.map (Mark.around z?) <:+: o.node.marks := by
  induction h using Relation.ReflTransGen.head_induction_on with
  | refl => exact ⟨none, by simp⟩
  | @head o d hd hdc ih =>
    have hinner : ¬(d.role = .word ∨ d.node.isLiteral = true) := fun hnone => by
      obtain rfl := Holds.eq_of_inside_eq_nil hdc (inside_eq_nil hnone)
      exact hnone.elim hword (Bool.eq_false_iff.1 hliteral)
    obtain ⟨hword', hliteral'⟩ := not_or.1 hinner
    obtain ⟨z?, hz⟩ := ih
    obtain ⟨z'?, hz'⟩ := infix_marks_of_mem_inside hd hword' (Bool.eq_false_iff.2 hliteral')
    refine ⟨z'?.or z?, .trans ?_ hz'⟩
    have := hz.map (Mark.around z'?)
    rwa [List.map_map, show Mark.around z'? ∘ Mark.around z? = Mark.around (z'?.or z?) from
      funext (Mark.around_around z? z'?)] at this

end Occurrence
end Elementwise
