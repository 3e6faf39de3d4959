import Elementwise.Compiler
import Elementwise.Token.Lexer
import Elementwise.Proofs.GeneratedName

/-!
# Words next to generated names

A parenthesis separates tokens without a blank: `return(this).p` is a `return` and a property.  The
property is replaced together with the parenthesis, so its new name stands directly behind the word,
and a reader takes the two for one name.  No keyword is left of the word, because the name holds an
underscore and no keyword does.

## What is here

* `Name.rest_append` — a name goes on as long as its characters do.
* `Reader.kind_word_generated` — a word and a generated name behind it are read as one name.
* `Compiler.compile_returned_property` — a routine whose `return` is lost that way.
-/

set_option autoImplicit false
namespace Elementwise

/-! ## Reading names -/

namespace Name

/-- Whether a code point goes on with a name by itself, without an escape. -/
def IsPlain (c : CodePoint) : Prop := c.isNamePart = true ∧ c ≠ '\\'

instance (c : CodePoint) : Decidable (IsPlain c) := inferInstanceAs (Decidable (_ ∧ _))

/-- **A name goes on as long as its characters do.** -/
theorem rest_append {w t : Text} (hw : ∀ c ∈ w, IsPlain c)
    (ht : ∀ c ∈ t.head?, c.isNamePart = false) {fuel : Nat} (hfuel : w.length + t.length ≤ fuel)
    (done : Text) (p : Place) :
    rest fuel done p (w ++ t) = .ok (done.reverse ++ w, p.step w.length, t) := by
  induction w generalizing fuel done p with
  | nil =>
    rw [List.append_nil]
    cases t with
    | nil => cases fuel <;> rfl
    | cons c t =>
      have hc : c.isNamePart = false := ht c rfl
      have hbackslash : c ≠ '\\' := by
        rintro rfl
        exact absurd hc (by decide)
      obtain ⟨fuel, rfl⟩ : ∃ n, fuel = n + 1 := ⟨fuel - 1, by simp at hfuel; omega⟩
      rw [List.nil_append, rest, if_neg hbackslash, hc]
      rfl
  | cons c w ih =>
    obtain ⟨hc, hbackslash⟩ := hw c (by simp)
    obtain ⟨fuel, rfl⟩ : ∃ n, fuel = n + 1 := ⟨fuel - 1, by simp at hfuel; omega⟩
    have hlater : rest fuel (c :: done) (p.step 1) (w ++ t) =
        .ok ((c :: done).reverse ++ w, (p.step 1).step w.length, t) :=
      ih (fun d hd => hw d (by simp [hd])) (by simp at hfuel; omega) (c :: done) (p.step 1)
    rw [List.cons_append, rest, if_neg hbackslash, if_pos hc, hlater]
    simp [Place.step, Nat.add_comm, Nat.add_left_comm]

/-- A name without escapes is read to its end. -/
theorem read_append {w t : Text} (hne : w ≠ []) (hw : ∀ c ∈ w, IsPlain c)
    (ht : ∀ c ∈ t.head?, c.isNamePart = false) (p : Place) :
    read p (w ++ t) = .ok (w, p.step w.length, t) := by
  cases w with
  | nil => exact absurd rfl hne
  | cons c w =>
    obtain ⟨-, hbackslash⟩ := hw c (by simp)
    rw [List.cons_append, read, if_neg hbackslash,
      rest_append (fun d hd => hw d (by simp [hd])) ht (by simp) [c] (p.step 1)]
    simp [Place.step, Nat.add_comm, Nat.add_left_comm]

/-- No reserved word holds an underscore. -/
theorem classify_of_underscore_mem {name : Text} (h : underscore ∈ name) :
    classify name = .identifier name := by
  have hword : ∀ k : Keyword, underscore ∉ k.text := by
    intro k
    cases k <;> decide
  have hkeyword : Keyword.ofText? name = none := by
    rw [Keyword.ofText?, List.find?_eq_none]
    rintro k - hk
    rw [← of_decide_eq_true hk] at h
    exact hword k h
  rw [classify, if_neg, if_neg, if_neg, hkeyword] <;>
  · rintro rfl
    exact absurd h (by decide)

end Name

/-! ## Generated names behind words -/

theorem isPlain_propertyName {p : Text} (hp : ∀ c ∈ p, Name.IsPlain c) :
    ∀ c ∈ Namer.propertyName p, Name.IsPlain c := by
  intro c hc
  rcases List.mem_append.1 hc with hc | hc
  · have hword : ∀ d ∈ Namer.propertyWord, Name.IsPlain d := by decide
    exact hword c hc
  · obtain ⟨d, hd, hcd⟩ := List.mem_flatMap.1 hc
    obtain rfl : c = d := by
      split at hcd <;> simpa using hcd
    exact hp c hd

/-- **A word and a generated name behind it are read as one name**, whatever the word is.  The
generated name is found as it was written only if there is no word. -/
theorem Reader.kind_word_generated (r : Reader) {w p t : Text}
    (hrest : r.rest = w ++ Namer.propertyName p ++ t)
    (hstart : ∀ c ∈ w.head?, c.isNameStart = true) (hw : ∀ c ∈ w, Name.IsPlain c)
    (hp : ∀ c ∈ p, Name.IsPlain c) (ht : ∀ c ∈ t.head?, c.isNamePart = false) :
    r.kind = .ok (.identifier (w ++ Namer.propertyName p),
      r.place.step (w ++ Namer.propertyName p).length, t) := by
  have hunderscore : underscore ∈ w ++ Namer.propertyName p :=
    List.mem_append_right _ (List.mem_append_left _ (by decide))
  have hplain : ∀ c ∈ w ++ Namer.propertyName p, Name.IsPlain c := by
    intro c hc
    rcases List.mem_append.1 hc with hc | hc
    · exact hw c hc
    · exact isPlain_propertyName hp c hc
  have hne : w ++ Namer.propertyName p ≠ [] := List.ne_nil_of_mem hunderscore
  have htoken : Name.token r.place (w ++ Namer.propertyName p ++ t) =
      .ok (.identifier (w ++ Namer.propertyName p),
        r.place.step (w ++ Namer.propertyName p).length, t) := by
    rw [Name.token, Name.read_append hne hplain ht]
    simp only [Name.classify_of_underscore_mem hunderscore]
  obtain ⟨c, cs, hcs⟩ : ∃ c cs, w ++ Namer.propertyName p ++ t = c :: cs :=
    List.exists_cons_of_ne_nil (List.append_ne_nil_of_left_ne_nil hne t)
  have hc : c.isNameStart = true := by
    cases w with
    | nil =>
      obtain rfl : CodePoint.scalar 't' = c := (List.cons.inj hcs).1
      decide
    | cons d w => exact hstart c (by rw [(List.cons.inj hcs).1]; rfl)
  rw [Reader.kind, hrest, hcs]
  simp only [hc, if_true]
  rw [← hcs, htoken]

/-- The kinds of the statements that a function's body is made of. -/
def AnchoredFunction.statementKinds (f : AnchoredFunction) : List String :=
  match f.body with
  | .block _ statements => statements.map Node.typeName
  | e => [e.typeName]

/-- The routine `function(){return(this).p}` returns a property, and its flattened body, read as the
body of a function, does not return anything. -/
theorem Compiler.compile_returned_property :
    let source := Text.ofChars ['f', 'u', 'n', 'c', 't', 'i', 'o', 'n', '(', ')', '\x7b', 'r', 'e',
      't', 'u', 'r', 'n', '(', 't', 'h', 'i', 's', ')', '.', 'p', '\x7d']
    let c : Compiler := ⟨Config.default, Config.defaultStem, fun _ => false⟩
    let body :=
      Text.ofChars ['\x7b', 'r', 'e', 't', 'u', 'r', 'n', 't', 'h', 'i', 's', '_', 'p', '\x7d']
    (c.compile (.value (.text source)) {}).1.toOption.map CompiledRoutine.body = some body ∧
      (anchor source).toOption.map AnchoredFunction.statementKinds = some ["ReturnStatement"] ∧
      (anchor
        (.ofChars ['f', 'u', 'n', 'c', 't', 'i', 'o', 'n', '(', ')', ' '] ++ body)).toOption.map
        AnchoredFunction.statementKinds = some ["ExpressionStatement"] := by
  decide +kernel

end Elementwise
