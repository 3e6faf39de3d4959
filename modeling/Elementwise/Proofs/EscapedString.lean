import Elementwise.Proofs.WrittenString

/-!
# Strings between single quotes

A string is written code point by code point, and the special ones get a backslash in front.  They
can as well be replaced one kind after another, if the backslash comes first: what is written for it
holds no other special character, and the backslashes that are written later are not met again.
What comes out is a literal that lies on one line, ends where its last quote stands, and has the
string as its value.

## What is here

* `Text.replaceInTurn`, `stringEscapes` — replacing one kind after another, and the special
  characters of strings.
* `replaceInTurn_stringEscapes` — it is the same as writing a string code point by code point.
* `Reader.kind_quoted` — the literal of any string is read back as this string, and no further.
-/

set_option autoImplicit false
namespace Elementwise

namespace Text

/-- Puts a text in every place of a code point. -/
def replaceAll (t : Text) (c : CodePoint) (u : Text) : Text :=
  t.flatMap fun d => if d = c then u else [d]

/-- Replaces code points, one kind after another. -/
def replaceInTurn : List (CodePoint × Text) → Text → Text
  | [], t => t
  | (c, u) :: pairs, t => replaceInTurn pairs (t.replaceAll c u)

/-- Replacing one kind after another treats every code point of the text on its own. -/
theorem replaceInTurn_eq_flatMap (pairs : List (CodePoint × Text)) (t : Text) :
    replaceInTurn pairs t = t.flatMap fun c => replaceInTurn pairs [c] := by
  induction pairs generalizing t with
  | nil => exact (List.flatMap_singleton' t).symm
  | cons pair pairs ih =>
    obtain ⟨c, u⟩ := pair
    rw [replaceInTurn, ih, replaceAll, List.flatMap_assoc]
    refine List.flatMap_congr fun d _ => ?_
    rw [replaceInTurn, ih, replaceAll, List.flatMap_singleton]

end Text

/-- The code points that do not stand for themselves in a string, and what is written for them.  The
backslash comes first. -/
def stringEscapes : List (CodePoint × Text) :=
  [('\\', .ofChars ['\\', '\\']), ('\x27', .ofChars ['\\', '\x27']),
    ('\n', .ofChars ['\\', 'n']), ('\r', .ofChars ['\\', 'r']),
    ('\u2028', .ofChars ['\\', 'u', '2', '0', '2', '8']),
    ('\u2029', .ofChars ['\\', 'u', '2', '0', '2', '9']), ('_', .ofChars ['\\', '_'])]

theorem replaceInTurn_singleton (c : CodePoint) :
    Text.replaceInTurn stringEscapes [c] = escapeStringChar c := by
  unfold escapeStringChar
  split
  case h_8 h₁ h₂ h₃ h₄ h₅ h₆ h₇ =>
    simp [stringEscapes, Text.replaceInTurn, Text.replaceAll, eq_false h₁, eq_false h₂,
      eq_false h₃, eq_false h₄, eq_false h₅, eq_false h₆, eq_false h₇]
  all_goals rfl

/-- **The special characters can be replaced one kind after another**, the backslash first. -/
theorem replaceInTurn_stringEscapes (v : Text) :
    Text.replaceInTurn stringEscapes v = v.flatMap escapeStringChar := by
  rw [Text.replaceInTurn_eq_flatMap]
  exact List.flatMap_congr fun c _ => replaceInTurn_singleton c

/-- What is written for a code point stays on its line. -/
theorem isLineTerminator_escapeStringChar {c d : CodePoint} (h : d ∈ escapeStringChar c) :
    d.isLineTerminator = false := by
  unfold escapeStringChar at h
  split at h
  case h_8 h₃ h₄ h₅ h₆ _ =>
    obtain rfl := List.mem_singleton.1 h
    cases d with
    | surrogate k => rfl
    | scalar d =>
      simp only [CodePoint.isLineTerminator, Bool.or_eq_false_iff, beq_eq_false_iff_ne]
      refine ⟨⟨⟨?_, ?_⟩, ?_⟩, ?_⟩ <;> rintro rfl <;> contradiction
  all_goals
    revert d
    decide

/-- **The literal of any string is read back as this string, and no further.**  It is what comes out
when the special characters are replaced one kind after another, and it lies on one line.  A reader
that stands at its first quote reads it up to its last one, whatever follows, and takes it for a
string with this value and no octal escape. -/
theorem Reader.kind_quoted (v : Text) :
    escapeString v = .scalar '\x27' :: Text.replaceInTurn stringEscapes v ++ [.scalar '\x27'] ∧
    (∀ c ∈ escapeString v, c.isLineTerminator = false) ∧
    ∀ (t : Text) (p : Place) (braces : List Brace),
      Reader.kind ⟨p, escapeString v ++ t, braces⟩ =
        .ok (.string v (Text.replaceInTurn stringEscapes v) false,
          p.step (escapeString v).length, t) := by
  rw [replaceInTurn_stringEscapes]
  refine ⟨rfl, fun c hc => ?_, fun t p braces => ?_⟩
  · rw [escapeString, List.cons_append, List.mem_cons, List.mem_append, List.mem_singleton] at hc
    rcases hc with rfl | hc | rfl
    · rfl
    · obtain ⟨d, -, hd⟩ := List.mem_flatMap.1 hc
      exact isLineTerminator_escapeStringChar hd
    · rfl
  · rw [escapeString_append]
    exact StringLiteral.token_escaped v t p

/-- A backslash, a quote and an underscore in a row get one backslash each. -/
example : escapeString (.ofChars ['\\', '\x27', '_']) =
    .ofChars ['\x27', '\\', '\\', '\\', '\x27', '\\', '_', '\x27'] := by decide

end Elementwise
