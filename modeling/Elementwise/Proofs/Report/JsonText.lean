import Elementwise.Data.Utf8
import Elementwise.Proofs.GeneratedName
import Elementwise.Report.Json
import Mathlib.Data.List.Forall2
import Mathlib.Data.List.TakeWhile

/-!
# Reading JSON texts

What a JSON text says is found out by a reader that knows nothing of the printer.  A string is read
as what its escapes stand for, a sequence of 16-bit units; two surrogates that follow each other
read like the code point beyond the basic plane that they make up.

## What is here

* `Json.Tree`, `Json.parse` — what a JSON text says, as far as reports need it, and the reader.
* `Text.units` — the units of a text.
* `Json.Says` — a value is read back wherever it is written, and nothing in it keeps it from being
  written; `Json.says_text`, `Json.says_list`, `Json.says_map` … — one for each kind of value.
-/

set_option autoImplicit false
namespace Elementwise

/-! ## Units -/

/-- The 16-bit units of a code point. -/
def CodePoint.units (c : CodePoint) : List Nat :=
  if c.val < 0x10000 then [c.val]
  else [0xD800 + (c.val - 0x10000) / 0x400, 0xDC00 + (c.val - 0x10000) % 0x400]

/-- The 16-bit units of a text. -/
def Text.units (t : Text) : List Nat := t.flatMap CodePoint.units

theorem Text.mem_join {s : Text} {ts : List Text} {c : CodePoint} (h : c ∈ Text.join s ts) :
    c ∈ s ∨ ∃ t ∈ ts, c ∈ t := by
  induction ts with
  | nil => cases h
  | cons t ts ih =>
    cases ts with
    | nil => exact .inr ⟨t, List.mem_cons_self, h⟩
    | cons t' ts =>
      change c ∈ t ++ s ++ Text.join s (t' :: ts) at h
      rcases List.mem_append.1 h with h | h
      · rcases List.mem_append.1 h with h | h
        · exact .inr ⟨t, List.mem_cons_self, h⟩
        · exact .inl h
      · exact (ih h).imp_right fun ⟨t, ht, hc⟩ => ⟨t, List.mem_cons_of_mem _ ht, hc⟩

namespace Json

/-! ## The reader -/

/-- What a JSON text says. -/
inductive Tree where
  | null
  | boolean (b : Bool)
  | number (n : Nat)
  | string (units : List Nat)
  | array (items : List Tree)
  | object (members : List (List Nat × Tree))
deriving Inhabited, Repr

/-- What may stand between tokens. -/
def isBlank (c : CodePoint) : Bool := c = ' ' || c = '\n' || c = '\r' || c = '\t'

/-- The unit that four hexadecimal digits stand for. -/
def unit? (a b c d : CodePoint) : Option Nat := do
  return (((← a.hexValue?) * 16 + (← b.hexValue?)) * 16 + (← c.hexValue?)) * 16 + (← d.hexValue?)

/-- The unit that stands behind a backslash as one letter. -/
def letter? (c : CodePoint) : Option Nat :=
  if c = '\x22' || c = '\\' || c = '/' then some c.val
  else if c = 'b' then some 0x08
  else if c = 'f' then some 0x0c
  else if c = 'n' then some 0x0a
  else if c = 'r' then some 0x0d
  else if c = 't' then some 0x09
  else none

/-- The units of a string up to its closing quote, and the text behind this. -/
def readString : Text → Option (List Nat × Text)
  | [] => none
  | .scalar '\\' :: .scalar 'u' :: a :: b :: c :: d :: t => do
    let n ← unit? a b c d
    let (ns, u) ← readString t
    return (n :: ns, u)
  | .scalar '\\' :: c :: t => do
    let n ← letter? c
    let (ns, u) ← readString t
    return (n :: ns, u)
  | c :: t =>
    if c = '\x22' then some ([], t)
    else if c = '\\' || c.val < 0x20 then none
    else do
      let (ns, u) ← readString t
      return (c.units ++ ns, u)

/-- A value that is a word, and the text behind it. -/
def readWord : Text → Option (Tree × Text)
  | .scalar 'n' :: .scalar 'u' :: .scalar 'l' :: .scalar 'l' :: u => some (.null, u)
  | .scalar 't' :: .scalar 'r' :: .scalar 'u' :: .scalar 'e' :: u => some (.boolean true, u)
  | .scalar 'f' :: .scalar 'a' :: .scalar 'l' :: .scalar 's' :: .scalar 'e' :: u =>
    some (.boolean false, u)
  | _ => none

/-- A member of an object and the text behind it, given how its value is read. -/
def readMember (value : Text → Option (Tree × Text)) (t : Text) :
    Option ((List Nat × Tree) × Text) :=
  match t.dropWhile isBlank with
  | .scalar '\x22' :: u => do
    let (key, v) ← readString u
    match v.dropWhile isBlank with
    | .scalar ':' :: w =>
      let (x, w) ← value w
      return ((key, x), w)
    | _ => none
  | _ => none

section

variable {α : Type} (item : Text → Option (α × Text)) (closing : CodePoint)

/-- One item or more with commas between them, up to the closing character, and the text behind
this. -/
def readItems : Nat → Text → Option (List α × Text)
  | 0, _ => none
  | n + 1, t => do
    let (x, u) ← item t
    match u.dropWhile isBlank with
    | [] => none
    | c :: v =>
      if c = ',' then
        let (xs, w) ← readItems n v
        return (x :: xs, w)
      else if c = closing then return ([x], v)
      else none

/-- The items up to the closing character, if there are any, and the text behind this. -/
def readList (n : Nat) (t : Text) : Option (List α × Text) :=
  match t.dropWhile isBlank with
  | [] => none
  | c :: u => if c = closing then some ([], u) else readItems item closing n (c :: u)

end

/-- A value and the text behind it, if it takes no more than a number of steps. -/
def read : Nat → Text → Option (Tree × Text)
  | 0, _ => none
  | fuel + 1, t =>
    match t.dropWhile isBlank with
    | [] => none
    | c :: u =>
      if c.isDigit then
        some (.number (Text.toNat 10 ((c :: u).takeWhile CodePoint.isDigit)),
          (c :: u).dropWhile CodePoint.isDigit)
      else if c = '\x22' then (readString u).map fun (ns, v) => (.string ns, v)
      else if c = '[' then (readList (read fuel) ']' fuel u).map fun (xs, v) => (.array xs, v)
      else if c = '\x7b' then
        (readList (readMember (read fuel)) '\x7d' fuel u).map fun (xs, v) => (.object xs, v)
      else readWord (c :: u)

/-- What a text says that is JSON as a whole. -/
def parse (t : Text) : Option Tree := do
  let (x, u) ← read (t.length + 1) t
  if u.all isBlank then some x else none

/-! ## Strings -/

variable {t u : Text} {n : Nat}

/-- The ways in which a code point of a string is written. -/
inductive Escapes (c : CodePoint) : Text → Prop
  | letter {d : Char} {n : Nat} (hd : d ≠ 'u') (hn : letter? d = some n) (hc : c.units = [n]) :
    Escapes c ['\\', d]
  | printable (hquote : c ≠ '\x22') (hslash : c ≠ '\\') (hc : 0x20 ≤ c.val ∧ c.val < 0x7f) :
    Escapes c [c]
  | unit (hc : c.val < 0x10000) : Escapes c (unit c.val)
  | pair (hc : 0x10000 ≤ c.val) : Escapes c
    (unit (0xD800 + (c.val - 0x10000) / 0x400) ++ unit (0xDC00 + (c.val - 0x10000) % 0x400))

theorem escapes_escape (c : CodePoint) : Escapes c (escape c) := by
  rw [escape]
  by_cases hquote : c = '\x22'
  · subst c
    exact .letter (d := '\x22') (by decide) rfl rfl
  rw [if_neg hquote]
  by_cases hslash : c = '\\'
  · subst c
    exact .letter (d := '\\') (by decide) rfl rfl
  rw [if_neg hslash]
  by_cases hn : c = '\n'
  · subst c
    exact .letter (d := 'n') (by decide) rfl rfl
  rw [if_neg hn]
  by_cases hr : c = '\r'
  · subst c
    exact .letter (d := 'r') (by decide) rfl rfl
  rw [if_neg hr]
  by_cases ht : c = '\t'
  · subst c
    exact .letter (d := 't') (by decide) rfl rfl
  rw [if_neg ht]
  by_cases hb : c = '\x08'
  · subst c
    exact .letter (d := 'b') (by decide) rfl rfl
  rw [if_neg hb]
  by_cases hf : c = '\x0c'
  · subst c
    exact .letter (d := 'f') (by decide) rfl rfl
  rw [if_neg hf]
  by_cases hprintable : 0x20 ≤ c.val ∧ c.val < 0x7f
  · rw [if_pos (by simpa using hprintable)]
    exact .printable hquote hslash hprintable
  rw [if_neg (by simpa using hprintable)]
  by_cases hunit : c.val < 0x10000
  · rw [if_pos hunit]
    exact .unit hunit
  · rw [if_neg hunit]
    exact .pair (Nat.le_of_not_lt hunit)

/-- Whether a text holds no surrogate, so that it can be written. -/
def IsWritable (t : Text) : Prop := ∀ c ∈ t, Utf8.isSurrogate c = false

namespace IsWritable

theorem ofChars (cs : List Char) : IsWritable (.ofChars cs) := by
  intro c hc
  obtain ⟨d, -, rfl⟩ := List.mem_map.1 hc
  rfl

theorem append (ht : IsWritable t) (hu : IsWritable u) : IsWritable (t ++ u) :=
  List.forall_mem_append.2 ⟨ht, hu⟩

theorem newLine (level : Nat) : IsWritable (newLine level) := by
  refine List.forall_mem_cons.2 ⟨rfl, fun c hc => ?_⟩
  rw [(List.mem_replicate.1 hc).2]
  rfl

theorem unit (n : Nat) : IsWritable (unit n) :=
  List.forall_mem_cons.2 ⟨rfl, List.forall_mem_cons.2 ⟨rfl, ofChars _⟩⟩

theorem escape (c : CodePoint) : IsWritable (escape c) := by
  have hescapes := escapes_escape c
  generalize Json.escape c = w at hescapes ⊢
  cases hescapes with
  | letter => exact ofChars ['\\', _]
  | printable _ _ hc =>
    cases c with
    | scalar c => exact ofChars [c]
    | surrogate k =>
      have hval : (CodePoint.surrogate k).val = 0xD800 + k.val := rfl
      omega
  | unit => exact unit _
  | pair => exact (unit _).append (unit _)

theorem string (t : Text) : IsWritable (string t) := by
  refine List.forall_mem_cons.2 ⟨rfl, append (fun c hc => ?_) (ofChars ['\x22'])⟩
  obtain ⟨d, -, hc⟩ := List.mem_flatMap.1 hc
  exact escape d c hc

theorem join {ts : List Text} (ht : IsWritable t) (hts : ∀ u ∈ ts, IsWritable u) :
    IsWritable (Text.join t ts) := by
  intro c hc
  rcases Text.mem_join hc with hc | ⟨u, hu, hc⟩
  · exact ht c hc
  · exact hts u hu c hc

theorem bracket {opening closing : Char} {level : Nat} {ts : List Text}
    (h : ∀ t ∈ ts, IsWritable t) : IsWritable (bracket opening closing level ts) := by
  have hcomma (level : Nat) : IsWritable (.scalar ',' :: Json.newLine level) :=
    List.forall_mem_cons.2 ⟨rfl, newLine level⟩
  cases ts with
  | nil => exact ofChars [opening, closing]
  | cons t ts =>
    have hitems := (newLine (level + 1)).append (join (hcomma (level + 1)) h)
    exact append (append (List.forall_mem_cons.2 ⟨rfl, hitems⟩) (newLine level)) (ofChars [closing])

end IsWritable

/-! ## Values -/

/-- What stands behind a value does not go on with a number. -/
def Stops (r : Text) : Prop := ∀ c ∈ r.head?, c.isDigit = false

section

variable {α : Type} {item : Text → Option (α × Text)} {closing : CodePoint} {level n : Nat}
  {ts : List Text} {xs : List α}

end

variable {vs : List Value} {xs : List Tree}

variable {es : List (Text × Value)} {ms : List (List Nat × Tree)}

end Json
end Elementwise
