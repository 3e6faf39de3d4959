import Elementwise.Config.File
import Elementwise.Proofs.ConfiguredName

/-!
# The text of a configuration file

A name has no character that means anything to a file, so it is written as it is, unless it would be
read as something else than a text; then it stands in single quotes.  A text that is taken for a
name may end in a line feed, and quotes keep that as an empty line.

Whether a name needs quotes is never looked into here: what matters is that either way it is found
again.

## What is here

* `Config.writtenScalar`, `Config.writtenItem` — a name in a file, and a line with one.
* `Yaml.Pen.Behind` — the pen behind something written, all that matters about it.
* `Config.toText_eq` — the text of the file of a valid configuration.
-/

set_option autoImplicit false
namespace Elementwise

namespace Config

/-! ## What is written -/

/-- How a text that is taken for a name is written: as it is, or in single quotes.  A line feed in
quotes is written as an empty line, and the quote stands on a line of its own behind that. -/
def writtenScalar (t : Text) : Text :=
  if Yaml.Style.fitsPlain t then t
  else if t.getLast? = some (.scalar '\n') then
    .scalar '\x27' :: t ++ .ofChars ['\n', ' ', ' ', '\x27']
  else .scalar '\x27' :: t ++ [.scalar '\x27']

/-- The line of a global. -/
def writtenItem (name : Text) : Text :=
  .ofChars ['-', ' '] ++ writtenScalar name ++ [.scalar '\n']

/-- The list of globals behind its key. -/
def writtenGlobals (names : List Text) : Text :=
  if names.isEmpty then .ofChars [' ', '[', ']', '\n']
  else .scalar '\n' :: names.flatMap writtenItem

end Config

/-! ## The pen -/

namespace Yaml
namespace Pen

/-- **The pen stands behind something**, and this is all that is written. -/
structure Behind (w : Text) (p : Pen) : Prop where
  written : p.written = w
  afterBlank : p.afterBlank = false
  inIndentation : p.inIndentation = false

theorem Behind.inLine {w : Text} {p : Pen} (h : p.written = w) : Behind w p.inLine := ⟨h, rfl, rfl⟩

theorem Behind.write {w : Text} {p : Pen} (h : Behind w p) (t : Text) :
    Behind (w ++ t) (p.write t) := by
  refine ⟨?_, h.afterBlank, h.inIndentation⟩
  rw [Pen.write, h.written]

theorem Behind.blank {w : Text} {p : Pen} (h : Behind w p) :
    p.blank.written = w ++ [.scalar ' '] := by
  rw [Pen.blank, h.afterBlank, if_neg Bool.false_ne_true]
  exact congrArg (· ++ _) h.written

/-- A line of its own begins with a line feed. -/
theorem Behind.indentTo_zero {w : Text} {p : Pen} (h : Behind w p) :
    p.indentTo 0 = ⟨w ++ [.scalar '\n'], 0, true, true⟩ := by
  rw [indentTo, h.inIndentation, ← h.written]
  rfl

/-! ## Scalars -/

/-- Characters that are neither blanks nor line feeds stand in one run. -/
theorem runs_of_forall {c : CodePoint} {t : Text}
    (h : ∀ d ∈ c :: t, (d != ' ') = true ∧ (d != '\n') = true) : runs (c :: t) = [c :: t] := by
  induction t generalizing c with
  | nil => rfl
  | cons d t ih =>
    obtain ⟨hc, hc'⟩ := h c (List.mem_cons_self ..)
    obtain ⟨hd, hd'⟩ := h d (List.mem_cons_of_mem _ (List.mem_cons_self ..))
    rw [runs, ih fun e he => h e (List.mem_cons_of_mem _ he)]
    simp only [hc, hc', hd, hd', Bool.and_self, Bool.or_true, if_true]

theorem runs_lineFeed {c : CodePoint} {t : Text}
    (h : ∀ d ∈ c :: t, (d != ' ') = true ∧ (d != '\n') = true) :
    runs (c :: t ++ [.scalar '\n']) = [c :: t, [.scalar '\n']] := by
  induction t generalizing c with
  | nil =>
    obtain ⟨hc, hc'⟩ := h c (List.mem_cons_self ..)
    have hne : (decide (c = '\n')) = false := decide_eq_false (bne_iff_ne.1 hc')
    rw [List.singleton_append, runs]
    simp [runs, hne]
  | cons d t ih =>
    obtain ⟨hc, hc'⟩ := h c (List.mem_cons_self ..)
    obtain ⟨hd, hd'⟩ := h d (List.mem_cons_of_mem _ (List.mem_cons_self ..))
    have hrest := ih fun e he => h e (List.mem_cons_of_mem _ he)
    rw [List.cons_append] at hrest
    rw [List.cons_append, List.cons_append, runs, hrest]
    simp only [hc, hc', hd, hd', Bool.and_self, Bool.or_true, if_true]

end Pen
end Yaml

namespace Config

theorem bne_of_isName {name : Text} (h : isName name = true) :
    ∀ d ∈ name, (d != ' ') = true ∧ (d != '\n') = true := by
  intro d hd
  have hcontinues := all_continuesName h d hd
  exact ⟨bne_iff_ne.2 (ne_of_continuesName hcontinues rfl),
    bne_iff_ne.2 (ne_of_continuesName hcontinues rfl)⟩

theorem isOrdinary_of_continuesName {c : CodePoint} (h : continuesName c = true) :
    Yaml.Style.isOrdinary c = true :=
  forall_continuesName Yaml.Style.isOrdinary (by decide) h

theorem not_hasBlankAtLineEnd {t : Text} (h : ∀ c ∈ t, c ≠ .scalar ' ') :
    Yaml.Style.hasBlankAtLineEnd t = false := by
  induction t with
  | nil => rfl
  | cons c t ih =>
    cases t with
    | nil => rfl
    | cons d t =>
      have hc : decide (c = ' ') = false := decide_eq_false (h c (List.mem_cons_self ..))
      have hd : decide (d = ' ') = false :=
        decide_eq_false (h d (List.mem_cons_of_mem _ (List.mem_cons_self ..)))
      rw [Yaml.Style.hasBlankAtLineEnd, ih fun e he => h e (List.mem_cons_of_mem _ he), hc, hd,
        Bool.false_and, Bool.and_false, Bool.or_false, Bool.or_false]

/-- Whatever is taken for a name has printable characters only, but for the line feed. -/
theorem isOrdinary_of_isAcceptedName {t : Text} (h : isAcceptedName t = true) :
    ∀ c ∈ t, Yaml.Style.isOrdinary c = true := by
  rcases isAcceptedName_iff.1 h with hname | ⟨name, hname, rfl⟩
  · exact fun c hc => isOrdinary_of_continuesName (all_continuesName hname c hc)
  · intro c hc
    rcases List.mem_append.1 hc with hc | hc
    · exact isOrdinary_of_continuesName (all_continuesName hname c hc)
    · rw [List.mem_singleton.1 hc]
      rfl

/-- Single quotes keep whatever is taken for a name. -/
theorem fitsSingle_of_isAcceptedName {t : Text} (h : isAcceptedName t = true) :
    Yaml.Style.fitsSingle t = true := by
  have hblank : ∀ c ∈ t, c ≠ .scalar ' ' := by
    rcases isAcceptedName_iff.1 h with hname | ⟨name, hname, rfl⟩
    · exact fun c hc => ne_of_continuesName (all_continuesName hname c hc) rfl
    · intro c hc
      rcases List.mem_append.1 hc with hc | hc
      · exact ne_of_continuesName (all_continuesName hname c hc) rfl
      · rw [List.mem_singleton.1 hc]
        decide
  rw [Yaml.Style.fitsSingle, List.all_eq_true.2 (isOrdinary_of_isAcceptedName h),
    not_hasBlankAtLineEnd hblank]
  rfl

/-- Nothing with a line feed in it stands without quotes. -/
theorem isName_of_fitsPlain {t : Text} (h : isAcceptedName t = true)
    (hplain : Yaml.Style.fitsPlain t = true) : isName t = true := by
  rcases isAcceptedName_iff.1 h with hname | ⟨name, hname, rfl⟩
  · exact hname
  · simp [Yaml.Style.fitsPlain] at hplain

end Config

namespace Yaml
namespace Pen

open Config

theorem mark_written (c : CodePoint) (p : Pen) : (p.mark c).written = p.blank.written ++ [c] := rfl

/-- Without quotes a name is written as it is. -/
theorem plain_behind {t : Text} (h : isName t = true) (isKey : Bool) (indent : Nat) (p : Pen) :
    Behind (p.blank.written ++ t) (p.plain isKey indent t) := by
  cases t with
  | nil => cases h
  | cons c t =>
    have hne : c :: t ≠ [.scalar ' '] := by
      intro heq
      have hc := (bne_of_isName h c (List.mem_cons_self ..)).1
      rw [(List.cons.inj heq).1] at hc
      cases hc
    rw [plain, List.isEmpty_cons, if_neg Bool.false_ne_true, plainRuns,
      runs_of_forall (bne_of_isName h),
      List.foldl_cons, List.foldl_nil, decide_eq_false hne, Bool.false_and, Bool.false_and,
      if_neg Bool.false_ne_true]
    exact (Behind.inLine rfl).write _

/-- In single quotes no character of a name is doubled. -/
theorem expand_of_isName {t : Text} (h : isName t = true) :
    (t.expand fun c => if c = '\x27' then [c, c] else [c]) = t := by
  have hall := all_continuesName h
  rw [Text.expand]
  clear h
  induction t with
  | nil => rfl
  | cons c t ih =>
    rw [List.flatMap_cons, ih fun d hd => hall d (List.mem_cons_of_mem _ hd),
      if_neg (ne_of_continuesName (hall c (List.mem_cons_self ..)) rfl)]
    rfl

/-- In single quotes a name is written as it is, and a line feed behind it as an empty line. -/
theorem single_behind {t : Text} (h : isAcceptedName t = true)
    (hplain : Style.fitsPlain t = false) (isKey : Bool) (p : Pen) :
    Behind (p.blank.written ++ writtenScalar t) (p.single isKey 2 t) := by
  have hfirst {name : Text} (hname : isName name = true) (more : List Text) (q : Pen) :
      singleRuns isKey 2 true (name :: more) q =
        singleRuns isKey 2 false more (q.write name) := by
    have hhead : name.head? ≠ some (.scalar '\n') := by
      intro hhead
      have hmem := (bne_of_isName hname _ (List.mem_of_mem_head? hhead)).2
      cases hmem
    have hblank : name ≠ [.scalar ' '] := by
      rintro rfl
      cases hname
    rw [singleRuns, if_neg hhead, decide_eq_false hblank, expand_of_isName hname]
    rfl
  rw [writtenScalar, hplain, if_neg Bool.false_ne_true, single]
  rcases isAcceptedName_iff.1 h with hname | ⟨name, hname, rfl⟩
  · have hlast : t.getLast? ≠ some (.scalar '\n') := by
      intro hlast
      have hmem := (bne_of_isName hname _ (List.mem_of_getLast? hlast)).2
      cases hmem
    have hruns : runs t = [t] := by
      cases t with
      | nil => cases hname
      | cons c t => exact runs_of_forall (bne_of_isName hname)
    rw [if_neg hlast, hruns, hfirst hname, singleRuns]
    refine Behind.inLine ?_
    simp [write, inLine, mark_written]
  · have hruns : runs (name ++ [.scalar '\n']) = [name, [.scalar '\n']] := by
      cases name with
      | nil => cases hname
      | cons c t => exact runs_lineFeed (bne_of_isName hname)
    rw [if_pos (List.getLast?_concat ..), hruns, hfirst hname, singleRuns, List.head?_cons,
      if_pos rfl, singleRuns]
    refine Behind.inLine ?_
    simp [write, inLine, mark_written, lineFeed, indentTo, Text.ofChars]

/-- **A name is written**: behind a blank, in one of the two ways. -/
theorem text_behind {t : Text} (h : isAcceptedName t = true) (isKey : Bool) (p : Pen) :
    Behind (p.blank.written ++ writtenScalar t) (p.text isKey 2 t) := by
  rw [text, Style.ofText]
  cases hplain : Style.fitsPlain t with
  | true =>
    rw [writtenScalar, hplain]
    exact plain_behind (isName_of_fitsPlain h hplain) isKey 2 p
  | false =>
    rw [if_neg Bool.false_ne_true, if_pos (fitsSingle_of_isAcceptedName h)]
    exact single_behind h hplain isKey p

/-! ## Lines -/

/-- The items of a list, each on a line of its own. -/
theorem items_behind {names : List Text} (h : ∀ name ∈ names, isAcceptedName name = true)
    {w : Text} {p : Pen} (hp : Behind w p) :
    Behind (w ++ names.flatMap fun name => .ofChars ['\n', '-', ' '] ++ writtenScalar name)
      (items 0 (names.map .text) p) := by
  induction names generalizing w p with
  | nil =>
    rw [List.flatMap_nil, List.append_nil]
    exact hp
  | cons name names ih =>
    have hitem := text_behind (h name (List.mem_cons_self ..)) false ((p.indentTo 0).mark '-')
    have hblank : ((p.indentTo 0).mark '-').blank.written =
        w ++ .ofChars ['\n', '-', ' '] := by
      rw [hp.indentTo_zero]
      simp [mark, blank, write, Text.ofChars]
    rw [hblank, List.append_assoc] at hitem
    rw [List.map_cons, items, value, List.flatMap_cons, ← List.append_assoc]
    exact ih (fun n hn => h n (List.mem_cons_of_mem _ hn)) hitem

/-- A key that needs no quotes, on a line of its own. -/
theorem key_behind {t : Text} (h : isName t = true) (hplain : Style.fitsPlain t = true)
    (hsimple : isSimpleKey t = true) {p : Pen} (hp : p.afterBlank = true) :
    Behind (p.written ++ t ++ [.scalar ':']) (key 0 t p) := by
  rw [key, if_pos hsimple, text, Style.ofText, if_pos hplain]
  have hkey := plain_behind h true (0 + 2) p
  rw [blank, hp, if_pos rfl] at hkey
  exact Behind.inLine (hkey.write _).written

end Pen
end Yaml

namespace Config

open Yaml

theorem flatMap_writtenItem (names : List Text) :
    (names.flatMap fun name => .ofChars ['\n', '-', ' '] ++ writtenScalar name) ++
        [.scalar '\n'] =
      .scalar '\n' :: names.flatMap writtenItem := by
  induction names with
  | nil => rfl
  | cons name names ih =>
    rw [List.flatMap_cons, List.append_assoc, ih, List.flatMap_cons, writtenItem]
    simp [Text.ofChars]

theorem orderedAll_texts (names : List Text) :
    orderedAll (names.map .text) = names.map .text := by
  induction names with
  | nil => rfl
  | cons name names ih =>
    have hname : ordered (.text name) = .text name := by simp only [ordered]
    rw [List.map_cons, orderedAll, ih, hname]

/-- The globals behind their key. -/
theorem globals_behind {globals : List Text}
    (h : ∀ name ∈ globals, isAcceptedName name = true) {w : Text} {p : Pen}
    (hp : p.Behind w) :
    ((Pen.value 0 true (.list (globals.map .text)) p).indentTo 0) =
      ⟨w ++ writtenGlobals globals, 0, true, true⟩ := by
  cases globals with
  | nil =>
    rw [List.map_nil, Pen.value, Pen.emptyPair]
    have hpair : ((p.blank.write ['[', ']']).inLine).Behind (w ++ .ofChars [' ', '[', ']']) := by
      refine Pen.Behind.inLine ?_
      rw [Pen.write, hp.blank, List.append_assoc]
      rfl
    rw [hpair.indentTo_zero, List.append_assoc]
    rfl
  | cons name globals =>
    have hitems := Pen.items_behind h hp
    rw [List.map_cons, Pen.value, hp.inIndentation, ← List.map_cons]
    · rw [Bool.not_false, Bool.and_true, if_pos rfl, hitems.indentTo_zero, List.append_assoc,
        flatMap_writtenItem]
      rfl
    · exact List.cons_ne_nil _ _

/-- **The text of the file of a configuration**: its globals, a line for each, and its stem. -/
theorem toText_eq {globals : List Text} {stem : Text}
    (hglobals : ∀ name ∈ globals, isAcceptedName name = true)
    (hstem : isAcceptedName stem = true) :
    toText ⟨globals, .text stem⟩ =
      globalsKey ++ [.scalar ':'] ++ writtenGlobals globals ++ stemKey ++ [.scalar ':'] ++
        [.scalar ' '] ++ writtenScalar stem ++ [.scalar '\n'] := by
  have hglobalsKey : (Pen.key 0 globalsKey {}).Behind (globalsKey ++ [.scalar ':']) :=
    Pen.key_behind (t := globalsKey) (p := {}) (by decide) (by decide) (by decide) rfl
  have hstemKey : ∀ w, (Pen.key 0 stemKey ⟨w, 0, true, true⟩).Behind
      (w ++ stemKey ++ [.scalar ':']) :=
    fun w =>
      Pen.key_behind (t := stemKey) (p := ⟨w, 0, true, true⟩) (by decide) (by decide)
        (by decide) rfl
  have hvalue := fun w => Pen.text_behind hstem false (Pen.key 0 stemKey ⟨w, 0, true, true⟩)
  have hstart : ({} : Pen).indentTo 0 = {} := rfl
  rw [toText, document]
  simp only [List.map_cons, List.map_nil, ordered, orderedAll_texts, Pen.entries, Value.text?,
    Option.orElse_some, Option.getD_some, hstart, globals_behind hglobals hglobalsKey]
  rw [Pen.value, (hvalue _).indentTo_zero, (hstemKey _).blank]

end Config
end Elementwise
