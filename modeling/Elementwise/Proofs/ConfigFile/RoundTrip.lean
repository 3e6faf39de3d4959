import Elementwise.Proofs.ConfigFile.Nodes
import Elementwise.Proofs.SourceFile

/-!
# Saving a configuration and loading it again

The nodes of the file of a configuration stand for a mapping from the two keys to the globals and to
the stem.  The globals that are loaded replace the default ones even if there are none, and none are
added, so what is loaded is the configuration that was saved.

* `Yaml.Building.configParts` — what the nodes stand for.
* `Config.load_toText` — a valid configuration is loaded as it was saved.
-/

set_option autoImplicit false
namespace Elementwise
namespace Yaml
namespace Building

variable {g : Graph} {l r : List (Option Part)} {c : Array Nat}

/-- The part of a text. -/
def textPart (t : Text) : Option Part := some (.leaf (.text t))

theorem setIfInBounds_middle (x y : Option Part) :
    (l ++ x :: r).toArray.setIfInBounds l.length y = (l ++ y :: r).toArray := by
  simp

/-- The part of a text node is built when it is met. -/
theorem meet_text {t : Text} (hnode : g.nodeAt l.length = .scalar .text t) :
    (meet l.length).run ⟨g, (l ++ none :: r).toArray, c⟩ =
      .ok ((), ⟨g, (l ++ textPart t :: r).toArray, c⟩) := by
  rw [← setIfInBounds_middle none (textPart t)]
  simp [meet, hnode, setPart, Node.kind, Kind.isCollection, leafValue, textOf?, scalarValue]
  rfl

/-- The parts of text nodes that stand one behind the other are built when they are met in order. -/
theorem forM_meet_texts {names : List Text}
    (hnodes : ∀ j (hj : j < names.length), g.nodeAt (l.length + j) = .scalar .text names[j]) :
    ((List.range' l.length names.length).forM meet).run
        ⟨g, (l ++ List.replicate names.length none ++ r).toArray, c⟩ =
      .ok ((), ⟨g, (l ++ names.map textPart ++ r).toArray, c⟩) := by
  induction names generalizing l with
  | nil => rfl
  | cons name names ih =>
    have hfirst : (meet l.length).run
        ⟨g, (l ++ none :: (List.replicate names.length none ++ r)).toArray, c⟩ =
        .ok ((), ⟨g, (l ++ textPart name :: (List.replicate names.length none ++ r)).toArray,
          c⟩) :=
      meet_text (hnodes 0 (Nat.zero_lt_succ _))
    have hrest := ih (l := l ++ [textPart name]) fun j hj => by
      have hnode := hnodes (j + 1) (Nat.succ_lt_succ hj)
      rw [List.length_append, List.length_singleton, Nat.add_assoc, Nat.add_comm 1]
      exact hnode
    simp only [List.length_append, List.length_singleton, List.append_assoc,
      List.singleton_append] at hrest
    simp only [List.length_cons, List.range'_succ, List.replicate_succ, List.map_cons,
      List.append_assoc, List.cons_append] at hrest ⊢
    change (do
      meet l.length
      (List.range' (l.length + 1) names.length).forM meet : Step Unit).run _ = _
    rw [run_bind_of_ok hfirst]
    exact hrest

/-! ## The parts of a file -/

section File

variable (globals : List Text) (stem : Text)

/-- The graph of the file of a configuration. -/
def configGraph : Graph := ⟨(configNodes globals stem).toArray, 0⟩

/-- The entries of the file, the values given by their numbers. -/
def configEntries : List (Value × Nat) :=
  [(.text Config.globalsKey, 2), (.text Config.stemKey, globals.length + 4)]

/-- What the nodes of the file stand for. -/
def configParts : List (Option Part) :=
  some (.map (configEntries globals)) :: textPart Config.globalsKey ::
    some (.list (List.range' 3 globals.length)) ::
      (globals.map textPart ++ [textPart Config.stemKey, textPart stem])

theorem nodeAt_global {j : Nat} (hj : j < globals.length) :
    (configGraph globals stem).nodeAt (3 + j) = .scalar .text globals[j] := by
  rw [Nat.add_comm]
  simp [Graph.nodeAt, configGraph, configNodes, Graph.textNodes, List.getElem?_append_left, hj]

theorem nodeAt_stemKey :
    (configGraph globals stem).nodeAt (globals.length + 3) = .scalar .text Config.stemKey := by
  simp [Graph.nodeAt, configGraph, configNodes, Graph.textNodes]

theorem nodeAt_stem :
    (configGraph globals stem).nodeAt (globals.length + 4) = .scalar .text stem := by
  simp [Graph.nodeAt, configGraph, configNodes, Graph.textNodes]

/-- Nothing is merged, and no key is the default one. -/
theorem flatten_config (fuel : Nat) (parts : Array (Option Part)) (collections : Array Nat) :
    (flatten (fuel + 1) 0).run ⟨configGraph globals stem, parts, collections⟩ =
      .ok ((), ⟨configGraph globals stem, parts, collections⟩) := by
  have hroot : (configGraph globals stem).nodeAt 0 =
      .mapping .mapping [(1, 2), (globals.length + 3, globals.length + 4)] := rfl
  have hkey : (configGraph globals stem).nodeAt 1 = .scalar .text Config.globalsKey := rfl
  simp [flatten, entriesAt, nodeAt, hroot, hkey, nodeAt_stemKey, plainKey, Node.kind]
  rfl

/-- Builds the key of an entry and meets its value. -/
def keyedEntry (e : Nat × Nat) : Step (Value × Nat) := do
  meet e.1
  match (← get).parts[e.1]?.getD none with
  | some (.leaf key) =>
    meet e.2
    return (key, e.2)
  | _ => malformed

theorem keyedEntry_run {k v : Nat} {key : Text} {s₁ s₂ s₃ : Building}
    (hk : (meet k).run s₁ = .ok ((), s₂)) (hpart : s₂.parts[k]?.getD none = textPart key)
    (hv : (meet v).run s₂ = .ok ((), s₃)) :
    (keyedEntry (k, v)).run s₁ = .ok ((.text key, v), s₃) := by
  rw [keyedEntry, run_bind_of_ok hk]
  change (match s₂.parts[k]?.getD none with
    | some (.leaf key) => do
      meet v
      return (key, v)
    | _ => malformed : Step (Value × Nat)).run s₂ = _
  rw [hpart]
  change (do
    meet v
    return (.text key, v) : Step (Value × Nat)).run s₂ = _
  rw [run_bind_of_ok hv]
  rfl

/-- The entries of the file have their keys built, and their values met. -/
theorem keyedEntries_config :
    (keyedEntries 0).run ⟨configGraph globals stem,
        (some (.map []) :: List.replicate (globals.length + 4) none).toArray, #[0]⟩ =
      .ok (configEntries globals, ⟨configGraph globals stem,
        (some (.map []) :: textPart Config.globalsKey :: some (.list []) ::
          (List.replicate globals.length none ++
            [textPart Config.stemKey, textPart stem])).toArray, #[0, 2]⟩) := by
  let state (key list : Option Part) (rest : List (Option Part)) (cs : Array Nat) : Building :=
    ⟨configGraph globals stem,
      ([some (Part.map []), key, list] ++ List.replicate globals.length none ++ rest).toArray, cs⟩
  have hlength (key list : Option Part) (rest : List (Option Part)) :
      ([some (Part.map []), key, list] ++ List.replicate globals.length none ++ rest).length =
        globals.length + 3 + rest.length := by
    simp only [List.length_append, List.length_replicate, List.length_cons, List.length_nil]
    omega
  have hkey : (meet 1).run (state none none [none, none] #[0]) =
      .ok ((), state (textPart Config.globalsKey) none [none, none] #[0]) :=
    @meet_text _ [some (.map [])] _ _ _ rfl
  have hlist : (meet 2).run (state (textPart Config.globalsKey) none [none, none] #[0]) =
      .ok ((), state (textPart Config.globalsKey) (some (.list [])) [none, none] #[0, 2]) := rfl
  have hstemKey : (meet (globals.length + 3)).run
      (state (textPart Config.globalsKey) (some (.list [])) [none, none] #[0, 2]) =
      .ok ((), state (textPart Config.globalsKey) (some (.list []))
        [textPart Config.stemKey, none] #[0, 2]) := by
    have hfront := hlength (textPart Config.globalsKey) (some (.list [])) []
    rw [List.append_nil] at hfront
    have hmeet := meet_text (r := [none]) (c := #[0, 2])
      ((congrArg _ hfront).trans (nodeAt_stemKey globals stem))
    rw [hfront] at hmeet
    exact hmeet
  have hstem : (meet (globals.length + 4)).run (state (textPart Config.globalsKey) (some (.list []))
        [textPart Config.stemKey, none] #[0, 2]) =
      .ok ((), state (textPart Config.globalsKey) (some (.list []))
        [textPart Config.stemKey, textPart stem] #[0, 2]) := by
    have hfront := hlength (textPart Config.globalsKey) (some (.list [])) [textPart Config.stemKey]
    have hmeet :=
      meet_text (r := []) (c := #[0, 2]) ((congrArg _ hfront).trans (nodeAt_stem globals stem))
    rw [hfront] at hmeet
    simp only [state, List.append_assoc] at hmeet ⊢
    exact hmeet
  have hkeyPart : (state (textPart Config.globalsKey) none [none, none] #[0]).parts[1]?.getD none =
      textPart Config.globalsKey := rfl
  have hstemPart : (state (textPart Config.globalsKey) (some (.list []))
      [textPart Config.stemKey, none] #[0, 2]).parts[globals.length + 3]?.getD none =
        textPart Config.stemKey := by
    have hfront := hlength (textPart Config.globalsKey) (some (.list [])) []
    rw [List.append_nil, List.length_nil, Nat.add_zero] at hfront
    simp only [state, List.getElem?_toArray]
    rw [List.getElem?_append_right (Nat.le_of_eq hfront), hfront, Nat.sub_self]
    rfl
  have hentries : ([(1, 2), (globals.length + 3, globals.length + 4)].mapM keyedEntry).run
      (state none none [none, none] #[0]) =
        .ok (configEntries globals, state (textPart Config.globalsKey) (some (.list []))
          [textPart Config.stemKey, textPart stem] #[0, 2]) := by
    rw [List.mapM_cons, run_bind_of_ok (keyedEntry_run hkey hkeyPart hlist), List.mapM_cons,
      bind_assoc, run_bind_of_ok (keyedEntry_run hstemKey hstemPart hstem)]
    rfl
  have hinitial : (some (Part.map []) :: List.replicate (globals.length + 4) none) =
      [some (Part.map []), none, none] ++ List.replicate globals.length none ++ [none, none] := by
    have hparts : List.replicate (globals.length + 4) (none : Option Part) =
        List.replicate 2 none ++ List.replicate globals.length none ++ List.replicate 2 none := by
      rw [List.replicate_append_replicate, List.replicate_append_replicate]
      congr 1
      omega
    rw [hparts]
    rfl
  have hkeyed : keyedEntries 0 =
    (do
      let _ ← entriesAt 0
      flatten (entryCount (← get).graph + 1) 0
      let entries ← (← entriesAt 0).mapM keyedEntry
      return mappingOf entries) := rfl
  have hroot (s : Building) (hs : s.graph = configGraph globals stem) : (entriesAt 0).run s =
      .ok ([(1, 2), (globals.length + 3, globals.length + 4)], s) := by
    cases s
    subst hs
    rfl
  have hgraph (s : Building) : (get : Step Building).run s = .ok (s, s) := rfl
  rw [hkeyed, hinitial, run_bind_of_ok (hroot _ rfl), run_bind_of_ok (hgraph _),
    run_bind_of_ok (flatten_config ..), run_bind_of_ok (hroot _ rfl), run_bind_of_ok hentries]
  rfl

/-- The mapping is filled with its entries. -/
theorem fill_mapping :
    (fill 0).run ⟨configGraph globals stem,
        (some (.map []) :: List.replicate (globals.length + 4) none).toArray, #[0]⟩ =
      .ok ((), ⟨configGraph globals stem,
        (some (.map (configEntries globals)) :: textPart Config.globalsKey :: some (.list []) ::
          (List.replicate globals.length none ++
            [textPart Config.stemKey, textPart stem])).toArray, #[0, 2]⟩) := by
  have hfill (s : Building) (hs : s.graph = configGraph globals stem) :
      (fill 0).run s = (do setPart 0 (.map (← keyedEntries 0)) : Step Unit).run s := by
    cases s
    subst hs
    rfl
  rw [hfill _ rfl, run_bind_of_ok (keyedEntries_config globals stem)]
  rfl

/-- The sequence is filled with the globals. -/
theorem fill_sequence :
    (fill 2).run ⟨configGraph globals stem,
        (some (.map (configEntries globals)) :: textPart Config.globalsKey :: some (.list []) ::
          (List.replicate globals.length none ++
            [textPart Config.stemKey, textPart stem])).toArray, #[0, 2]⟩ =
      .ok ((), ⟨configGraph globals stem, (configParts globals stem).toArray, #[0, 2]⟩) := by
  have hfill (s : Building) (hs : s.graph = configGraph globals stem) :
      (fill 2).run s = (do
        (List.range' 3 globals.length).forM meet
        setPart 2 (.list (List.range' 3 globals.length)) : Step Unit).run s := by
    cases s
    subst hs
    rfl
  have hitems := forM_meet_texts
    (l := [some (.map (configEntries globals)), textPart Config.globalsKey, some (.list [])])
    (r := [textPart Config.stemKey, textPart stem]) (c := #[0, 2])
    (fun j hj => nodeAt_global globals stem hj)
  rw [hfill _ rfl]
  exact run_bind_of_ok hitems

theorem fillFrom_next {fuel k i : Nat} {s : Building} (h : s.collections[k]? = some i) :
    (fillFrom (fuel + 1) k).run s = (do fill i; fillFrom fuel (k + 1) : Step Unit).run s := by
  simp only [fillFrom, StateT.run_bind, StateT.run_get, pure_bind, h]

/-- All parts of the file are built. -/
theorem ofGraph_config :
    Document.ofGraph (configGraph globals stem) = .ok ⟨(configParts globals stem).toArray, 0⟩ := by
  have hinitial : Array.replicate (configGraph globals stem).nodes.size (none : Option Part) =
      (List.replicate (globals.length + 5) none).toArray := by
    rw [← List.toArray_replicate]
    simp [configGraph, configNodes, Graph.textNodes]
  have hsize : (configGraph globals stem).nodes.size = globals.length + 5 := by
    simp [configGraph, configNodes, Graph.textNodes]
  have hmeet (ps : List (Option Part)) : (meet 0).run
      ⟨configGraph globals stem, (none :: ps).toArray, #[]⟩ =
        .ok ((), ⟨configGraph globals stem, (some (.map []) :: ps).toArray, #[0]⟩) := rfl
  have hbuild : (build (configGraph globals stem)).run
      ⟨configGraph globals stem, (List.replicate (globals.length + 5) none).toArray, #[]⟩ =
        .ok ((), ⟨configGraph globals stem, (configParts globals stem).toArray, #[0, 2]⟩) := by
    rw [build, hsize, List.replicate_succ]
    refine (run_bind_of_ok (hmeet _)).trans ?_
    rw [fillFrom_next (i := 0) rfl, run_bind_of_ok (fill_mapping globals stem),
      fillFrom_next (i := 2) rfl,
      run_bind_of_ok (fill_sequence globals stem)]
    rfl
  rw [Document.ofGraph, hinitial, hbuild]
  rfl

end File

end Building

/-! ## The document -/

namespace Document

variable {globals : List Text} {stem : Text}

/-- The document in the file of a configuration. -/
def ofConfig (globals : List Text) (stem : Text) : Document :=
  ⟨(Building.configParts globals stem).toArray, 0⟩

theorem valueAt_globals :
    (ofConfig globals stem).valueAt 2 = .list (globals.map .text) := by
  have hitem (j : Nat) (hj : j < globals.length) :
      (ofConfig globals stem).parts[3 + j]?.getD none = Building.textPart globals[j] := by
    rw [Nat.add_comm]
    simp [ofConfig, Building.configParts, List.getElem?_append_left, hj]
  have hlist : (ofConfig globals stem).valueAt 2 =
      .list ((List.range' 3 globals.length).map fun j =>
      (ofConfig globals stem).valueIn (ofConfig globals stem).parts.size [2] j) := rfl
  rw [hlist]
  refine congrArg Value.list (List.ext_getElem (by simp) fun j hj hj' => ?_)
  have hj : j < globals.length := by simpa using hj'
  have hsize : (ofConfig globals stem).parts.size = globals.length + 4 + 1 := by
    simp [ofConfig, Building.configParts]
  rw [List.getElem_map, List.getElem_map, List.getElem_range', Nat.one_mul, hsize, valueIn,
    hitem j hj]
  rfl

theorem valueAt_stem :
    (ofConfig globals stem).valueAt (globals.length + 4) = .text stem := by
  have hpart : (ofConfig globals stem).parts[globals.length + 4]?.getD none =
      Building.textPart stem := by
    simp [ofConfig, Building.configParts]
  rw [valueAt, valueIn, hpart]
  rfl

theorem entry?_globalsKey :
    entry? (ofConfig globals stem) Config.globalsKey = some (.list (globals.map .text)) := by
  rw [← valueAt_globals]
  rfl

theorem entry?_stemKey : entry? (ofConfig globals stem) Config.stemKey = some (.text stem) := by
  rw [← valueAt_stem]
  rfl

end Document
end Yaml

namespace Config

open Yaml

/-- No text of ordinary characters holds a carriage return. -/
theorem unifyLineEnds_of_isOrdinary {t : Text} (h : ∀ c ∈ t, Style.isOrdinary c = true) :
    t.unifyLineEnds = t := by
  refine t.unifyLineEnds_eq_self fun c hc => ?_
  rintro rfl
  exact absurd (h _ hc) (by decide)

/-- The document in the file of a configuration is found. -/
theorem ofText_toText {globals : List Text} {stem : Text}
    (hglobals : ∀ name ∈ globals, isAcceptedName name = true)
    (hstem : isAcceptedName stem = true) :
    Document.ofText (toText ⟨globals, .text stem⟩).unifyLineEnds =
      .ok (Document.ofConfig globals stem) := by
  rw [unifyLineEnds_of_isOrdinary (isOrdinary_toText hglobals hstem), Document.ofText,
    tokens_toText hglobals hstem]
  simp only [ofTokens_configTokens, bind, Except.bind]
  exact Building.ofGraph_config globals stem

theorem texts?_texts (names : List Text) : (Value.list (names.map .text)).texts? = some names := by
  rw [Value.texts?]
  induction names with
  | nil => rfl
  | cons name names ih =>
    rw [List.map_cons, List.mapM_cons, ih]
    rfl

/-- The entries of the file give the configuration. -/
theorem ofEntries_ofConfig {globals : List Text} {stem : Text} (path : Text)
    (hglobals : Names.IsIncreasing globals)
    (hvalid : (Config.mk globals (.text stem)).check = .ok []) :
    let document := Document.ofConfig globals stem
    ofEntries path document.entry? = .ok ⟨globals, .text stem⟩ := by
  intro document
  have hextra : document.entry? extraKey = none := rfl
  have hnames : textsIn globalsKey defaultGlobals (some (Value.list (globals.map .text))) =
      .ok globals := by
    rw [textsIn]
    simp only [Option.getD_some, texts?_texts]
  rw [ofEntries, Document.entry?_globalsKey, hnames, hextra, Document.entry?_stemKey]
  simp only [bind, Except.bind, textsIn, Option.getD_none, Option.getD_some, List.append_nil,
    ofNames_of_isIncreasing hglobals, hvalid]
  rfl

/-- The stem of a valid configuration is a text that is taken for a name. -/
theorem exists_stem_of_check {c : Config} (h : c.check = .ok []) :
    ∃ stem, c.stem = .text stem ∧ isAcceptedName stem = true := by
  have hstem := (check_eq_nil_iff.1 h).1
  rw [stemErrors] at hstem
  cases htext : c.stem.text?.filter isAcceptedName with
  | none =>
    rw [htext] at hstem
    cases hstem
  | some t =>
    obtain ⟨htext, haccepted⟩ := Option.filter_eq_some_iff.1 htext
    refine ⟨t, ?_, haccepted⟩
    cases hvalue : c.stem with
    | text u =>
      rw [hvalue] at htext
      rw [Option.some.inj htext]
    | _ =>
      rw [hvalue] at htext
      cases htext

/-- A configuration is loaded as it was saved if its globals stand in order. -/
theorem load_toText_of_isIncreasing {c : Config} (hglobals : Names.IsIncreasing c.globals)
    (hvalid : c.check = .ok []) (path : Text) : load path (some c.toText) = .ok c := by
  obtain ⟨stem, hstem, haccepted⟩ := exists_stem_of_check hvalid
  have hnames := (check_eq_nil_iff.1 hvalid).2.1
  cases c with
  | mk globals value =>
    obtain rfl : value = .text stem := hstem
    rw [load, ofText, ofText_toText hnames haccepted]
    exact ofEntries_ofConfig path hglobals hvalid

/-- **A valid configuration is loaded as it was saved**, whatever its globals and its stem are: a
name that would be read as something else stands in quotes, and no default global takes the place of
a missing one. -/
theorem load_toText {names : List Text} {stem : Value}
    (hvalid : (ofNames names stem).check = .ok []) (path : Text) :
    load path (some (ofNames names stem).toText) = .ok (ofNames names stem) :=
  load_toText_of_isIncreasing (Names.isIncreasing_sorted names) hvalid path

/-- The globals `yes`, `null`, `$` and `a` with a line feed behind it, and the stem `no_`. -/
def wordConfig : Config :=
  ofNames [.ofChars ['y', 'e', 's'], .ofChars ['n', 'u', 'l', 'l'], .ofChars ['$'],
    .ofChars ['a', '\n']] (.text (.ofChars ['n', 'o', '_']))

theorem load_toText_words :
    wordConfig.check = .ok [] ∧ load [] (some wordConfig.toText) = .ok wordConfig ∧
      load [] (some (ofNames [] (.text (.ofChars ['_']))).toText) =
        .ok (ofNames [] (.text (.ofChars ['_']))) :=
  ⟨by decide +kernel, load_toText (by decide +kernel) [], load_toText (by decide +kernel) []⟩

example : wordConfig.toText = Text.ofString
    "globals:\n- $\n- 'a\n\n  '\n- 'null'\n- 'yes'\nprefix_stem: no_\n" := by
  decide +kernel

end Config
end Elementwise
