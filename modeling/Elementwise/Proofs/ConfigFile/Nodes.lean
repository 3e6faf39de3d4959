import Elementwise.Yaml.Graph
import Elementwise.Proofs.ConfigFile.Tokens

/-!
# The nodes of a configuration file

The tokens of a file are read into a mapping with two entries, a sequence and a scalar.  Every name
is a text again: without quotes it stands only if its spelling is that of a text, and in quotes it
is one whatever its spelling.

* `Yaml.configNodes` — the nodes of the file of a configuration.
* `Config.ofTokens_configTokens` — they are what the tokens are read into.
-/

set_option autoImplicit false
namespace Elementwise
namespace Yaml

/-- What is done behind something that succeeds is done where that ends. -/
theorem run_bind_of_ok {σ ε α β : Type} {m : StateT σ (Except ε) α} {f : α → StateT σ (Except ε) β}
    {s s' : σ} {a : α} (h : m.run s = .ok (a, s')) : (m >>= f).run s = (f a).run s' := by
  rw [StateT.run_bind, h]
  rfl

namespace Graph

open Config

/-! ## Moves -/

/-- Reading stands in front of tokens behind which there is no fault, and no node has a name. -/
def before (ts : List Token) (ns : Array Node) : Source where
  tokens := ts
  nodes := ns

/-- A scalar without a name or a tag is read. -/
theorem node_scalar (isBlock mayBeIndentless : Bool) (fuel : Nat) (t : Text) (isPlain : Bool)
    (ts : List Token) (ns : Array Node) :
    (node isBlock mayBeIndentless (fuel + 2)).run (before (.scalar t isPlain :: ts) ns) =
      .ok (ns.size, before ts (ns.push (.scalar (({} : Properties).scalarKind t isPlain) t))) := by
  rfl

/-- Text nodes, one behind the other. -/
def textNodes (names : List Text) : List Node := names.map (.scalar .text)

/-- A name is a text, however it is written. -/
theorem scalarKind_fitsPlain (t : Text) :
    ({} : Properties).scalarKind t (Style.fitsPlain t) = .text := by
  rw [Properties.scalarKind]
  cases hplain : Style.fitsPlain t with
  | false => rfl
  | true =>
    rw [Style.fitsPlain, Bool.and_eq_true, decide_eq_true_iff] at hplain
    exact hplain.2

/-- The items of a list are read up to the key behind them. -/
theorem indentlessItems_names (names : List Text) (fuel : Nat) (ts : List Token) (ns : Array Node) :
    (indentlessItems (names.length + fuel + 3)).run
        (before (names.flatMap Scan.itemTokens ++ .key :: ts) ns) =
      .ok (List.range' ns.size names.length,
        before (.key :: ts) (ns ++ (textNodes names).toArray)) := by
  induction names generalizing ns with
  | nil =>
    rw [textNodes, List.map_nil, Array.append_empty]
    rfl
  | cons name names ih =>
    have hitem : (node true false (names.length + fuel + 1 + 2)).run (before
        (.scalar name (Style.fitsPlain name) :: (names.flatMap Scan.itemTokens ++ .key :: ts)) ns) =
        .ok (ns.size, before (names.flatMap Scan.itemTokens ++ .key :: ts)
          (ns.push (.scalar .text name))) := by
      rw [node_scalar, scalarKind_fitsPlain]
    have hnodes : ns.push (.scalar .text name) ++ (textNodes names).toArray =
        ns ++ (textNodes (name :: names)).toArray := by
      simp [textNodes]
    have hrest := ih (ns.push (.scalar .text name))
    rw [hnodes] at hrest
    have hstep : (indentlessItems ((name :: names).length + fuel + 3)).run
        (before ((name :: names).flatMap Scan.itemTokens ++ .key :: ts) ns) =
      (do
        let item ← node true false (names.length + fuel + 1 + 2)
        return item :: (← indentlessItems (names.length + fuel + 3)) : Reading (List Nat)).run
          (before (.scalar name (Style.fitsPlain name) ::
            (names.flatMap Scan.itemTokens ++ .key :: ts)) ns) := by
      rw [List.length_cons, Nat.add_right_comm names.length 1, Nat.add_right_comm _ 1 3]
      rfl
    rw [hstep, run_bind_of_ok hitem, run_bind_of_ok hrest, Array.size_push]
    rfl

/-! ## The document -/

end Graph

/-- The nodes of the file of a configuration: the mapping, then the parts of its entries in
order. -/
def configNodes (globals : List Text) (stem : Text) : List Node :=
  .mapping .mapping [(1, 2), (globals.length + 3, globals.length + 4)] ::
    .scalar .text Config.globalsKey :: .sequence .sequence (List.range' 3 globals.length) ::
      (Graph.textNodes globals ++ Graph.textNodes [Config.stemKey, stem])

namespace Graph

/-- The value of the globals is read: a sequence, in brackets or without indentation. -/
theorem node_globals (globals : List Text) (fuel : Nat) (ts : List Token) (n m : Node) :
    (node true true (globals.length + fuel + 5)).run
        (before (Scan.globalsTokens globals ++ .key :: ts) #[n, m]) =
      .ok (2, before (.key :: ts)
        (n :: m :: .sequence .sequence (List.range' 3 globals.length) ::
          textNodes globals).toArray) := by
  cases globals with
  | nil => rfl
  | cons name globals =>
    have hitems := indentlessItems_names (name :: globals) fuel ts #[n, m, .sequence .sequence []]
    have hstep : (node true true ((name :: globals).length + fuel + 5)).run
        (before (Scan.globalsTokens (name :: globals) ++ .key :: ts) #[n, m]) =
      (do
        replace 2 (.sequence .sequence (← indentlessItems ((name :: globals).length + fuel + 3)))
        return 2 : Reading Nat).run
          (before ((name :: globals).flatMap Scan.itemTokens ++ .key :: ts)
            #[n, m, .sequence .sequence []]) := by
      rfl
    have hnodes (items : List Nat) : (#[n, m, .sequence .sequence []] ++
        (textNodes (name :: globals)).toArray).setIfInBounds 2 (.sequence .sequence items) =
          (n :: m :: .sequence .sequence items :: textNodes (name :: globals)).toArray := by
      simp
    rw [hstep, run_bind_of_ok hitems, ← hnodes]
    rfl

/-- The tokens in front of which a value is empty. -/
def entryStops : List Token := [.key, .value, .blockEnd]

theorem nodeUnless_globals (globals : List Text) (fuel : Nat) (ts : List Token) (ns : Array Node) :
    (nodeUnless entryStops true (fuel + 1)).run
        (before (Scan.globalsTokens globals ++ .key :: ts) ns) =
      (node true true fuel).run (before (Scan.globalsTokens globals ++ .key :: ts) ns) := by
  cases globals with
  | nil => rfl
  | cons name globals => rfl

/-- An entry begins with a scalar for its key. -/
theorem blockEntries_key (fuel : Nat) (k : Text) (isPlain : Bool) (ts : List Token)
    (ns : Array Node) :
    (blockEntries (fuel + 4)).run (before (.key :: .scalar k isPlain :: .value :: ts) ns) =
      (do
        let value ← nodeUnless entryStops true (fuel + 3)
        return (ns.size, value) :: (← blockEntries (fuel + 3)) : Reading (List (Nat × Nat))).run
          (before ts (ns.push (.scalar (({} : Properties).scalarKind k isPlain) k))) := by
  rfl

/-- The last entry has a scalar for its value, and the mapping ends behind it. -/
theorem blockEntries_last (fuel : Nat) (k t : Text) (isPlain isPlain' : Bool) (ns : Array Node) :
    (blockEntries (fuel + 5)).run
        (before [.key, .scalar k isPlain, .value, .scalar t isPlain', .blockEnd] ns) =
      .ok ([(ns.size, ns.size + 1)],
        before [] ((ns.push (.scalar (({} : Properties).scalarKind k isPlain) k)).push
          (.scalar (({} : Properties).scalarKind t isPlain') t))) := by
  have hsize : (ns.push (.scalar (({} : Properties).scalarKind k isPlain) k)).size = ns.size + 1 :=
    Array.size_push _
  rw [← hsize]
  rfl

/-- The entries of the file are read. -/
theorem blockEntries_configTokens (globals : List Text) (stem : Text) (fuel : Nat) :
    (blockEntries (globals.length + fuel + 7)).run
        (before (configTokens globals stem).tail #[.mapping .mapping []]) =
      .ok ([(1, 2), (globals.length + 3, globals.length + 4)],
        before [] (.mapping .mapping [] :: (configNodes globals stem).tail).toArray) := by
  have hglobalsKey : ({} : Properties).scalarKind Config.globalsKey true = .text := by decide
  have hstemKey : ({} : Properties).scalarKind Config.stemKey true = .text := by decide
  -- behind the value of the globals only the entry of the stem is left
  let rest : List Token :=
    [.scalar Config.stemKey true, .value, .scalar stem (Style.fitsPlain stem), .blockEnd]
  let ns : Array Node := (.mapping .mapping [] :: .scalar .text Config.globalsKey ::
    .sequence .sequence (List.range' 3 globals.length) :: textNodes globals).toArray
  have hvalue : (nodeUnless entryStops true (globals.length + fuel + 3 + 3)).run
      (before (Scan.globalsTokens globals ++ .key :: rest)
        (#[.mapping .mapping []].push (.scalar .text Config.globalsKey))) =
        .ok (2, before (.key :: rest) ns) :=
    (nodeUnless_globals globals _ _ _).trans (node_globals globals fuel _ _ _)
  have hlast : (blockEntries (globals.length + fuel + 3 + 3)).run (before (.key :: rest) ns) =
      .ok ([(globals.length + 3, globals.length + 4)],
        before [] (.mapping .mapping [] :: (configNodes globals stem).tail).toArray) := by
    have hsize : ns.size = globals.length + 3 := by
      simp [ns, textNodes]
    have hnodes : (ns.push (.scalar .text Config.stemKey)).push (.scalar .text stem) =
        (.mapping .mapping [] :: (configNodes globals stem).tail).toArray := by
      simp [ns, configNodes, textNodes]
    have hread := blockEntries_last (globals.length + fuel + 1) Config.stemKey stem true
      (Style.fitsPlain stem) ns
    rw [hstemKey, scalarKind_fitsPlain, hsize, hnodes] at hread
    exact hread
  have htokens : (configTokens globals stem).tail =
      .key :: .scalar Config.globalsKey true :: .value ::
        (Scan.globalsTokens globals ++ .key :: rest) := rfl
  rw [htokens, blockEntries_key, hglobalsKey, run_bind_of_ok hvalue, run_bind_of_ok hlast]
  rfl

/-- The document is read, given its tokens. -/
theorem document_configTokens (globals : List Text) (stem : Text) (fuel : Nat) :
    (document (globals.length + fuel + 9)).run (before (configTokens globals stem) #[]) =
      .ok (0, before [] (configNodes globals stem).toArray) := by
  have hentries := blockEntries_configTokens globals stem fuel
  have hmapping : (do
      replace 0 (.mapping .mapping (← blockEntries (globals.length + fuel + 7)))
      return 0 : Reading Nat).run
        (before (configTokens globals stem).tail #[.mapping .mapping []]) =
        .ok (0, before [] (configNodes globals stem).toArray) := by
    rw [run_bind_of_ok hentries]
    rfl
  have hnode : (node true false (globals.length + fuel + 9)).run
      (before (configTokens globals stem) #[]) =
        .ok (0, before [] (configNodes globals stem).toArray) := hmapping
  have hdocument : (document (globals.length + fuel + 9)).run
      (before (configTokens globals stem) #[]) =
    (do
      let root ← node true false (globals.length + fuel + 9)
      passAll .documentEnd
      if (← peek?).isSome then malformed
      return root : Reading Nat).run (before (configTokens globals stem) #[]) := rfl
  rw [hdocument, run_bind_of_ok hnode]
  rfl

end Graph
end Yaml

namespace Config

open Yaml

/-- **The tokens of a file are read** into its nodes. -/
theorem ofTokens_configTokens (globals : List Text) (stem : Text) :
    Graph.ofTokens (configTokens globals stem) none =
      .ok ⟨(configNodes globals stem).toArray, 0⟩ := by
  have hlength :
      ∃ fuel, 3 * (configTokens globals stem).length + 3 = globals.length + fuel + 9 := by
    have hitems : globals.length ≤ (globals.flatMap Scan.itemTokens).length := by
      rw [List.length_flatMap]
      simp [Scan.itemTokens]
      omega
    refine ⟨3 * (configTokens globals stem).length + 3 - (globals.length + 9), ?_⟩
    rw [configTokens, Scan.globalsTokens]
    split
    · rename_i hempty
      rw [List.isEmpty_iff.1 hempty]
      rfl
    · simp only [List.length_append, List.length_cons, List.length_nil]
      omega
  obtain ⟨fuel, hfuel⟩ := hlength
  have hdocument := Graph.document_configTokens globals stem fuel
  rw [Graph.ofTokens, hfuel]
  change (Except.map _ ((Graph.document (globals.length + fuel + 9)).run
    (Graph.before (configTokens globals stem) #[]))) = _
  rw [hdocument]
  rfl

end Config
end Elementwise
