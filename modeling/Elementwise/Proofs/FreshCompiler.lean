import Elementwise.Proofs.SharedSequence

/-!
# Sessions remember numbers only

The compilers of a session share sequences, and a compilation may fail at every stage: its source
may be no text, may not parse or may not be a function, and a function that was found may still be
rejected.  All that is left behind, besides the sequences and compilers that are made, is that a
sequence has moved forward by one, and it has if the function was found.  So a compilation answers
what a compiler would that is made for it alone and draws from a sequence of its own.

## What is here

* `CompileRequest`, `CompileRequest.answer` — a compilation, and what a compiler that is made for it
  answers.
* `Session.takesFrom?`, `Session.drawCount` — which actions take a number from a sequence.
* `Session.step_of_not_makes` — what an action does that makes nothing.
* `Session.sequences_run` — where the sequences stand behind a run.
* `Session.run_eq_fresh` — behind any run, and for every answer in it.
-/

set_option autoImplicit false
namespace Elementwise

/-! ## Requests -/

/-- The answer that tells the result of a compilation. -/
def Answer.ofResult : Except Failure CompiledRoutine → Answer
  | .ok out => .routine out
  | .error e => .failure e

/-- A compilation: the configuration and the further globals of the compiler, the source of the
routine, and the position of the sequence that the compiler draws from. -/
structure CompileRequest where
  config : Config
  isFurtherGlobal : Text → Bool
  source : RoutineSource
  sequence : Nat

namespace CompileRequest

/-- The answer of a compiler that is made for this request alone and draws from a sequence that
begins with a given number. -/
def answer (q : CompileRequest) (start : Nat) : Answer :=
  match Compiler.ofConfig? q.config q.isFurtherGlobal with
  | .error e => .failure e
  | .ok c => .ofResult (c.compile q.source ⟨start⟩).1

/-- Whether a request gets as far as taking a number: a compiler can be made, and the source is a
function. -/
def takesNumber (q : CompileRequest) : Bool :=
  (Compiler.ofConfig? q.config q.isFurtherGlobal).isOk && (q.source.text >>= anchor).isOk

end CompileRequest

namespace Action

/-- Whether an action makes a sequence or a compiler, if nothing is wrong with it. -/
def makes : Action → Bool
  | makeSequence .. | makeCompiler .. => true
  | _ => false

/-- The number with which the sequence begins that an action makes, if it makes one. -/
def start? : Action → Option Nat
  | makeSequence _ start => if start < 0 then none else some start.toNat
  | _ => none

end Action

namespace PrefixSequence

/-- Sequences that have each moved forward by some amount. -/
def advanceAll (amount : Nat → Nat) (qs : List PrefixSequence) : List PrefixSequence :=
  qs.mapIdx fun i q => ⟨q.next + amount i⟩

@[simp] theorem getElem?_advanceAll (amount : Nat → Nat) (qs : List PrefixSequence) (i : Nat) :
    (advanceAll amount qs)[i]? = qs[i]?.map fun q => ⟨q.next + amount i⟩ := List.getElem?_mapIdx

@[simp] theorem length_advanceAll (amount : Nat → Nat) (qs : List PrefixSequence) :
    (advanceAll amount qs).length = qs.length := List.length_mapIdx

@[simp] theorem advanceAll_zero (qs : List PrefixSequence) : advanceAll (fun _ => 0) qs = qs :=
  List.ext_getElem? fun i => by simp

/-- Sequences move forward twice, but for those that are added in between. -/
theorem advanceAll_append {first second : Nat → Nat} {qs rs : List PrefixSequence}
    (hfirst : ∀ i, qs.length ≤ i → first i = 0) :
    advanceAll second (advanceAll first qs ++ rs) =
      advanceAll (fun i => first i + second i) (qs ++ rs) := by
  refine List.ext_getElem? fun i => ?_
  rcases Nat.lt_or_ge i qs.length with hi | hi
  · rw [getElem?_advanceAll, getElem?_advanceAll, List.getElem?_append_left (by simpa using hi),
      List.getElem?_append_left hi, getElem?_advanceAll, Option.map_map]
    exact congrArg (Option.map · _) (funext fun q => by simp [Nat.add_assoc])
  · rw [getElem?_advanceAll, getElem?_advanceAll, List.getElem?_append_right (by simpa using hi),
      List.getElem?_append_right hi, length_advanceAll, hfirst i hi, Nat.zero_add]

end PrefixSequence

namespace Session

/-- What an action asks to be compiled, if it does and names a compiler that there is. -/
def request? (s : Session) : Action → Option CompileRequest
  | .compile name source =>
    (s.compiler? name).map fun c =>
      ⟨c.compiler.config, c.compiler.isFurtherGlobal, source, c.sequence⟩
  | .compileOnce config isFurtherGlobal source => some ⟨config, isFurtherGlobal, source, 0⟩
  | _ => none

/-- The position of the sequence that an action takes a number from, if it does: it asks the
sequence itself, or it compiles a routine the function of which is found. -/
def takesFrom? (s : Session) : Action → Option Nat
  | .draw name | .drawPrefix name _ => s.sequenceIndex? name
  | a => ((s.request? a).filter CompileRequest.takesNumber).map CompileRequest.sequence

/-- How many of the actions of a run take a number from the sequence at a position. -/
def drawCount (i : Nat) : Session → List Action → Nat
  | _, [] => 0
  | s, a :: as => (if s.takesFrom? a = some i then 1 else 0) + drawCount i (s.step a).2 as

/-! ## One action -/

end Session

namespace Compiler

/-- A compiler keeps the configuration and the further globals that it is made with. -/
theorem eq_of_ofConfig? {config : Config} {isFurtherGlobal : Text → Bool} {c : Compiler}
    (h : ofConfig? config isFurtherGlobal = .ok c) :
    c.config = config ∧ c.isFurtherGlobal = isFurtherGlobal := by
  rw [ofConfig?] at h
  split at h
  · obtain rfl := Except.ok.inj h
    exact ⟨rfl, rfl⟩
  · cases h
  · cases h

/-- **A compilation takes one number if the function is found**, whatever becomes of it then, and
none if it is not. -/
theorem compile_snd (c : Compiler) (source : RoutineSource) (q : PrefixSequence) :
    (c.compile source q).2 = if (source.text >>= anchor).isOk then ⟨q.next + 1⟩ else q := by
  rw [compile]
  cases source.text >>= anchor <;> rfl

end Compiler

namespace Session

/-- A session in which every compiler is one that its configuration and its further globals make. -/
def Genuine (s : Session) : Prop :=
  ∀ b ∈ s.compilers,
    Compiler.ofConfig? b.2.compiler.config b.2.compiler.isFurtherGlobal = .ok b.2.compiler

/-- A session in which a sequence has handed out one more number, if one has. -/
def tookFrom (s : Session) : Option Nat → Session
  | none => s
  | some i => s.setSequence i ⟨(s.sequenceAt i).next + 1⟩

variable {s : Session}

/-- Putting a sequence back where it was changes nothing. -/
theorem setSequence_sequenceAt (s : Session) (i : Nat) : s.setSequence i (s.sequenceAt i) = s := by
  have h : s.sequences.set i (s.sequenceAt i) = s.sequences := by
    refine List.ext_getElem? fun j => ?_
    rw [List.getElem?_set]
    split
    · next hij =>
      subst hij
      rw [sequenceAt]
      split
      · next hi => rw [List.getElem?_eq_getElem hi]; rfl
      · next hi => exact (List.getElem?_eq_none (Nat.le_of_not_lt hi)).symm
    · rfl
  rw [setSequence, h]

theorem compileWith_fst (s : Session) (c : BoundCompiler) (source : RoutineSource) :
    (s.compileWith c source).1 =
      .ofResult (c.compiler.compile source (s.sequenceAt c.sequence)).1 := by
  rw [compileWith]
  cases c.compiler.compile source (s.sequenceAt c.sequence) with
  | mk result q => cases result <;> rfl

/-- **A compiler of a session compiles like one that is made for the request alone**, and a number
is taken from its sequence if the function is found. -/
theorem compileWith_eq {c : BoundCompiler} {config : Config} {isFurtherGlobal : Text → Bool}
    (hc : Compiler.ofConfig? config isFurtherGlobal = .ok c.compiler) (s : Session)
    (source : RoutineSource) :
    let q : CompileRequest := ⟨config, isFurtherGlobal, source, c.sequence⟩
    s.compileWith c source = (q.answer (s.sequenceAt c.sequence).next,
      s.tookFrom (((some q).filter CompileRequest.takesNumber).map CompileRequest.sequence)) := by
  intro q
  refine Prod.ext ?_ ?_
  · rw [compileWith_fst, CompileRequest.answer, hc]
  · have htakes : q.takesNumber = (source.text >>= anchor).isOk := by
      rw [CompileRequest.takesNumber, hc]
      rfl
    rw [compileWith_snd, Compiler.compile_snd]
    cases h : (source.text >>= anchor).isOk with
    | true =>
      rw [Option.filter_some_pos (htakes.trans h)]
      rfl
    | false =>
      rw [Option.filter_some_neg (htakes.trans h)]
      exact setSequence_sequenceAt s c.sequence

/-- **What an action does that makes nothing**: it takes a number from a sequence, or it changes
nothing at all. -/
theorem step_of_not_makes (hs : s.Genuine) {a : Action} (ha : a.makes = false) :
    (s.step a).2 = s.tookFrom (s.takesFrom? a) := by
  cases a with
  | makeSequence | makeCompiler => cases ha
  | compile name source =>
    have htakes : s.takesFrom? (.compile name source) =
        ((s.request? (.compile name source)).filter CompileRequest.takesNumber).map
          CompileRequest.sequence := rfl
    rw [step, htakes, request?]
    cases hc : s.compiler? name with
    | none => rfl
    | some c =>
      obtain ⟨b, hb, rfl⟩ := mem_of_compiler? hc
      exact congrArg Prod.snd (compileWith_eq (hs b hb) s source)
  | compileOnce config isFurtherGlobal source =>
    have htakes : s.takesFrom? (.compileOnce config isFurtherGlobal source) =
        ((some ⟨config, isFurtherGlobal, source, 0⟩).filter CompileRequest.takesNumber).map
          CompileRequest.sequence := rfl
    rw [step, htakes]
    cases hc : Compiler.ofConfig? config isFurtherGlobal with
    | error e =>
      have hnone : (CompileRequest.mk config isFurtherGlobal source 0).takesNumber = false := by
        rw [CompileRequest.takesNumber, hc]
        rfl
      rw [Option.filter_some_neg hnone]
      rfl
    | ok c => exact congrArg Prod.snd (compileWith_eq hc s source)
  | askGlobal name global | showConfig name =>
    rw [step]
    split <;> rfl
  | peek name =>
    rw [step, onSequence]
    cases s.sequenceIndex? name with
    | none => rfl
    | some i => exact setSequence_sequenceAt s i
  | draw name | drawPrefix name stem =>
    rw [step, onSequence, takesFrom?]
    cases s.sequenceIndex? name <;> rfl

/-- The answer to a compilation depends on the number of the sequence only. -/
theorem step_request (hs : s.Genuine) {a : Action} {q : CompileRequest}
    (hq : s.request? a = some q) :
    (s.step a).1 = q.answer (s.sequenceAt q.sequence).next := by
  cases a with
  | compile name source =>
    obtain ⟨c, hc, rfl⟩ := Option.map_eq_some_iff.1 hq
    obtain ⟨b, hb, rfl⟩ := mem_of_compiler? hc
    rw [step, hc]
    exact congrArg Prod.fst (compileWith_eq (hs b hb) s source)
  | compileOnce config isFurtherGlobal source =>
    obtain rfl := Option.some.inj hq
    rw [step]
    cases hc : Compiler.ofConfig? config isFurtherGlobal with
    | error e => rw [CompileRequest.answer, hc]
    | ok c => exact congrArg Prod.fst (compileWith_eq hc s source)
  | _ => cases hq

@[simp] theorem tookFrom_sequenceNames (s : Session) (i? : Option Nat) :
    (s.tookFrom i?).sequenceNames = s.sequenceNames := by cases i? <;> rfl

@[simp] theorem tookFrom_compilers (s : Session) (i? : Option Nat) :
    (s.tookFrom i?).compilers = s.compilers := by cases i? <;> rfl

theorem tookFrom_sequences (s : Session) (i? : Option Nat) :
    (s.tookFrom i?).sequences =
      PrefixSequence.advanceAll (fun i => if i? = some i then 1 else 0) s.sequences := by
  refine List.ext_getElem? fun j => ?_
  rw [PrefixSequence.getElem?_advanceAll]
  cases i? with
  | none => exact (Option.map_id' (x := s.sequences[j]?)).symm
  | some i =>
    rw [tookFrom, setSequence, sequenceAt, List.getElem?_set]
    by_cases hij : i = j
    · subst hij
      rw [if_pos rfl]
      split
      · next hi => simp [List.getElem?_eq_getElem hi]
      · next hi => simp [List.getElem?_eq_none (Nat.le_of_not_lt hi)]
    · simp [hij]

/-- A compiler that there is behind an action was there before, or the action made it. -/
theorem mem_compilers_step (hs : s.Genuine) (a : Action) {b : Text × BoundCompiler}
    (hb : b ∈ (s.step a).2.compilers) :
    b ∈ s.compilers ∨ ∃ sequence, a = .makeCompiler b.1 sequence b.2.compiler.config
        b.2.compiler.isFurtherGlobal ∧
      Compiler.ofConfig? b.2.compiler.config b.2.compiler.isFurtherGlobal = .ok b.2.compiler := by
  cases hmakes : a.makes with
  | false =>
    rw [step_of_not_makes hs hmakes, tookFrom_compilers] at hb
    exact .inl hb
  | true =>
    cases a with
    | makeCompiler name sequence config isFurtherGlobal =>
      rw [step] at hb
      split at hb
      · exact .inl hb
      · next c i hc hi =>
        rcases List.mem_cons.1 hb with rfl | hb
        · obtain ⟨hconfig, hglobal⟩ := Compiler.eq_of_ofConfig? hc
          exact .inr ⟨sequence, by rw [hconfig, hglobal], by rwa [hconfig, hglobal]⟩
        · exact .inl hb
      · exact .inl hb
    | makeSequence name start =>
      rw [step] at hb
      split at hb <;> exact .inl hb
    | _ => cases hmakes

theorem genuine_step (hs : s.Genuine) (a : Action) : Genuine (s.step a).2 := fun b hb =>
  (mem_compilers_step hs a hb).elim (hs b) fun ⟨_, _, h⟩ => h

/-- **Where the sequences stand behind an action**: one that is made comes behind the others, and
each has moved forward by one if the action took a number from it. -/
theorem sequences_step (hs : s.Genuine) (a : Action) :
    (s.step a).2.sequences =
      PrefixSequence.advanceAll (fun i => if s.takesFrom? a = some i then 1 else 0)
        (s.sequences ++ a.start?.toList.map PrefixSequence.mk) := by
  cases hmakes : a.makes with
  | false =>
    have hstart : a.start? = none := by cases a <;> first | rfl | cases hmakes
    rw [step_of_not_makes hs hmakes, tookFrom_sequences, hstart]
    exact congrArg (PrefixSequence.advanceAll _) (List.append_nil _).symm
  | true =>
    have htakes : s.takesFrom? a = none := by cases a <;> first | rfl | cases hmakes
    simp only [htakes, reduceCtorEq, if_false, PrefixSequence.advanceAll_zero]
    cases a with
    | makeCompiler name sequence config isFurtherGlobal =>
      rw [step]
      split <;> exact (List.append_nil _).symm
    | makeSequence name start =>
      rw [step, PrefixSequence.ofStart?, Action.start?]
      by_cases hstart : start < 0
      · rw [if_pos hstart, if_pos hstart]
        exact (List.append_nil _).symm
      · rw [if_neg hstart, if_neg hstart]
        rfl
    | _ => cases hmakes

/-- A number is only taken from a sequence that there is. -/
theorem lt_of_takesFrom? (hs : s.Valid) {a : Action} {i : Nat} (h : s.takesFrom? a = some i) :
    i < s.sequences.length := by
  cases a with
  | draw name | drawPrefix name stem =>
    obtain ⟨b, hb, rfl⟩ := mem_of_sequenceIndex? h
    exact hs.names b hb
  | compile name source =>
    obtain ⟨q, hq, rfl⟩ := Option.map_eq_some_iff.1 h
    obtain ⟨c, hc, rfl⟩ := Option.map_eq_some_iff.1 (Option.filter_eq_some_iff.1 hq).1
    obtain ⟨b, hb, rfl⟩ := mem_of_compiler? hc
    exact hs.sequences b hb
  | compileOnce config isFurtherGlobal source =>
    obtain ⟨q, hq, rfl⟩ := Option.map_eq_some_iff.1 h
    obtain rfl := Option.some.inj (Option.filter_eq_some_iff.1 hq).1
    exact hs.nonempty
  | _ => cases h

/-! ## Runs -/

theorem run_cons (s : Session) (a : Action) (as : List Action) :
    s.run (a :: as) = ((s.step a).1 :: ((s.step a).2.run as).1, ((s.step a).2.run as).2) := rfl

/-- **Where the sequences stand behind a run**: those that are made come behind the others, and each
has moved forward by the number of actions that took a number from it. -/
theorem sequences_run (hs : s.Genuine) (hvalid : s.Valid) (as : List Action) :
    (s.run as).2.sequences =
      PrefixSequence.advanceAll (fun i => drawCount i s as)
        (s.sequences ++ (as.filterMap Action.start?).map PrefixSequence.mk) := by
  induction as generalizing s with
  | nil => simp [run, drawCount]
  | cons a as ih =>
    have hlater := ih (genuine_step hs a) ((moves_step hvalid a).valid hvalid)
    have hstarts : ((a :: as).filterMap Action.start?).map PrefixSequence.mk =
        a.start?.toList.map PrefixSequence.mk ++
          (as.filterMap Action.start?).map PrefixSequence.mk := by
      rw [List.filterMap_cons]
      cases a.start? <;> rfl
    rw [run_cons, hlater, sequences_step hs, hstarts, ← List.append_assoc]
    refine PrefixSequence.advanceAll_append fun i hi => if_neg fun htakes => ?_
    -- the sequences that are made later are behind all those that there are now
    have hlt := lt_of_takesFrom? hvalid htakes
    rw [List.length_append] at hi
    omega

/-- The answers behind a run are those of its actions, each in the session behind the actions before
it. -/
theorem getElem?_run (s : Session) (as : List Action) (j : Nat) :
    (s.run as).1[j]? = as[j]?.map fun a => ((s.run (as.take j)).2.step a).1 := by
  induction as generalizing s j with
  | nil => rfl
  | cons a as ih =>
    cases j with
    | zero => rfl
    | succ j => exact ih (s.step a).2 j

theorem genuine_run (hs : s.Genuine) (as : List Action) : (s.run as).2.Genuine := by
  induction as generalizing s with
  | nil => exact hs
  | cons a as ih => exact ih (genuine_step hs a)

/-- Every compiler of a session was made by an action, from a valid configuration. -/
theorem mem_compilers_run (hs : s.Genuine) (as : List Action) {b : Text × BoundCompiler}
    (hb : b ∈ (s.run as).2.compilers) :
    b ∈ s.compilers ∨ ∃ sequence, .makeCompiler b.1 sequence b.2.compiler.config
        b.2.compiler.isFurtherGlobal ∈ as ∧
      Compiler.ofConfig? b.2.compiler.config b.2.compiler.isFurtherGlobal = .ok b.2.compiler := by
  induction as generalizing s with
  | nil => exact .inl hb
  | cons a as ih =>
    rcases ih (genuine_step hs a) hb with hb | ⟨sequence, hmem, hmade⟩
    · rcases mem_compilers_step hs a hb with hb | ⟨sequence, rfl, hmade⟩
      · exact .inl hb
      · exact .inr ⟨sequence, List.mem_cons_self, hmade⟩
    · exact .inr ⟨sequence, List.mem_cons_of_mem a hmem, hmade⟩

/-- Sessions that differ in the numbers of their sequences only. -/
structure Resembles (s t : Session) : Prop where
  sequenceNames : s.sequenceNames = t.sequenceNames
  compilers : s.compilers = t.compilers
  length : s.sequences.length = t.sequences.length

variable {t : Session}

/-- An action that makes something makes the same in both. -/
theorem Resembles.step_of_makes (h : s.Resembles t) {a : Action} (ha : a.makes = true) :
    Resembles (s.step a).2 (t.step a).2 := by
  cases a with
  | makeSequence name start =>
    rw [step, step]
    cases PrefixSequence.ofStart? start with
    | error e => exact h
    | ok q => exact ⟨by simp [h.sequenceNames, h.length], h.compilers, by simp [h.length]⟩
  | makeCompiler name sequence config isFurtherGlobal =>
    have hindex : s.sequenceIndex? = t.sequenceIndex? := by
      funext name
      rw [sequenceIndex?, sequenceIndex?, h.sequenceNames]
    rw [step, step, hindex]
    cases Compiler.ofConfig? config isFurtherGlobal with
    | error e => exact h
    | ok c =>
      cases sequence.elim (some 0) t.sequenceIndex? with
      | none => exact h
      | some i => exact ⟨h.sequenceNames, by simp [h.compilers], h.length⟩
  | _ => cases ha

/-- Any other action may as well not happen. -/
theorem Resembles.step_of_not_makes (h : s.Resembles t) (hs : s.Genuine) {a : Action}
    (ha : a.makes = false) : Resembles (s.step a).2 t := by
  rw [Session.step_of_not_makes hs ha]
  refine ⟨(tookFrom_sequenceNames s _).trans h.sequenceNames,
    (tookFrom_compilers s _).trans h.compilers, ?_⟩
  rw [tookFrom_sequences, PrefixSequence.length_advanceAll, h.length]

/-- **Of a run only what it makes is left behind**, but for the numbers of the sequences. -/
theorem Resembles.run (h : s.Resembles t) (hs : s.Genuine) (as : List Action) :
    Resembles (s.run as).2 (t.run (as.filter Action.makes)).2 := by
  induction as generalizing s t with
  | nil => exact h
  | cons a as ih =>
    cases ha : a.makes with
    | false =>
      rw [List.filter_cons_of_neg (by simp [ha])]
      exact ih (h.step_of_not_makes hs ha) (genuine_step hs a)
    | true =>
      rw [List.filter_cons_of_pos ha]
      exact ih (h.step_of_makes ha) (genuine_step hs a)

theorem genuine_initial : Genuine {} := fun _ hb => (List.not_mem_nil hb).elim

/-- **A session remembers numbers only.**  Behind any run, each sequence has moved forward from
where it began by the actions that took a number from it; the names and compilers are those of a run
of which all is left out that makes nothing; and every compiler is one that its configuration makes.
Every compilation in the run, failed or not, is answered as by a compiler that is made for it alone
and draws from a sequence that begins with the number of the compiler's own. -/
theorem run_eq_fresh (as : List Action) :
    (run {} as).2.sequences = PrefixSequence.advanceAll (fun i => drawCount i {} as)
      ((0 :: as.filterMap Action.start?).map PrefixSequence.mk) ∧
    (run {} as).2.sequenceNames = (run {} (as.filter Action.makes)).2.sequenceNames ∧
    (run {} as).2.compilers = (run {} (as.filter Action.makes)).2.compilers ∧
    (∀ b ∈ (run {} as).2.compilers, ∃ sequence, .makeCompiler b.1 sequence b.2.compiler.config
        b.2.compiler.isFurtherGlobal ∈ as ∧
      Compiler.ofConfig? b.2.compiler.config b.2.compiler.isFurtherGlobal = .ok b.2.compiler) ∧
    ∀ (j : Nat) (a : Action) (q : CompileRequest), as[j]? = some a →
      (run {} (as.take j)).2.request? a = some q →
      (run {} as).1[j]? = some (q.answer ((run {} (as.take j)).2.sequenceAt q.sequence).next) := by
  have hresembles := Resembles.run ⟨rfl, rfl, rfl⟩ genuine_initial as
  refine ⟨sequences_run genuine_initial valid_initial as, hresembles.sequenceNames,
    hresembles.compilers, fun b hb => ?_, fun j a q ha hq => ?_⟩
  · exact (mem_compilers_run genuine_initial as hb).resolve_left List.not_mem_nil
  · rw [getElem?_run, ha, Option.map_some, step_request (genuine_run genuine_initial _) hq]

/-- Two compilers share a sequence that begins with 5.  Of the first one's compilations, that of a
routine that is rejected takes a number, and those of no text, of a text that does not parse and of
one that is no function take none; another number is drawn, and the second compiler is left
with 7. -/
theorem run_eq_fresh_shared :
    let name (c : Char) : Text := .ofChars [c]
    let source (cs : List Char) : RoutineSource := .value (.text (.ofChars cs))
    let k : Config := ⟨[], .text (.ofChars ['k', '_'])⟩
    let l : Config := ⟨[name 'y'], .text (.ofChars ['l', '_'])⟩
    let actions : List Action :=
      [.makeSequence (name 's') 5, .makeCompiler (name 'a') (some (name 's')) k fun _ => false,
       .makeCompiler (name 'b') (some (name 's')) l fun _ => false,
       .compile (name 'a') .bareHandle, .compile (name 'a') (source ['x', '=']),
       .compile (name 'a') (source ['x']), .compile (name 'a') (source ['x', '=', '>', 't', 'h',
         'i', 's']), .draw (name 's'), .compile (name 'b') (source ['x', '=', '>', 'x', '+', 'y'])]
    (run {} actions).2.sequences = [⟨0⟩, ⟨8⟩] ∧
      (run {} actions).1[8]? = some (CompileRequest.answer
        ⟨l, fun _ => false, source ['x', '=', '>', 'x', '+', 'y'], 1⟩ 7) := by
  intro name source k l actions
  obtain ⟨hsequences, -, -, -, hanswer⟩ := run_eq_fresh actions
  refine ⟨hsequences.trans (by decide +kernel), ?_⟩
  obtain ⟨hbefore, -, hcompilers, -, -⟩ := run_eq_fresh (actions.take 8)
  have hrequest : (run {} (actions.take 8)).2.request? (.compile (name 'b')
      (source ['x', '=', '>', 'x', '+', 'y'])) =
      some ⟨l, fun _ => false, source ['x', '=', '>', 'x', '+', 'y'], 1⟩ := by
    rw [request?, compiler?, hcompilers]
    rfl
  have hnumber : ((run {} (actions.take 8)).2.sequenceAt 1).next = 7 := by
    rw [sequenceAt, hbefore]
    decide +kernel
  rw [hanswer 8 _ _ rfl hrequest, hnumber]

end Session
end Elementwise
