import Mathlib.Data.BitVec
import Mathlib.Data.Fin.VecNotation
import TwinForge.Plcopen.BasicDrum

/-! # The drum sequencer

Runs of both drum bodies. Other logic may write the bound variables between two calls, and
several control bits may be bound to one variable.
-/

namespace TwinForge.Plcopen

open BlockBody Scans

variable {Var : Type}

/-- Names of the instance, or variables bound to its control bits. -/
abbrev DrumPlace (Var : Type) := DrumName ⊕ Var

abbrev DrumMemory (Var : Type) := DrumPlace Var → Value

/-- One call: its inputs, and what other logic has written since the call before. -/
structure DrumCall (Var : Type) where
  reset : Bool := false
  u : Bool := false
  elsewhere : Var → Option Bool := fun _ => none

structure DrumSetup (Var : Type) where
  nsteps : Int
  pattern : Fin 8 → BitVec 16
  bound : Fin 16 → Var

namespace DrumSetup

variable (setup : DrumSetup Var)

/-- The plain block: control bits are in-outs. -/
def plainFrame : DrumName → Option (DrumPlace Var)
  | .control bit => some (.inr (setup.bound bit))
  | .reference _ => none
  | name => some (.inl name)

/-- The CODESYS block: only the references lead outside. -/
def codesysFrame : DrumName → Option (DrumPlace Var)
  | .control _ => none
  | .reference bit => some (.inr (setup.bound bit))
  | name => some (.inl name)

def table : List (BitVec 16) := List.ofFn setup.pattern

/-- A memory with the step count and the pattern set. -/
def configured (memory : DrumMemory Var) : DrumMemory Var
  | .inl .nsteps => .int setup.nsteps
  | .inl .pattern => .words setup.table
  | place => memory place

end DrumSetup

def presented (memory : DrumMemory Var) (call : DrumCall Var) : DrumMemory Var
  | .inl .reset => .bool call.reset
  | .inl .u => .bool call.u
  | .inl name => memory (.inl name)
  | .inr output => ((call.elsewhere output).map .bool).getD (memory (.inr output))

def declared (outputs : Var → Bool) : DrumMemory Var
  | .inl .stepNo | .inl .nsteps => .int 0
  | .inl .pattern => .words (List.replicate 8 0)
  | .inl .current => .word 0
  | .inl _ => .bool false
  | .inr output => .bool (outputs output)

def DrumName.declared : DrumName → Bool
  | .control _ | .reference _ => false
  | _ => true

theorem drumReferences (setup : DrumSetup Var) :
    Redirects toReference DrumName.declared setup.plainFrame setup.codesysFrame where
  kept name h := by cases name <;> first | rfl | simp [DrumName.declared] at h
  moved name reference h := by
    cases name <;> simp only [toReference, Option.some.injEq, reduceCtorEq] at h
    subst h
    exact ⟨rfl, rfl⟩

theorem drumStatements_within :
    drumStatements.within toReference DrumName.declared = true := by decide

section

variable [DecidableEq Var] (setup : DrumSetup Var)

/-- A call of the plain block passes its step count and pattern. -/
def plainCall (memory : DrumMemory Var) (call : DrumCall Var) : Option (DrumMemory Var) :=
  drumStatements.exec setup.plainFrame (setup.configured (presented memory call))

/-- A call of the CODESYS block passes only the two inputs. -/
def codesysCall (memory : DrumMemory Var) (call : DrumCall Var) : Option (DrumMemory Var) :=
  (drumStatements.through toReference).exec setup.codesysFrame (presented memory call)

def plainRun (outputs : Var → Bool) (run : List (DrumCall Var)) : Option (DrumMemory Var) :=
  run.foldlM (plainCall setup) (declared outputs)

/-- A run after `FB_init` has set the configuration once. -/
def codesysRun (outputs : Var → Bool) (run : List (DrumCall Var)) : Option (DrumMemory Var) :=
  run.foldlM (codesysCall setup) (setup.configured (declared outputs))

end

structure DrumState (Var : Type) where
  stepNo : Int := 0
  f : Bool := false
  uLast : Bool := false
  write : Bool := false
  current : BitVec 16 := 0
  outputs : Var → Bool

namespace DrumState

/-- The memory of an instance in a state, with the inputs of its last call. -/
def memory (state : DrumState Var) (setup : DrumSetup Var) (reset u : Bool) : DrumMemory Var
  | .inl .reset => .bool reset
  | .inl .u => .bool u
  | .inl .nsteps => .int setup.nsteps
  | .inl .pattern => .words setup.table
  | .inl .f => .bool state.f
  | .inl .stepNo => .int state.stepNo
  | .inl .uLast => .bool state.uLast
  | .inl .write => .bool state.write
  | .inl .current => .word state.current
  | .inl (.control _) | .inl (.reference _) => .bool false
  | .inr output => .bool (state.outputs output)

section

variable (state : DrumState Var) (setup : DrumSetup Var) (reset u : Bool)

@[simp] theorem memory_f [DecidableEq Var] (b : Bool) :
    Function.update (state.memory setup reset u) (.inl .f) (.bool b) =
      { state with f := b }.memory setup reset u := by
  funext place
  rcases place with name | output <;> try cases name
  all_goals simp [memory, Function.update]

@[simp] theorem memory_stepNo [DecidableEq Var] (n : Int) :
    Function.update (state.memory setup reset u) (.inl .stepNo) (.int n) =
      { state with stepNo := n }.memory setup reset u := by
  funext place
  rcases place with name | output <;> try cases name
  all_goals simp [memory, Function.update]

@[simp] theorem memory_uLast [DecidableEq Var] (b : Bool) :
    Function.update (state.memory setup reset u) (.inl .uLast) (.bool b) =
      { state with uLast := b }.memory setup reset u := by
  funext place
  rcases place with name | output <;> try cases name
  all_goals simp [memory, Function.update]

@[simp] theorem memory_write [DecidableEq Var] (b : Bool) :
    Function.update (state.memory setup reset u) (.inl .write) (.bool b) =
      { state with write := b }.memory setup reset u := by
  funext place
  rcases place with name | output <;> try cases name
  all_goals simp [memory, Function.update]

@[simp] theorem memory_current [DecidableEq Var] (w : BitVec 16) :
    Function.update (state.memory setup reset u) (.inl .current) (.word w) =
      { state with current := w }.memory setup reset u := by
  funext place
  rcases place with name | output <;> try cases name
  all_goals simp [memory, Function.update]

@[simp] theorem memory_output [DecidableEq Var] (written : Var) (b : Bool) :
    Function.update (state.memory setup reset u) (.inr written) (.bool b) =
      { state with outputs := Function.update state.outputs written b }.memory setup reset u := by
  funext place
  rcases place with name | output
  · cases name <;> simp [memory, Function.update]
  · by_cases h : output = written <;> simp [memory, Function.update, h]

end

end DrumState

def writeControls [DecidableEq Var] (bound : Fin 16 → Var) (word : BitVec 16)
    (bits : List (Fin 16)) (outputs : Var → Bool) : Var → Bool :=
  bits.foldl (fun written bit => Function.update written (bound bit) (word.getLsbD bit)) outputs

def drum [DecidableEq Var] (setup : DrumSetup Var) (state : DrumState Var) (call : DrumCall Var) :
    DrumState Var :=
  let outputs output := (call.elsewhere output).getD (state.outputs output)
  let edge := call.u && !state.uLast
  let write := call.reset || edge
  let stepNo :=
    if call.reset then 0
    else if edge then if setup.nsteps - 1 ≤ state.stepNo then 0 else state.stepNo + 1
    else state.stepNo
  let current := if write then setup.pattern (Fin.ofNat 8 stepNo.toNat) else state.current
  { stepNo, f := decide (stepNo = setup.nsteps - 1), uLast := call.u, write, current
    outputs := if write then writeControls setup.bound current (List.finRange 16) outputs
      else outputs }

section

variable [DecidableEq Var] {setup : DrumSetup Var} {state : DrumState Var} {call : DrumCall Var}

theorem mask_ne_zero (word : BitVec 16) (bit : Fin 16) :
    decide (word &&& BitVec.twoPow 16 bit ≠ 0#16) = word.getLsbD bit := by
  rw [BitVec.and_twoPow]
  by_cases h : word.getLsbD bit = true
  · have hbit : BitVec.twoPow 16 bit ≠ 0#16 := by
      intro hzero
      have hset := congrArg (fun w => w.getLsbD bit) hzero
      simp at hset
    rw [if_pos h, h]
    simpa using hbit
  · rw [if_neg h, (Bool.not_eq_true _).mp h]
    simp

theorem controlWrites_exec (bits : List (Fin 16)) (state : DrumState Var) (reset u : Bool) :
    (assigns (bits.map controlWrite) .done).exec setup.plainFrame
        (state.memory setup reset u) =
      some ({ state with
        outputs := writeControls setup.bound state.current bits state.outputs }.memory
          setup reset u) := by
  induction bits generalizing state with
  | nil => rfl
  | cons bit bits ih =>
    have hvalue : (controlWrite bit).2.eval setup.plainFrame (state.memory setup reset u) =
        some (.bool (state.current.getLsbD bit)) := by
      rw [← mask_ne_zero]
      rfl
    have hplace : setup.plainFrame (controlWrite bit).1 = some (.inr (setup.bound bit)) := rfl
    have hassign : (assigns ((bit :: bits).map controlWrite) .done).exec setup.plainFrame
        (state.memory setup reset u) =
        (assigns (bits.map controlWrite) .done).exec setup.plainFrame
          (Function.update (state.memory setup reset u) (.inr (setup.bound bit))
            (.bool (state.current.getLsbD bit))) := by
      simp only [assigns, List.map_cons, List.foldr_cons, Body.exec, hvalue, hplace]
      rfl
    rw [hassign, DrumState.memory_output, ih]
    rfl

/-- The state as a call finds it, after other logic has written. -/
def DrumState.presented (state : DrumState Var) (call : DrumCall Var) : DrumState Var :=
  { state with outputs := fun output => (call.elsewhere output).getD (state.outputs output) }

omit [DecidableEq Var] in
theorem presented_memory (reset u : Bool) :
    setup.configured (presented (state.memory setup reset u) call) =
      (state.presented call).memory setup call.reset call.u := by
  funext place
  rcases place with name | output
  · cases name <;> rfl
  · show ((call.elsewhere output).map Value.bool).getD (.bool (state.outputs output)) =
      .bool ((call.elsewhere output).getD (state.outputs output))
    cases call.elsewhere output <;> rfl

omit [DecidableEq Var] in
theorem elementAt_pattern (setup : DrumSetup Var) {step : Int} (hstep : 0 ≤ step ∧ step < 8) :
    elementAt (.words setup.table) (.int step) =
      some (.word (setup.pattern (Fin.ofNat 8 step.toNat))) := by
  have hlt : step.toNat < 8 := by omega
  have hmod : Fin.ofNat 8 step.toNat = ⟨step.toNat, hlt⟩ := by
    apply Fin.ext
    simp [Nat.mod_eq_of_lt hlt]
  simp only [elementAt, if_pos hstep.1, DrumSetup.table, List.getElem?_ofFn, hlt, dif_pos, hmod,
    Option.map_some]

/-- A call of the plain block from a state of the sequencer leaves its next state. -/
theorem plainCall_drum (hsteps : setup.nsteps ≤ 8)
    (hstate : 0 ≤ state.stepNo ∧ state.stepNo < setup.nsteps) (reset u : Bool) :
    plainCall setup (state.memory setup reset u) call =
      some ((drum setup state call).memory setup call.reset call.u) := by
  rw [plainCall, presented_memory]
  cases hreset : call.reset with
  | true =>
    have hfirst := elementAt_pattern setup (show (0 : Int) ≤ 0 ∧ (0 : Int) < 8 by omega)
    simp [drumStatements, lastStep, Body.exec, Chain.exec, Term.eval, DrumSetup.plainFrame,
      DrumState.memory, hfirst, drum, hreset, controlWrites, controlWrites_exec,
      DrumState.presented]
  | false =>
    cases hedge : call.u && !state.uLast with
    | false =>
      simp [drumStatements, lastStep, Body.exec, Chain.exec, Term.eval,
        DrumSetup.plainFrame, DrumState.memory, drum, hreset, hedge, DrumState.presented]
    | true =>
      by_cases hlast : setup.nsteps - 1 ≤ state.stepNo
      · have hfirst := elementAt_pattern setup (show (0 : Int) ≤ 0 ∧ (0 : Int) < 8 by omega)
        simp [drumStatements, lastStep, Body.exec, Chain.exec, Term.eval,
          DrumSetup.plainFrame, DrumState.memory, hfirst, drum, hreset, hedge, hlast,
          controlWrites, controlWrites_exec, DrumState.presented]
      · have hnext := elementAt_pattern setup (show 0 ≤ state.stepNo + 1 ∧ state.stepNo + 1 < 8 by omega)
        simp [drumStatements, lastStep, Body.exec, Chain.exec, Term.eval,
          DrumSetup.plainFrame, DrumState.memory, hnext, drum, hreset, hedge, hlast,
          controlWrites, controlWrites_exec, DrumState.presented]

end

def DrumState.start (outputs : Var → Bool) : DrumState Var := { outputs }

section

variable [DecidableEq Var] (setup : DrumSetup Var) (outputs : Var → Bool)

abbrev DrumMoment (Var : Type) := Moment (DrumState Var) (DrumCall Var)

def drumHistory (run : List (DrumCall Var)) : List (DrumMoment Var) :=
  moments (drum setup) (.start outputs) {} run

/-- A rising edge of `U`. -/
def DrumMoment.edge (moment : DrumMoment Var) : Bool := moment.input.u && !moment.previous.u

/-- The rising edges since the last reset call; histories are newest first. -/
def edgesSinceReset (history : List (DrumMoment Var)) : Nat :=
  (history.takeWhile fun moment => !moment.input.reset).countP DrumMoment.edge

omit [DecidableEq Var] in
theorem start_memory :
    setup.configured (declared outputs) =
      (DrumState.start outputs).memory setup false false := by
  funext place
  rcases place with name | output
  · cases name <;> rfl
  · rfl

theorem plainCall_configured (memory : DrumMemory Var) (call : DrumCall Var) :
    plainCall setup (setup.configured memory) call = plainCall setup memory call := by
  have hsame : setup.configured (presented (setup.configured memory) call) =
      setup.configured (presented memory call) := by
    funext place
    rcases place with name | output
    · cases name <;> rfl
    · rfl
  rw [plainCall, plainCall, hsame]

theorem codesysCall_plainCall (state : DrumState Var) (reset u : Bool) (call : DrumCall Var) :
    codesysCall setup (state.memory setup reset u) call =
      plainCall setup (state.memory setup reset u) call := by
  have hconfigured : setup.configured (presented (state.memory setup reset u) call) =
      presented (state.memory setup reset u) call := by
    funext place
    rcases place with name | output
    · cases name <;> rfl
    · rfl
  rw [codesysCall, plainCall, hconfigured]
  exact (drumReferences setup).body drumStatements _ drumStatements_within

variable {setup} (hsteps : 1 ≤ setup.nsteps ∧ setup.nsteps ≤ 8)

include hsteps

theorem drum_stepNo {state : DrumState Var}
    (hstate : 0 ≤ state.stepNo ∧ state.stepNo < setup.nsteps) (call : DrumCall Var) :
    0 ≤ (drum setup state call).stepNo ∧ (drum setup state call).stepNo < setup.nsteps := by
  simp only [drum]
  split
  · omega
  · split
    · split <;> omega
    · exact hstate

/-- The runs of both variants, and the sequencer's own, reach the same memory. -/
theorem runs_memory (run : List (DrumCall Var)) {state : DrumState Var}
    (hstate : 0 ≤ state.stepNo ∧ state.stepNo < setup.nsteps) (reset u : Bool) :
    ∃ lastReset lastU,
      run.foldlM (plainCall setup) (state.memory setup reset u) =
        some ((after (drum setup) state run).memory setup lastReset lastU) ∧
      run.foldlM (codesysCall setup) (state.memory setup reset u) =
        some ((after (drum setup) state run).memory setup lastReset lastU) := by
  induction run generalizing state reset u with
  | nil => exact ⟨reset, u, rfl, rfl⟩
  | cons call rest ih =>
    have hplain := @plainCall_drum _ _ _ _ call hsteps.2 hstate reset u
    have hcodesys := codesysCall_plainCall setup state reset u call
    have ⟨lastReset, lastU, hrun⟩ := ih (drum_stepNo hsteps hstate call) call.reset call.u
    refine ⟨lastReset, lastU, ?_⟩
    simpa only [List.foldlM_cons, hcodesys, hplain, Option.bind_eq_bind, Option.bind_some,
      after_cons] using hrun

omit [DecidableEq Var] hsteps in
theorem edgesSinceReset_cons (moment : DrumMoment Var) (history : List (DrumMoment Var)) :
    edgesSinceReset (moment :: history) =
      if moment.input.reset then 0
      else edgesSinceReset history + if moment.edge then 1 else 0 := by
  cases h : moment.input.reset <;> simp [edgesSinceReset, h, List.countP_cons]

/-- The step is the number of edges since the last reset, modulo the number of steps, and
the edge memory holds the last input. -/
structure Sequences (setup : DrumSetup Var) (outputs : Var → Bool) (past : List (DrumCall Var))
    (state : DrumState Var) : Prop where
  range : 0 ≤ state.stepNo ∧ state.stepNo < setup.nsteps
  count : state.stepNo = (edgesSinceReset (drumHistory setup outputs past) : Int) % setup.nsteps
  last : state.uLast = (past.getLast?.getD {}).u

omit [DecidableEq Var] hsteps in
theorem next_step {step count : Int} (hstep : 0 ≤ step ∧ step < setup.nsteps)
    (hcount : step = count % setup.nsteps) :
    (if setup.nsteps - 1 ≤ step then 0 else step + 1) = (count + 1) % setup.nsteps := by
  have hnext := Int.emod_add_emod count setup.nsteps 1
  rw [← hcount] at hnext
  by_cases hwrap : setup.nsteps - 1 ≤ step
  · have hfull : step + 1 = setup.nsteps := by omega
    rw [if_pos hwrap, ← hnext, hfull, Int.emod_self]
  · rw [if_neg hwrap, ← hnext, Int.emod_eq_of_lt (by omega) (by omega)]

theorem drum_sequences (run : List (DrumCall Var)) :
    Sequences setup outputs run (after (drum setup) (.start outputs) run) := by
  have hstart : Sequences setup outputs [] (.start outputs) := by
    constructor
    · show 0 ≤ (0 : Int) ∧ (0 : Int) < setup.nsteps
      omega
    · simp [DrumState.start, drumHistory, edgesSinceReset]
    · rfl
  refine after_history _ hstart ?_ run
  · intro past call hpast
    have hrange := hpast.range
    have hcount := hpast.count
    have hlast := hpast.last
    constructor
    · exact drum_stepNo hsteps hrange call
    · rw [drumHistory, moments_concat, edgesSinceReset_cons, ← drumHistory]
      generalize after (drum setup) (.start outputs) past = state at *
      have hedge : DrumMoment.edge
          ⟨state, call, past.getLast?.getD {}, drum setup state call⟩ =
            (call.u && !state.uLast) := by
        rw [hlast]
        rfl
      rw [hedge]
      simp only [drum]
      cases call.reset with
      | true => simp
      | false =>
        cases call.u && !state.uLast with
        | false => simpa using hcount
        | true => simpa using next_step hrange hcount
    · simp [drum]

end

section

variable [DecidableEq Var] {setup : DrumSetup Var}

theorem writeControls_unbound {word : BitVec 16} {bits : List (Fin 16)} {output : Var}
    (h : ∀ bit ∈ bits, setup.bound bit ≠ output) (outputs : Var → Bool) :
    writeControls setup.bound word bits outputs output = outputs output := by
  induction bits generalizing outputs with
  | nil => rfl
  | cons bit bits ih =>
    have hne : output ≠ setup.bound bit := (h bit (by simp)).symm
    have hrest := ih (fun later hlater => h later (by simp [hlater]))
      (Function.update outputs (setup.bound bit) (word.getLsbD bit))
    rw [Function.update_of_ne hne] at hrest
    exact hrest

theorem writeControls_unshared {word : BitVec 16} {bits : List (Fin 16)} {bit : Fin 16}
    (hbit : bit ∈ bits) (h : ∀ other, setup.bound other = setup.bound bit → other = bit)
    (outputs : Var → Bool) :
    writeControls setup.bound word bits outputs (setup.bound bit) = word.getLsbD bit := by
  induction bits generalizing outputs with
  | nil => simp at hbit
  | cons first bits ih =>
    by_cases hlater : bit ∈ bits
    · exact ih hlater _
    · have hfirst : bit = first := by simpa [hlater] using hbit
      have hrest : ∀ later ∈ bits, setup.bound later ≠ setup.bound bit := by
        intro later hmem heq
        exact hlater (h later heq ▸ hmem)
      have hwritten := @writeControls_unbound _ _ setup word _ _ hrest
        (Function.update outputs (setup.bound bit) (word.getLsbD bit))
      rw [Function.update_self] at hwritten
      rw [← hfirst]
      exact hwritten

end

/-- Two memories that show the same drum, at the step the calls lead to. -/
structure SameDrum [DecidableEq Var] (setup : DrumSetup Var) (outputs : Var → Bool)
    (run : List (DrumCall Var)) (plain codesys : DrumMemory Var) : Prop where
  stepNo : codesys (.inl .stepNo) = plain (.inl .stepNo)
  f : codesys (.inl .f) = plain (.inl .f)
  bound : ∀ output, codesys (.inr output) = plain (.inr output)
  position : ∃ step : Int, plain (.inl .stepNo) = .int step ∧ 0 ≤ step ∧ step < setup.nsteps ∧
    step = (edgesSinceReset (drumHistory setup outputs run) : Int) % setup.nsteps ∧
    (run ≠ [] → plain (.inl .f) = .bool (decide (step = setup.nsteps - 1)))

structure Shows (memory : DrumMemory Var) (state : DrumState Var) : Prop where
  stepNo : memory (.inl .stepNo) = .int state.stepNo
  f : memory (.inl .f) = .bool state.f
  outputs : ∀ output, memory (.inr output) = .bool (state.outputs output)

/-- What a call writes: nothing without a reset or a rising edge, else the pattern of the
step. -/
structure WritesStep (setup : DrumSetup Var) (call previous : DrumCall Var)
    (found left : DrumMemory Var) : Prop where
  kept : call.reset = false → (call.u = true → previous.u = true) →
    ∀ output, left (.inr output) = found (.inr output)
  written : (call.reset = true ∨ (call.u = true ∧ previous.u = false)) →
    ∀ step : Fin 8, left (.inl .stepNo) = .int (step : Nat) →
      ∀ bit, (∀ other, setup.bound other = setup.bound bit → other = bit) →
        left (.inr (setup.bound bit)) = .bool ((setup.pattern step).getLsbD bit)
  unbound : ∀ output, (∀ bit, setup.bound bit ≠ output) → left (.inr output) = found (.inr output)

section

variable [DecidableEq Var] {setup : DrumSetup Var} (outputs : Var → Bool)

theorem plainRun_configured (call : DrumCall Var) (rest : List (DrumCall Var)) :
    plainRun setup outputs (call :: rest) =
      (call :: rest).foldlM (plainCall setup) ((DrumState.start outputs).memory setup false false) := by
  rw [plainRun, List.foldlM_cons, List.foldlM_cons, ← plainCall_configured, start_memory]

variable (hsteps : 1 ≤ setup.nsteps ∧ setup.nsteps ≤ 8)

include hsteps

theorem drumRuns (run : List (DrumCall Var)) :
    ∃ plain codesys, plainRun setup outputs run = some plain ∧
      codesysRun setup outputs run = some codesys ∧
      Shows plain (after (drum setup) (.start outputs) run) ∧
      Shows codesys (after (drum setup) (.start outputs) run) := by
  have hstart : 0 ≤ (DrumState.start outputs).stepNo ∧
      (DrumState.start outputs).stepNo < setup.nsteps := by
    show 0 ≤ (0 : Int) ∧ (0 : Int) < setup.nsteps
    omega
  have ⟨lastReset, lastU, hplain, hcodesys⟩ := runs_memory hsteps run hstart false false
  rw [← start_memory] at hcodesys
  cases run with
  | nil => exact ⟨_, _, rfl, rfl, ⟨rfl, rfl, fun _ => rfl⟩, ⟨rfl, rfl, fun _ => rfl⟩⟩
  | cons call rest =>
    rw [← plainRun_configured] at hplain
    exact ⟨_, _, hplain, hcodesys, ⟨rfl, rfl, fun _ => rfl⟩, ⟨rfl, rfl, fun _ => rfl⟩⟩

omit hsteps in
theorem drum_writes {earlier left : DrumMemory Var} {state : DrumState Var} {call : DrumCall Var}
    {previous : DrumCall Var} (hfound : Shows earlier state) (hlast : state.uLast = previous.u)
    (hleft : Shows left (drum setup state call)) :
    WritesStep setup call previous (presented earlier call) left := by
  have hpresented : ∀ output, presented earlier call (.inr output) =
      .bool ((state.presented call).outputs output) := by
    intro output
    show ((call.elsewhere output).map Value.bool).getD (earlier (.inr output)) =
      .bool ((call.elsewhere output).getD (state.outputs output))
    rw [hfound.outputs]
    cases call.elsewhere output <;> rfl
  constructor
  · intro hreset hheld output
    have hedge : (call.u && !state.uLast) = false := by
      rw [hlast]
      grind
    rw [hleft.outputs, hpresented]
    simp [drum, hreset, hedge, DrumState.presented]
  · intro hwrites step hstep bit hunshared
    have hwrite : (call.reset || call.u && !state.uLast) = true := by
      rw [hlast]
      grind
    have hindex : Fin.ofNat 8 (drum setup state call).stepNo.toNat = step := by
      have hvalue := hleft.stepNo.symm.trans hstep
      rw [Value.int.inj hvalue]
      apply Fin.ext
      simp
    have houtputs : (drum setup state call).outputs =
        writeControls setup.bound
          (setup.pattern (Fin.ofNat 8 (drum setup state call).stepNo.toNat)) (List.finRange 16)
          (state.presented call).outputs := by
      simp only [drum, hwrite, if_true, DrumState.presented]
    rw [hleft.outputs, houtputs, hindex, writeControls_unshared (List.mem_finRange bit) hunshared]
  · intro output hunbound
    rw [hleft.outputs, hpresented]
    simp only [drum]
    split
    · rw [writeControls_unbound fun bit _ => hunbound bit]
      rfl
    · rfl

/-- Both bodies, the plain one and the one substituted from its text, run the same sequencer
on any run of calls, whatever the pattern and the variables the control bits are bound to. -/
theorem drum_variants (outputs : Var → Bool) (run : List (DrumCall Var)) :
    drumStatements.lines DrumName.spell 0 = drumBody ∧
    (drumStatements.through toReference).lines DrumName.spell 0 = throughReferences drumBody ∧
    ∃ plain codesys, plainRun setup outputs run = some plain ∧
      codesysRun setup outputs run = some codesys ∧
      SameDrum setup outputs run plain codesys ∧
      ∀ before call, run = before ++ [call] → ∃ earlier, plainRun setup outputs before = some earlier ∧
        WritesStep setup call (before.getLast?.getD {}) (presented earlier call) plain := by
  have ⟨plain, codesys, hplain, hcodesys, hshows, hsame⟩ :=
    drumRuns outputs hsteps run
  have hsequences := drum_sequences outputs hsteps run
  refine ⟨drumBody_lines.symm, throughReferences_lines.symm, plain, codesys, hplain, hcodesys,
    ?_, ?_⟩
  · constructor
    · rw [hshows.stepNo, hsame.stepNo]
    · rw [hshows.f, hsame.f]
    · intro output
      rw [hshows.outputs, hsame.outputs]
    · refine ⟨_, hshows.stepNo, hsequences.range.1, hsequences.range.2, hsequences.count, ?_⟩
      intro hrun
      have ⟨past, call, hsplit⟩ := List.eq_nil_or_concat run |>.resolve_left hrun
      rw [hshows.f, hsplit, List.concat_eq_append, after_append]
      rfl
  · intro before call hrun
    have ⟨earlier, _, hearlier, _, hfound, _⟩ := drumRuns outputs hsteps before
    have hlast := (drum_sequences outputs hsteps before).last
    rw [hrun, after_append] at hshows
    exact ⟨earlier, hearlier, drum_writes hfound hlast hshows⟩

end

/-- Two steps, with every control bit bound to its own variable. -/
def twoSteps : DrumSetup (Fin 16) where
  nsteps := 2
  pattern step := if step = 1 then 3 else 0
  bound bit := bit

theorem drum_variants_twoSteps :
    ∃ plain codesys, plainRun twoSteps (fun _ => false) [{ u := true }] = some plain ∧
      codesysRun twoSteps (fun _ => false) [{ u := true }] = some codesys ∧
      SameDrum twoSteps (fun _ => false) [{ u := true }] plain codesys := by
  have ⟨_, _, plain, codesys, hplain, hcodesys, hsame, _⟩ :=
    @drum_variants _ _ twoSteps (by decide) (fun _ => false) [{ u := true }]
  exact ⟨plain, codesys, hplain, hcodesys, hsame⟩

end TwinForge.Plcopen
