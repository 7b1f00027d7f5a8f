import Mathlib.Algebra.Order.Group.Int
import Mathlib.Algebra.Ring.Int.Defs
import Mathlib.Data.List.Induction

/-! # Runs of a machine that is called once per scan

A scanned machine is a function from the state a call finds and the input of that call
to the state the call leaves. What one call preserves, a run of any length preserves:
alone, together with the history of the run, or related to a second machine that reads
the same inputs.
-/

namespace TwinForge.Scans

variable {State Other Input : Type}

def after (step : State → Input → State) (state : State) (run : List Input) : State :=
  run.foldl step state

def calls (step : State → Input → State) (state : State) : List Input → List (State × Input)
  | [] => []
  | input :: rest => (state, input) :: calls step (step state input) rest

variable {state : State} {run : List Input}

section

variable (step : State → Input → State)

@[simp] theorem after_nil (state : State) : after step state [] = state := rfl

@[simp] theorem after_cons (state : State) (input : Input) (rest : List Input) :
    after step state (input :: rest) = after step (step state input) rest := rfl

@[simp] theorem after_append (state : State) (first second : List Input) :
    after step state (first ++ second) = after step (after step state first) second :=
  List.foldl_append ..

theorem mem_calls {found : State} {input : Input} :
    (found, input) ∈ calls step state run ↔
      ∃ before rest, run = before ++ input :: rest ∧ found = after step state before := by
  induction run generalizing state with
  | nil => simp [calls]
  | cons head rest ih =>
    simp only [calls, List.mem_cons, Prod.mk.injEq, ih]
    constructor
    · rintro (⟨rfl, rfl⟩ | ⟨before, later, rfl, rfl⟩)
      · exact ⟨[], rest, rfl, rfl⟩
      · exact ⟨head :: before, later, rfl, rfl⟩
    · rintro ⟨before, later, hrun, rfl⟩
      cases before with
      | nil =>
        have heq := List.cons.inj hrun
        exact .inl ⟨rfl, heq.1.symm⟩
      | cons first before =>
        have heq := List.cons.inj hrun
        refine .inr ⟨before, later, heq.2, ?_⟩
        rw [heq.1, after_cons]

theorem calls_append (state : State) (first second : List Input) :
    calls step state (first ++ second) =
      calls step state first ++ calls step (after step state first) second := by
  induction first generalizing state with
  | nil => rfl
  | cons head rest ih => simp only [List.cons_append, calls, ih, after_cons]

end

/-- One call of a run: the state it finds, its input, the input of the call before it, and
the state it leaves. -/
structure Moment (State Input : Type) where
  found : State
  input : Input
  previous : Input
  left : State

section

variable (step : State → Input → State)

/-- The moments of a run, the newest in front of those already `seen`. -/
def momentsOnto (state : State) (previous : Input) :
    List Input → List (Moment State Input) → List (Moment State Input)
  | [], seen => seen
  | input :: rest, seen =>
    momentsOnto (step state input) input rest (⟨state, input, previous, step state input⟩ :: seen)

/-- The moments of a run, newest first; before the first call the inputs were `idle`. -/
def moments (state : State) (idle : Input) (run : List Input) : List (Moment State Input) :=
  momentsOnto step state idle run []

theorem momentsOnto_concat (state : State) (previous : Input) (run : List Input) (input : Input)
    (seen : List (Moment State Input)) :
    momentsOnto step state previous (run ++ [input]) seen =
      ⟨after step state run, input, run.getLast?.getD previous,
        step (after step state run) input⟩ :: momentsOnto step state previous run seen := by
  induction run generalizing state previous seen with
  | nil => rfl
  | cons head rest ih =>
    have hlast : (head :: rest).getLast?.getD previous = rest.getLast?.getD head := by
      cases rest with
      | nil => rfl
      | cons next rest => rw [List.getLast?_cons_cons, List.getLast?_cons]; rfl
    simp only [List.cons_append, momentsOnto, ih, after_cons, hlast]

@[simp] theorem moments_nil (state : State) (idle : Input) : moments step state idle [] = [] := rfl

@[simp] theorem moments_concat (state : State) (idle : Input) (run : List Input) (input : Input) :
    moments step state idle (run ++ [input]) =
      ⟨after step state run, input, run.getLast?.getD idle, step (after step state run) input⟩ ::
        moments step state idle run :=
  momentsOnto_concat ..

end

section

variable {step : State → Input → State} {other : Other → Input → Other}

variable {admitted : State → Input → Prop}

/-- What every admitted call preserves holds wherever a run of admitted calls arrives. -/
theorem after_invariant {invariant : State → Prop}
    (hstep : ∀ state input, invariant state → admitted state input →
      invariant (step state input)) (hstate : invariant state)
    (hrun : ∀ call ∈ calls step state run, admitted call.1 call.2) :
    invariant (after step state run) := by
  induction run generalizing state with
  | nil => exact hstate
  | cons input rest ih =>
    have hfirst := hrun (state, input) (by simp [calls])
    have hrest : ∀ call ∈ calls step (step state input) rest, admitted call.1 call.2 :=
      fun call hcall => hrun call (by simp [calls, hcall])
    exact ih (hstep state input hstate hfirst) hrest

/-- What every admitted call preserves holds of the state each call of such a run finds. -/
theorem calls_invariant {invariant : State → Prop}
    (hstep : ∀ state input, invariant state → admitted state input →
      invariant (step state input)) (hstate : invariant state)
    (hrun : ∀ call ∈ calls step state run, admitted call.1 call.2) :
    ∀ call ∈ calls step state run, invariant call.1 := by
  intro call hcall
  have ⟨before, rest, hsplit, hfound⟩ := (mem_calls step).mp hcall
  have hbefore : ∀ earlier ∈ calls step state before, admitted earlier.1 earlier.2 := by
    intro earlier hearlier
    apply hrun
    rw [hsplit, calls_append]
    exact List.mem_append_left _ hearlier
  rw [hfound]
  exact after_invariant hstep hstate hbefore

/-- A relation between the calls made so far and the state they leave. -/
theorem after_history (relation : List Input → State → Prop) {start : State}
    (hstart : relation [] start) (hstep : ∀ past input, relation past (after step start past) →
      relation (past ++ [input]) (step (after step start past) input))
    (run : List Input) : relation run (after step start run) := by
  induction run using List.reverseRecOn with
  | nil => exact hstart
  | append_singleton past input ih =>
    rw [after_append]
    exact hstep past input ih

/-- Two machines that stay related as long as the first makes admitted calls. -/
theorem after_related {related : State → Other → Prop}
    (hstep : ∀ state second input, related state second → admitted state input →
      related (step state input) (other second input))
    {second : Other} (hstate : related state second)
    (hrun : ∀ call ∈ calls step state run, admitted call.1 call.2) :
    related (after step state run) (after other second run) := by
  induction run generalizing state second with
  | nil => exact hstate
  | cons input rest ih =>
    have hfirst := hrun (state, input) (by simp [calls])
    have hrest : ∀ call ∈ calls step (step state input) rest, admitted call.1 call.2 :=
      fun call hcall => hrun call (by simp [calls, hcall])
    exact ih (hstep state second input hstate hfirst) hrest

end

end TwinForge.Scans

/-! ## Timers sampled once per scan

The IEC on-delay and off-delay function blocks, and the time an input was on according to
the scans that saw it: the sum, over the maximal runs of scans with the input on, of the
clock from the first to the last scan of the run. Times and clocks are ticks.
-/

namespace TwinForge.ScanTimers

/-- `TON`: the clock of the rising edge while the input stays true, and the outputs. -/
structure Ton where
  start : Option Int := none
  q : Bool := false
  et : Int := 0
  deriving DecidableEq, Repr

/-- One call of a `TON`. `ET` runs from the rising edge and stops at the preset. -/
def Ton.call (timer : Ton) (input : Bool) (pt now : Int) : Ton :=
  if input then
    let start := timer.start.getD now
    { start := some start, q := decide (pt ≤ now - start), et := min pt (now - start) }
  else {}

/-- `TOF`: the clock of the falling edge while the delay runs, and the outputs. -/
structure Tof where
  start : Option Int := none
  q : Bool := false
  et : Int := 0
  deriving DecidableEq, Repr

/-- One call of a `TOF`. The output drops when the delay since the falling edge reaches
the preset. -/
def Tof.call (timer : Tof) (input : Bool) (pt now : Int) : Tof :=
  if input then { start := none, q := true, et := 0 }
  else if timer.q then
    let start := timer.start.getD now
    { start := some start, q := decide (now - start < pt), et := min pt (now - start) }
  else timer

@[simp] theorem Ton.call_off (timer : Ton) (pt now : Int) : timer.call false pt now = {} := rfl

structure Sample where
  clock : Int
  on : Bool

def runTime : List Sample → Int
  | [] => 0
  | newest :: earlier => newest.clock - ((newest :: earlier).getLast (by simp)).clock

/-- The time an input was on: its maximal runs of scans, summed. Newest first. -/
def onTime (history : List Sample) : Int :=
  ((history.splitOnP fun sample => !sample.on).map runTime).sum

@[simp] theorem onTime_nil : onTime [] = 0 := by simp [onTime, runTime]

variable {sample : Sample}

theorem onTime_off (h : sample.on = false) (history : List Sample) :
    onTime (sample :: history) = onTime history := by
  simp [onTime, List.splitOnP_cons_eq_if_modifyHead, h, runTime]

theorem onTime_first (h : sample.on = true) {history : List Sample}
    (hfirst : ∀ newest ∈ history.head?, newest.on = false) :
    onTime (sample :: history) = onTime history := by
  cases history with
  | nil => simp [onTime, List.splitOnP_cons_eq_if_modifyHead, h, runTime]
  | cons newest earlier =>
    have hoff : newest.on = false := hfirst newest rfl
    rw [onTime_off hoff]
    simp [onTime, List.splitOnP_cons_eq_if_modifyHead, h, hoff, runTime]

theorem runTime_extend (sample newest : Sample) (earlier : List Sample) :
    runTime (sample :: newest :: earlier) =
      runTime (newest :: earlier) + (sample.clock - newest.clock) := by
  simp only [runTime, List.getLast_cons_cons]
  omega

theorem onTime_further {newest : Sample} (h : sample.on = true) (hnewest : newest.on = true)
    (earlier : List Sample) :
    onTime (sample :: newest :: earlier) =
      onTime (newest :: earlier) + (sample.clock - newest.clock) := by
  simp only [onTime, List.splitOnP_cons_eq_if_modifyHead, h, hnewest, Bool.not_true,
    Bool.false_eq_true, if_false]
  cases hsplit : earlier.splitOnP fun sample => !sample.on with
  | nil => exact absurd hsplit (List.splitOnP_ne_nil _ _)
  | cons run runs =>
    simp only [List.modifyHead_cons, List.map_cons, List.sum_cons, runTime_extend]
    omega

end TwinForge.ScanTimers
