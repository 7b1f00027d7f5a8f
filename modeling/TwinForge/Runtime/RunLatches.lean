import TwinForge.Runtime.DirectionExclusivity

/-! # Run latches of the drive

When a run latch may be entered, when it is dropped, and how long it must have been held
before the drive is started. The start timer retains its elapsed time across scans, so a
run counts what it finds in the timer as time held before it.
-/

namespace TwinForge.Runtime

open Scans

variable {Speed : Type}

namespace PowerFlexCoreState

def held (state : PowerFlexCoreState) : Bool := state.runForward || state.runReverse

end PowerFlexCoreState

namespace PowerFlexCoreInput

/-- The source hands its command to no owner. -/
def commandless (inputs : PowerFlexCoreInput Speed) : Bool :=
  decide (inputs.source = .none) || decide (inputs.source = .local)

end PowerFlexCoreInput

def elapsedSum (run : List (PowerFlexCoreInput Speed)) : Nat := (run.map (·.elapsedMs)).sum

section

variable (floats : SpeedArithmetic Speed)

/-- Every scan of the run leaves a latch set. -/
def HeldThrough (state : PowerFlexCoreState) (run : List (PowerFlexCoreInput Speed)) : Prop :=
  ∀ call ∈ calls (scanned floats) state run, (scanned floats call.1 call.2).held = true

/-- Does the scan emit the Start bit? -/
def Starts (state : PowerFlexCoreState) (inputs : PowerFlexCoreInput Speed) : Prop :=
  ∃ output, (scan floats state inputs).2 = some output ∧ output.logicCommand.testBit 1 = true

/-- What the latches and the start timer promise along a run. -/
structure LatchSafe (start : PowerFlexCoreState) (run : List (PowerFlexCoreInput Speed)) : Prop where
  entered : ∀ call ∈ calls (scanned floats) start run, ∀ direction,
    call.1.latched direction = false → (scanned floats call.1 call.2).latched direction = true →
      call.2.permissivesOk = true ∧ call.2.interlocksOk = true
  dropped : ∀ call ∈ calls (scanned floats) start run,
    call.2.interlocksOk = false ∨ call.2.commandless = true →
      (scanned floats call.1 call.2).held = false
  started : ∀ before inputs rest, run = before ++ inputs :: rest →
    Starts floats (after (scanned floats) start before) inputs →
      ∃ earlier suffix, before ++ [inputs] = earlier ++ suffix ∧ suffix ≠ [] ∧
        HeldThrough floats (after (scanned floats) start earlier) suffix ∧
        (inputs.startDelayMs ≤ elapsedSum suffix ∨
          (earlier = [] ∧ (inputs.startDelayMs : Int) ≤ start.startElapsedMs + elapsedSum suffix))

/-! ## One scan -/

@[simp] theorem logicCommandWord_start (stop start jog clearFault forward reverse keypad : Bool) :
    (logicCommandWord stop start jog clearFault forward reverse keypad).testBit 1 = start := by
  cases stop <;> cases start <;> cases jog <;> cases clearFault <;> cases forward <;>
    cases reverse <;> cases keypad <;> decide

theorem scanned_latched (state : PowerFlexCoreState) (inputs : PowerFlexCoreInput Speed)
    (direction : Direction) :
    (scanned floats state inputs).latched direction =
      (sourceLatches floats state inputs).latched direction := by
  cases direction with
  | forward => exact scanned_runForward floats state inputs
  | reverse => exact scanned_runReverse floats state inputs

theorem scanned_held (state : PowerFlexCoreState) (inputs : PowerFlexCoreInput Speed) :
    (scanned floats state inputs).held = (sourceLatches floats state inputs).held := by
  unfold PowerFlexCoreState.held
  rw [scanned_runForward, scanned_runReverse]

variable {state : PowerFlexCoreState} {inputs : PowerFlexCoreInput Speed}

theorem scanned_entered {direction : Direction} (hbefore : state.latched direction = false)
    (hafter : (scanned floats state inputs).latched direction = true) :
    inputs.permissivesOk = true ∧ inputs.interlocksOk = true := by
  rw [scanned_latched] at hafter
  unfold sourceLatches at hafter
  cases hsource : inputs.source <;> cases direction <;>
    simp only [PowerFlexCoreState.latched, applySourceCommands, hsource,
      PowerFlexCoreInput.selectedCommands] at hbefore hafter <;>
    grind

theorem scanned_dropped (h : inputs.interlocksOk = false ∨ inputs.commandless = true) :
    (scanned floats state inputs).held = false := by
  rw [scanned_held]
  unfold PowerFlexCoreState.held sourceLatches
  unfold PowerFlexCoreInput.commandless at h
  cases hsource : inputs.source <;>
    simp only [applySourceCommands, hsource, PowerFlexCoreInput.selectedCommands] at h ⊢ <;>
    grind

/-! ## The start timer -/

theorem updateStartTimer_startElapsedMs (state : PowerFlexCoreState) (requested : Bool)
    (preset elapsed : Nat) :
    (updateStartTimer state requested preset elapsed).2.startElapsedMs =
      if requested then min (preset : Int) (state.startElapsedMs + elapsed) else 0 := by
  unfold updateStartTimer
  split <;> rfl

theorem sourceLatches_startElapsedMs (state : PowerFlexCoreState)
    (inputs : PowerFlexCoreInput Speed) :
    (sourceLatches floats state inputs).startElapsedMs = state.startElapsedMs := by
  unfold sourceLatches
  cases hsource : inputs.source <;>
    simp only [applySourceCommands, hsource, PowerFlexCoreInput.selectedCommands]
  case override => split_ifs <;> rfl

theorem scanned_startElapsedMs (state : PowerFlexCoreState) (inputs : PowerFlexCoreInput Speed) :
    (scanned floats state inputs).startElapsedMs =
      if (scanned floats state inputs).held then
        min (inputs.startDelayMs : Int) (state.startElapsedMs + inputs.elapsedMs)
      else 0 := by
  rw [scanned_held, ← sourceLatches_startElapsedMs floats state inputs]
  simp only [scanned, scan, updateStartTimer_startElapsedMs]
  rfl

theorem scanned_gains (h : (scanned floats state inputs).held = true) :
    (scanned floats state inputs).startElapsedMs ≤ state.startElapsedMs + inputs.elapsedMs := by
  rw [scanned_startElapsedMs, if_pos h]
  omega

theorem scanned_clears (h : (scanned floats state inputs).held = false) :
    (scanned floats state inputs).startElapsedMs = 0 := by
  rw [scanned_startElapsedMs, h]
  rfl

theorem starts_held (h : Starts floats state inputs) :
    (scanned floats state inputs).held = true ∧
      (inputs.startDelayMs : Int) ≤ (scanned floats state inputs).startElapsedMs := by
  rcases h with ⟨output, houtput, hbit⟩
  simp only [scan, Option.map_eq_some_iff] at houtput
  rcases houtput with ⟨command, _, hcommand⟩
  rw [← hcommand, logicCommandWord_start] at hbit
  simp only [scanned, scan, PowerFlexCoreState.held] at hbit ⊢
  unfold updateStartTimer at hbit ⊢
  split at hbit <;> simp_all

/-! ## Runs -/

/-- How long a latch has been held when a run of `past` leaves `state`: the timer shows no
more than the scans of a held suffix lasted, and what it showed at the start of the run if
the latch has been held since. -/
def HeldFor (start : PowerFlexCoreState) (past : List (PowerFlexCoreInput Speed))
    (state : PowerFlexCoreState) : Prop :=
  ∃ earlier suffix, past = earlier ++ suffix ∧
    HeldThrough floats (after (scanned floats) start earlier) suffix ∧
    (state.startElapsedMs ≤ elapsedSum suffix ∨
      (earlier = [] ∧ state.startElapsedMs ≤ start.startElapsedMs + elapsedSum suffix))

theorem elapsedSum_concat (run : List (PowerFlexCoreInput Speed))
    (inputs : PowerFlexCoreInput Speed) :
    elapsedSum (run ++ [inputs]) = elapsedSum run + inputs.elapsedMs := by
  simp [elapsedSum]

theorem HeldThrough.concat {run : List (PowerFlexCoreInput Speed)}
    (hrun : HeldThrough floats state run)
    (hlast : (scanned floats (after (scanned floats) state run) inputs).held = true) :
    HeldThrough floats state (run ++ [inputs]) := by
  intro call hcall
  rw [calls_append, List.mem_append] at hcall
  cases hcall with
  | inl hbefore => exact hrun call hbefore
  | inr hhere =>
    have heq : call = (after (scanned floats) state run, inputs) := by
      simpa [calls] using hhere
    rw [heq]
    exact hlast

variable {start : PowerFlexCoreState}

theorem HeldFor.held {past : List (PowerFlexCoreInput Speed)}
    (hpast : HeldFor floats start past (after (scanned floats) start past))
    (hheld : (scanned floats (after (scanned floats) start past) inputs).held = true) :
    ∃ earlier suffix, past ++ [inputs] = earlier ++ suffix ∧ suffix ≠ [] ∧
      HeldThrough floats (after (scanned floats) start earlier) suffix ∧
      ((scanned floats (after (scanned floats) start past) inputs).startElapsedMs ≤
          elapsedSum suffix ∨
        (earlier = [] ∧
          (scanned floats (after (scanned floats) start past) inputs).startElapsedMs ≤
            start.startElapsedMs + elapsedSum suffix)) := by
  have ⟨earlier, suffix, hsplit, hthrough, helapsed⟩ := hpast
  have hgains := scanned_gains floats hheld
  have hsum := elapsedSum_concat suffix inputs
  have hlonger : HeldThrough floats (after (scanned floats) start earlier)
      (suffix ++ [inputs]) := by
    apply hthrough.concat
    rw [← after_append, ← hsplit]
    exact hheld
  refine ⟨earlier, suffix ++ [inputs], by rw [hsplit, List.append_assoc], by simp, hlonger, ?_⟩
  rw [hsum]
  cases helapsed with
  | inl hsuffix => left; push_cast; omega
  | inr hwhole => exact .inr ⟨hwhole.1, by have h := hwhole.2; push_cast; omega⟩

theorem heldFor_scanned (past : List (PowerFlexCoreInput Speed)) (inputs : PowerFlexCoreInput Speed)
    (hpast : HeldFor floats start past (after (scanned floats) start past)) :
    HeldFor floats start (past ++ [inputs])
      (scanned floats (after (scanned floats) start past) inputs) := by
  by_cases hheld : (scanned floats (after (scanned floats) start past) inputs).held = true
  · have ⟨earlier, suffix, hsplit, _, hthrough, helapsed⟩ := hpast.held floats hheld
    exact ⟨earlier, suffix, hsplit, hthrough, helapsed⟩
  · have hclears := scanned_clears floats (Bool.not_eq_true _ ▸ hheld)
    have hnone : HeldThrough floats (after (scanned floats) start (past ++ [inputs])) [] := by
      intro call hcall
      simp [calls] at hcall
    refine ⟨past ++ [inputs], [], by simp, hnone, .inl ?_⟩
    rw [hclears]
    simp [elapsedSum]

theorem heldFor_after (start : PowerFlexCoreState) (run : List (PowerFlexCoreInput Speed)) :
    HeldFor floats start run (after (scanned floats) start run) := by
  apply after_history (HeldFor floats start)
  · refine ⟨[], [], rfl, ?_, .inr ⟨rfl, ?_⟩⟩
    · intro call hcall
      simp [calls] at hcall
    · simp [elapsedSum]
  · exact heldFor_scanned floats

theorem scans_started {before : List (PowerFlexCoreInput Speed)}
    (h : Starts floats (after (scanned floats) start before) inputs) :
    ∃ earlier suffix, before ++ [inputs] = earlier ++ suffix ∧ suffix ≠ [] ∧
      HeldThrough floats (after (scanned floats) start earlier) suffix ∧
      (inputs.startDelayMs ≤ elapsedSum suffix ∨
        (earlier = [] ∧ (inputs.startDelayMs : Int) ≤
          start.startElapsedMs + elapsedSum suffix)) := by
  have ⟨hheld, hdelay⟩ := starts_held floats h
  have ⟨earlier, suffix, hsplit, hsuffix, hthrough, helapsed⟩ :=
    (heldFor_after floats start before).held floats hheld
  refine ⟨earlier, suffix, hsplit, hsuffix, hthrough, ?_⟩
  cases helapsed with
  | inl hsum => left; omega
  | inr hwhole => exact .inr ⟨hwhole.1, Int.le_trans hdelay hwhole.2⟩

/-- The latches and the start timer are safe along every run from every state. -/
theorem scans_latchSafe (start : PowerFlexCoreState) (run : List (PowerFlexCoreInput Speed)) :
    LatchSafe floats start run where
  entered _ _ _ := scanned_entered floats
  dropped _ _ := scanned_dropped floats
  started _ _ _ _ := scans_started floats

end

/-- A ready drive started with a delay of a second, in a scan that takes no time. -/
def delayedStart : PowerFlexCoreInput Int := { startForward with startDelayMs := 1000 }

/-- A timer found expired starts the drive in the first scan of a run. -/
theorem scans_started_early :
    ¬ ∀ (start : PowerFlexCoreState) (before : List (PowerFlexCoreInput Int))
      (inputs : PowerFlexCoreInput Int),
      (∀ earlier ∈ before, earlier.startDelayMs = inputs.startDelayMs) →
      Starts wholeHertz (after (scanned wholeHertz) start before) inputs →
        ∃ earlier suffix, before ++ [inputs] = earlier ++ suffix ∧
          HeldThrough wholeHertz (after (scanned wholeHertz) start earlier) suffix ∧
          inputs.startDelayMs ≤ elapsedSum suffix := by
  intro h
  have hstarts : Starts wholeHertz { startElapsedMs := 1000 } delayedStart :=
    ⟨_, rfl, by decide⟩
  have ⟨earlier, suffix, hsplit, _, hdelay⟩ :=
    h { startElapsedMs := 1000 } [] delayedStart (by simp) hstarts
  have hsum : elapsedSum earlier + elapsedSum suffix = 0 := by
    have hboth : elapsedSum (earlier ++ suffix) = elapsedSum [delayedStart] :=
      congrArg elapsedSum hsplit.symm
    simpa [elapsedSum, delayedStart, startForward, operatorInput] using hboth
  have hthousand : delayedStart.startDelayMs = 1000 := rfl
  omega

end TwinForge.Runtime
