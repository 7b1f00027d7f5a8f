import TwinForge.Foundation.Scans
import TwinForge.Runtime.PowerFlex525Core

/-! # Exclusivity of the drive's directions

Which scans give the drive both directions at once. The run latches of the host
sources are retained across scans and a program may command both directions, so
exclusivity is a condition on the commands and on the latches a scan finds.
-/

namespace TwinForge.Runtime

open Scans

inductive Direction where
  | forward | reverse
  deriving DecidableEq, Repr

def Direction.opposite : Direction → Direction
  | .forward => .reverse
  | .reverse => .forward

variable {Speed : Type}

namespace PowerFlexCommands

def run (commands : PowerFlexCommands Speed) : Direction → Bool
  | .forward => commands.runForward
  | .reverse => commands.runReverse

def jog (commands : PowerFlexCommands Speed) : Direction → Bool
  | .forward => commands.jogForward
  | .reverse => commands.jogReverse

end PowerFlexCommands

namespace PowerFlexCoreInput

def runAvailable (inputs : PowerFlexCoreInput Speed) : Direction → Bool
  | .forward => inputs.runForwardAvailable
  | .reverse => inputs.runReverseAvailable

def jogAvailable (inputs : PowerFlexCoreInput Speed) : Direction → Bool
  | .forward => inputs.jogForwardAvailable
  | .reverse => inputs.jogReverseAvailable

end PowerFlexCoreInput

namespace PowerFlexCoreState

def latched (state : PowerFlexCoreState) : Direction → Bool
  | .forward => state.runForward
  | .reverse => state.runReverse

def Exclusive (state : PowerFlexCoreState) : Prop :=
  ¬ (state.runForward = true ∧ state.runReverse = true)

instance (state : PowerFlexCoreState) : Decidable state.Exclusive := by
  unfold Exclusive
  infer_instance

end PowerFlexCoreState

/-- A program command that runs one direction and at the same time runs, or alone jogs,
the other. -/
def programOpposes (state : PowerFlexCoreState) (inputs : PowerFlexCoreInput Speed)
    (direction : Direction) : Bool :=
  inputs.interlocksOk && !inputs.program.stop && inputs.program.run direction
    && (inputs.permissivesOk || state.latched direction)
    && ((inputs.permissivesOk && inputs.program.run direction.opposite)
      || (inputs.program.jog direction.opposite && !inputs.program.jog direction))

/-- A host command that starts the direction opposite to the one latched, or jogs
against the direction latched or started. -/
def hostOpposes (state : PowerFlexCoreState) (inputs : PowerFlexCoreInput Speed)
    (commands : PowerFlexCommands Speed) (direction : Direction) : Bool :=
  inputs.interlocksOk && inputs.permissivesOk && !commands.stop
    && ((state.latched direction && commands.run direction.opposite
        && inputs.runAvailable direction.opposite && !commands.run direction)
      || ((state.latched direction || (commands.run direction && inputs.runAvailable direction
          && !commands.run direction.opposite))
        && commands.jog direction.opposite && inputs.jogAvailable direction.opposite
        && !commands.jog direction))

/-- The selected owner opposes a direction. No other source can. -/
def opposes (state : PowerFlexCoreState) (inputs : PowerFlexCoreInput Speed)
    (direction : Direction) : Bool :=
  (decide (inputs.source = .program) && programOpposes state inputs direction)
    || inputs.selectedCommands.any fun commands => hostOpposes state inputs commands direction

def Opposed (state : PowerFlexCoreState) (inputs : PowerFlexCoreInput Speed) : Prop :=
  opposes state inputs .forward = true ∨ opposes state inputs .reverse = true

instance (state : PowerFlexCoreState) (inputs : PowerFlexCoreInput Speed) :
    Decidable (Opposed state inputs) := by
  unfold Opposed
  infer_instance

section

variable (floats : SpeedArithmetic Speed)

def scanned (state : PowerFlexCoreState) (inputs : PowerFlexCoreInput Speed) :
    PowerFlexCoreState := (scan floats state inputs).1

/-- What a scan must never do: leave both latches set, or emit both direction bits. -/
def ExclusiveScan (state : PowerFlexCoreState) (inputs : PowerFlexCoreInput Speed) : Prop :=
  (scanned floats state inputs).Exclusive ∧
    ∀ output, (scan floats state inputs).2 = some output →
      ¬ (output.runForward = true ∧ output.runReverse = true) ∧
      ¬ (output.logicCommand.testBit 4 = true ∧ output.logicCommand.testBit 5 = true)

@[simp] theorem logicCommandWord_forward (stop start jog clearFault forward reverse keypad : Bool) :
    (logicCommandWord stop start jog clearFault forward reverse keypad).testBit 4 = forward := by
  cases stop <;> cases start <;> cases jog <;> cases clearFault <;> cases forward <;>
    cases reverse <;> cases keypad <;> decide

@[simp] theorem logicCommandWord_reverse (stop start jog clearFault forward reverse keypad : Bool) :
    (logicCommandWord stop start jog clearFault forward reverse keypad).testBit 5 = reverse := by
  cases stop <;> cases start <;> cases jog <;> cases clearFault <;> cases forward <;>
    cases reverse <;> cases keypad <;> decide

@[simp] theorem updateStartTimer_runForward (state : PowerFlexCoreState) (requested : Bool)
    (preset elapsed : Nat) :
    (updateStartTimer state requested preset elapsed).2.runForward = state.runForward := by
  unfold updateStartTimer
  split <;> rfl

@[simp] theorem updateStartTimer_runReverse (state : PowerFlexCoreState) (requested : Bool)
    (preset elapsed : Nat) :
    (updateStartTimer state requested preset elapsed).2.runReverse = state.runReverse := by
  unfold updateStartTimer
  split <;> rfl

def sourceLatches (state : PowerFlexCoreState) (inputs : PowerFlexCoreInput Speed) :
    PowerFlexCoreState :=
  (applySourceCommands floats state inputs inputs.permissivesOk inputs.interlocksOk).2

theorem scanned_runForward (state : PowerFlexCoreState) (inputs : PowerFlexCoreInput Speed) :
    (scanned floats state inputs).runForward =
      (sourceLatches floats state inputs).runForward := by
  simp [scanned, scan, sourceLatches]

theorem scanned_runReverse (state : PowerFlexCoreState) (inputs : PowerFlexCoreInput Speed) :
    (scanned floats state inputs).runReverse =
      (sourceLatches floats state inputs).runReverse := by
  simp [scanned, scan, sourceLatches]

variable {state : PowerFlexCoreState} {inputs : PowerFlexCoreInput Speed}

theorem scan_output
    {output : PowerFlexCoreOutput Speed} (h : (scan floats state inputs).2 = some output) :
    output.runForward = (sourceLatches floats state inputs).runForward ∧
    output.runReverse = (sourceLatches floats state inputs).runReverse ∧
    output.logicCommand.testBit 4 = ((sourceLatches floats state inputs).runForward ||
      (inputs.jogCommands inputs.permissivesOk).1) ∧
    output.logicCommand.testBit 5 = ((sourceLatches floats state inputs).runReverse ||
      (inputs.jogCommands inputs.permissivesOk).2) := by
  simp only [scan, Option.map_eq_some_iff] at h
  obtain ⟨command, -, rfl⟩ := h
  simp [sourceLatches]

/-- Both directions are driven by a latch or a jog. -/
def Driven (state : PowerFlexCoreState) (inputs : PowerFlexCoreInput Speed) : Prop :=
  ((sourceLatches floats state inputs).runForward ||
      (inputs.jogCommands inputs.permissivesOk).1) = true ∧
    ((sourceLatches floats state inputs).runReverse ||
      (inputs.jogCommands inputs.permissivesOk).2) = true

theorem driven_program (hstate : state.Exclusive) (hsource : inputs.source = .program) :
    Driven floats state inputs ↔
      programOpposes state inputs .forward = true ∨ programOpposes state inputs .reverse = true := by
  have hselected : inputs.selectedCommands = none := by
    simp [PowerFlexCoreInput.selectedCommands, hsource]
  have hlatched : state.runForward = false ∨ state.runReverse = false := by
    unfold PowerFlexCoreState.Exclusive at hstate
    grind
  simp only [Driven, sourceLatches, applySourceCommands, hsource, programOpposes,
    PowerFlexCoreInput.jogCommands, hselected, PowerFlexCommands.run, PowerFlexCommands.jog,
    PowerFlexCoreState.latched, Direction.opposite]
  grind

theorem driven_host {commands : PowerFlexCommands Speed} (hstate : state.Exclusive)
    (hselected : inputs.selectedCommands = some commands) :
    Driven floats state inputs ↔
      hostOpposes state inputs commands .forward = true ∨
        hostOpposes state inputs commands .reverse = true := by
  have hlatched : state.runForward = false ∨ state.runReverse = false := by
    unfold PowerFlexCoreState.Exclusive at hstate
    grind
  cases hsource : inputs.source <;>
    simp only [PowerFlexCoreInput.selectedCommands, hsource, Option.some.injEq,
      reduceCtorEq] at hselected
  all_goals
    simp only [Driven, sourceLatches, applySourceCommands, hsource, hostOpposes,
      PowerFlexCoreInput.jogCommands, PowerFlexCoreInput.selectedCommands, hselected,
      PowerFlexCoreInput.runAvailable, PowerFlexCoreInput.jogAvailable, PowerFlexCommands.run,
      PowerFlexCommands.jog, PowerFlexCoreState.latched, Direction.opposite, Option.any_some]
    by_cases hpermissives : inputs.permissivesOk = true
    · by_cases hforward : commands.jogForward = true <;>
        by_cases hreverse : commands.jogReverse = true <;> grind
    · grind

/-- A source that is neither the program nor a host clears, keeps or sets one latch, and
never jogs. -/
theorem driven_other (hstate : state.Exclusive) (hprogram : inputs.source ≠ .program)
    (hselected : inputs.selectedCommands = none) : ¬ Driven floats state inputs := by
  unfold PowerFlexCoreState.Exclusive at hstate
  cases hsource : inputs.source <;>
    simp only [PowerFlexCoreInput.selectedCommands, hsource, reduceCtorEq] at hselected
  all_goals
    simp only [Driven, sourceLatches, applySourceCommands, hsource,
      PowerFlexCoreInput.jogCommands, PowerFlexCoreInput.selectedCommands, Option.any_none]
  case program => exact absurd hsource hprogram
  case override => grind
  all_goals grind

theorem driven_iff (hstate : state.Exclusive)
    (inputs : PowerFlexCoreInput Speed) : Driven floats state inputs ↔ Opposed state inputs := by
  by_cases hprogram : inputs.source = .program
  · have hselected : inputs.selectedCommands = none := by
      simp [PowerFlexCoreInput.selectedCommands, hprogram]
    rw [driven_program floats hstate hprogram]
    simp [Opposed, opposes, hprogram, hselected]
  · cases hselected : inputs.selectedCommands with
    | some commands =>
      rw [driven_host floats hstate hselected]
      simp [Opposed, opposes, hprogram, hselected]
    | none =>
      have hdriven := driven_other floats hstate hprogram hselected
      simp [Opposed, opposes, hprogram, hselected, hdriven]

theorem scan_exclusive (hstate : state.Exclusive) (h : ¬ Opposed state inputs) :
    ExclusiveScan floats state inputs := by
  have hdriven : ¬ Driven floats state inputs := fun hd =>
    h ((driven_iff floats hstate inputs).mp hd)
  have hlatches : ¬ ((sourceLatches floats state inputs).runForward = true ∧
      (sourceLatches floats state inputs).runReverse = true) := by
    intro hboth
    exact hdriven (by simp [Driven, hboth])
  constructor
  · show ¬ _
    rw [scanned_runForward, scanned_runReverse]
    exact hlatches
  · intro output houtput
    have ⟨hforward, hreverse, hfour, hfive⟩ := scan_output floats houtput
    constructor
    · rw [hforward, hreverse]
      exact hlatches
    · rw [hfour, hfive]
      exact hdriven

theorem scan_opposed (hstate : state.Exclusive)
    (houtput : (scan floats state inputs).2.isSome = true)
    (h : ExclusiveScan floats state inputs) : ¬ Opposed state inputs := by
  have ⟨output, hsome⟩ := Option.isSome_iff_exists.mp houtput
  have ⟨_, _, hfour, hfive⟩ := scan_output floats hsome
  have hbits := (h.2 output hsome).2
  rw [hfour, hfive] at hbits
  exact fun hopposed => hbits ((driven_iff floats hstate inputs).mpr hopposed)

/-- Along any run from a state with at most one latch set, scans that are not opposed
keep the directions exclusive; where every scan returns an output, no other run does. -/
theorem scans_exclusive {state : PowerFlexCoreState} (hstate : state.Exclusive)
    (run : List (PowerFlexCoreInput Speed)) :
    ((∀ call ∈ calls (scanned floats) state run, ¬ Opposed call.1 call.2) →
      ∀ call ∈ calls (scanned floats) state run, ExclusiveScan floats call.1 call.2) ∧
    ((∀ call ∈ calls (scanned floats) state run,
        (scan floats call.1 call.2).2.isSome = true) →
      (∀ call ∈ calls (scanned floats) state run, ExclusiveScan floats call.1 call.2) →
      ∀ call ∈ calls (scanned floats) state run, ¬ Opposed call.1 call.2) := by
  constructor
  · intro hclear call hcall
    have hpreserved : ∀ found inputs, PowerFlexCoreState.Exclusive found →
        ¬ Opposed found inputs → (scanned floats found inputs).Exclusive :=
      fun found inputs hfound h => (scan_exclusive floats hfound h).1
    have hexclusive := calls_invariant hpreserved hstate hclear call hcall
    exact scan_exclusive floats hexclusive (hclear call hcall)
  · intro hreturns hall call hcall
    have hexclusive := calls_invariant (fun found inputs _ h => h.1) hstate hall call hcall
    exact scan_opposed floats hexclusive (hreturns call hcall) (hall call hcall)

end

/-- Whole hertz, enough for a drive at rest. -/
def wholeHertz : SpeedArithmetic Int where
  zero := 0
  max := Max.max
  min := Min.min
  hundredths speed := some (speed * 100)

def idleCommands : PowerFlexCommands Int :=
  { runForward := false, runReverse := false, jogForward := false, jogReverse := false
    stop := false, reset := false, speedHz := 0 }

/-- A ready drive with every permissive and interlock satisfied. -/
def operatorInput (commands : PowerFlexCommands Int) : PowerFlexCoreInput Int :=
  { source := .operator, program := idleCommands, operator := commands
    external := idleCommands, maintenance := idleCommands, overrideCommand := 0
    overrideSpeedHz := 0, programOverrideActive := false, maintenanceProgramSpeedHz := 0
    permissiveOk := true, nonBypassablePermissiveOk := true, interlockOk := true
    nonBypassableInterlockOk := true, bypassActive := false, runForwardAvailable := true
    runReverseAvailable := true, jogForwardAvailable := true, jogReverseAvailable := true
    driveReady := true, driveActive := false, ethernetLogicControl := true
    keypadControlStatus := false, keypadControlCommand := false, maximumSpeedHz := 60
    jogSpeedHz := 0, startDelayMs := 0, elapsedMs := 0 }

def startForward : PowerFlexCoreInput Int := operatorInput { idleCommands with runForward := true }

def startReverse : PowerFlexCoreInput Int := operatorInput { idleCommands with runReverse := true }

def stopDrive : PowerFlexCoreInput Int := operatorInput { idleCommands with stop := true }

/-- The reverse start is not opposed once the drive has been stopped. -/
theorem scans_exclusive_stopped :
    ExclusiveScan wholeHertz (scanned wholeHertz (scanned wholeHertz {} startForward) stopDrive)
      startReverse :=
  (@scans_exclusive Int wholeHertz {} (by decide) [startForward, stopDrive, startReverse]).1
    (by decide) (_, startReverse) (.tail _ (.tail _ (.head _)))

/-- Reversing without a stop keeps the forward latch and sets the reverse one. -/
theorem scans_reversed :
    ¬ ∀ (state : PowerFlexCoreState) (run : List (PowerFlexCoreInput Int)), state.Exclusive →
      ∀ call ∈ calls (scanned wholeHertz) state run, ExclusiveScan wholeHertz call.1 call.2 := by
  intro h
  have hlast := h {} [startForward, startReverse] (by decide)
    (scanned wholeHertz {} startForward, startReverse) (by simp [calls])
  exact hlast.1 (by decide)

end TwinForge.Runtime
