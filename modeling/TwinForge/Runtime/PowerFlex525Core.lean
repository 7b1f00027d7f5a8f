import Mathlib.Algebra.GroupWithZero.Nat
import Mathlib.Data.Int.Notation

/-! # Scan logic of the PowerFlex 525 core

The target-neutral command portion of the drive block. Speeds are floating point in
the source, and no latch or command bit depends on their arithmetic, so the arithmetic
is a parameter.
-/

namespace TwinForge.Runtime

inductive PowerFlexCommandSource where
  | none | program | operator | external | override | maintenance | «local»
  deriving DecidableEq, Repr

/-- The floating-point operations of the speed reference. `hundredths` is
`int(speed * 100.0)`, which raises for an infinity or a NaN. -/
structure SpeedArithmetic (Speed : Type) where
  zero : Speed
  max : Speed → Speed → Speed
  min : Speed → Speed → Speed
  hundredths : Speed → Option Int

structure PowerFlexCommands (Speed : Type) where
  runForward : Bool
  runReverse : Bool
  jogForward : Bool
  jogReverse : Bool
  stop : Bool
  reset : Bool
  speedHz : Speed

/-- One scan's input. The delays are natural numbers: construction rejects negative ones. -/
structure PowerFlexCoreInput (Speed : Type) where
  source : PowerFlexCommandSource
  program : PowerFlexCommands Speed
  operator : PowerFlexCommands Speed
  external : PowerFlexCommands Speed
  maintenance : PowerFlexCommands Speed
  overrideCommand : Int
  overrideSpeedHz : Speed
  programOverrideActive : Bool
  maintenanceProgramSpeedHz : Speed
  permissiveOk : Bool
  nonBypassablePermissiveOk : Bool
  interlockOk : Bool
  nonBypassableInterlockOk : Bool
  bypassActive : Bool
  runForwardAvailable : Bool
  runReverseAvailable : Bool
  jogForwardAvailable : Bool
  jogReverseAvailable : Bool
  driveReady : Bool
  driveActive : Bool
  ethernetLogicControl : Bool
  keypadControlStatus : Bool
  keypadControlCommand : Bool
  maximumSpeedHz : Speed
  jogSpeedHz : Speed
  startDelayMs : Nat
  elapsedMs : Nat

structure PowerFlexCoreOutput (Speed : Type) where
  logicCommand : Nat
  speedCommand : Int
  referenceSpeedHz : Speed
  permissivesOk : Bool
  interlocksOk : Bool
  runForward : Bool
  runReverse : Bool
  jogForward : Bool
  jogReverse : Bool
  starting : Bool
  stopping : Bool

/-- The values retained between scans. -/
structure PowerFlexCoreState where
  runForward : Bool := false
  runReverse : Bool := false
  startElapsedMs : Int := 0
  overrideCommand : Int := 0
  deriving DecidableEq, Repr

variable {Speed : Type}

namespace PowerFlexCoreInput

variable (inputs : PowerFlexCoreInput Speed)

def permissivesOk : Bool :=
  (inputs.permissiveOk || inputs.bypassActive) && inputs.nonBypassablePermissiveOk

def interlocksOk : Bool :=
  (inputs.interlockOk || inputs.bypassActive) && inputs.nonBypassableInterlockOk

def selectedCommands : Option (PowerFlexCommands Speed) :=
  match inputs.source with
  | .operator => some inputs.operator
  | .external => some inputs.external
  | .maintenance => some inputs.maintenance
  | _ => none

def jogCommands (permissivesOk : Bool) : Bool × Bool :=
  let selected := inputs.selectedCommands
  let program := decide (inputs.source = .program)
  let jogForward :=
    (inputs.jogForwardAvailable && permissivesOk
      && selected.any fun commands => commands.jogForward && !commands.jogReverse)
    || (program && inputs.program.jogForward && !inputs.program.jogReverse)
  let jogReverse :=
    (inputs.jogReverseAvailable && permissivesOk
      && selected.any fun commands => commands.jogReverse && !commands.jogForward)
    || (program && inputs.program.jogReverse && !inputs.program.jogForward)
  (jogForward, jogReverse)

end PowerFlexCoreInput

/-- Which of the retained run latches the selected source sets, keeps or clears, and
the speed reference it selects. -/
def applySourceCommands (floats : SpeedArithmetic Speed) (state : PowerFlexCoreState)
    (inputs : PowerFlexCoreInput Speed) (permissivesOk interlocksOk : Bool) :
    Speed × PowerFlexCoreState :=
  match inputs.source with
  | .program =>
    let reference :=
      if inputs.programOverrideActive then inputs.maintenanceProgramSpeedHz
      else inputs.program.speedHz
    (reference, { state with
      runForward := inputs.program.runForward && (permissivesOk || state.runForward)
        && interlocksOk && !inputs.program.stop
      runReverse := inputs.program.runReverse && (permissivesOk || state.runReverse)
        && interlocksOk && !inputs.program.stop })
  | .override =>
    let command := inputs.overrideCommand
    let latched : PowerFlexCoreState :=
      if command == 1 || !interlocksOk then
        { state with runForward := false, runReverse := false }
      else if command == 2 && permissivesOk then
        { state with runForward := true, runReverse := false }
      else if command == 3 && permissivesOk then
        { state with runForward := false, runReverse := true }
      else state
    (inputs.overrideSpeedHz, { latched with overrideCommand := 0 })
  | _ =>
    match inputs.selectedCommands with
    | none => (floats.zero, { state with runForward := false, runReverse := false })
    | some commands =>
      (commands.speedHz, { state with
        runForward :=
          (state.runForward || (commands.runForward && inputs.runForwardAvailable
            && permissivesOk && !commands.runReverse)) && interlocksOk && !commands.stop
        runReverse :=
          (state.runReverse || (commands.runReverse && inputs.runReverseAvailable
            && permissivesOk && !commands.runForward)) && interlocksOk && !commands.stop })

/-- The start timer: whether it is done, whether it is timing, and its new state. -/
def updateStartTimer (state : PowerFlexCoreState) (runRequested : Bool)
    (presetMs elapsedMs : Nat) : (Bool × Bool) × PowerFlexCoreState :=
  if runRequested then
    let elapsed := min (presetMs : Int) (state.startElapsedMs + elapsedMs)
    let done := decide ((presetMs : Int) ≤ elapsed)
    ((done, !done), { state with startElapsedMs := elapsed })
  else ((false, false), { state with startElapsedMs := 0 })

/-- The command word, one bit a flag from bit zero on. -/
def logicCommandWord (stop start jog clearFault forward reverse keypadControl : Bool) : Nat :=
  let values := [stop, start, jog, clearFault, forward, reverse, keypadControl]
  (values.zipIdx.map fun (value, bit) => if value then 1 <<< bit else 0).sum &&& 0x007F

def speedCommand (floats : SpeedArithmetic Speed) (speedHz maximumSpeedHz : Speed) : Option Int :=
  floats.hundredths (floats.min (floats.max speedHz floats.zero) maximumSpeedHz)

/-- One scan. The state is written even where the speed conversion raises and no output
is returned. -/
def scan (floats : SpeedArithmetic Speed) (state : PowerFlexCoreState)
    (inputs : PowerFlexCoreInput Speed) : PowerFlexCoreState × Option (PowerFlexCoreOutput Speed) :=
  let permissivesOk := inputs.permissivesOk
  let interlocksOk := inputs.interlocksOk
  let (referenceSpeed, latched) :=
    applySourceCommands floats state inputs permissivesOk interlocksOk
  let (jogForward, jogReverse) := inputs.jogCommands permissivesOk
  let requested := latched.runForward || latched.runReverse || jogForward || jogReverse
  let runRequested := latched.runForward || latched.runReverse
  let ((timerDone, timerTiming), timed) :=
    updateStartTimer latched runRequested inputs.startDelayMs inputs.elapsedMs
  let stop := inputs.driveActive && inputs.ethernetLogicControl
    && !(inputs.keypadControlStatus || timed.runForward || timed.runReverse
      || jogForward || jogReverse)
  let start := inputs.driveReady && timerDone && !stop && requested
  let jog := inputs.driveReady && !(stop || timed.runForward || timed.runReverse)
    && (jogForward || jogReverse)
  let reset := inputs.program.reset || inputs.operator.reset || inputs.maintenance.reset
    || inputs.external.reset
  let logicCommand := logicCommandWord stop start jog reset (timed.runForward || jogForward)
    (timed.runReverse || jogReverse) inputs.keypadControlCommand
  let speedReference := if jogForward || jogReverse then inputs.jogSpeedHz else referenceSpeed
  let output := (speedCommand floats speedReference inputs.maximumSpeedHz).map fun command =>
    { logicCommand, speedCommand := command, referenceSpeedHz := referenceSpeed
      permissivesOk, interlocksOk, runForward := timed.runForward
      runReverse := timed.runReverse, jogForward, jogReverse, starting := timerTiming
      stopping := inputs.driveActive && !requested }
  (timed, output)

end TwinForge.Runtime
