import Mathlib.Data.Int.Bitwise
import TwinForge.Foundation.Scans
import TwinForge.Foundation.Text

/-! # The module service of a controller

`Sys_Module` decodes the status of a module object and asks for a write of its mode at a rising
edge of two commands, which share one retained one-shot. The runtime reads the object, scans,
and applies the write. Both operations of its adapter may fail.
-/

namespace TwinForge.Runtime

open List Scans

structure SysModuleSnapshot where
  objectInstance : Int := 0
  entryStatus : Int := 0
  faultCode : Int := 0
  faultInfo : Int := 0
  mode : Int := 0

structure SysModuleStatus where
  standby : Bool := false
  faulted : Bool := false
  validating : Bool := false
  connecting : Bool := false
  connected : Bool := false
  shuttingDown : Bool := false
  inhibited : Bool := false
  waiting : Bool := false
  firmwareUpdating : Bool := false
  configuring : Bool := false
  disconnected : Bool := false

def decodeEntryStatus (entryStatus : Int) : SysModuleStatus :=
  let state := Int.land entryStatus 0xF000
  let inhibited := state == 0x6000
  let connected := state == 0x4000
  { standby := state == 0x0000, faulted := state == 0x1000, validating := state == 0x2000
    connecting := state == 0x3000, connected, shuttingDown := state == 0x5000, inhibited
    waiting := state == 0x7000, firmwareUpdating := state == 0x9000
    configuring := state == 0xA000, disconnected := !(inhibited || connected) }

structure SysModuleOutputs where
  snapshot : SysModuleSnapshot := {}
  status : SysModuleStatus := {}

structure SysModuleServiceFailure where
  code : Text
  message : Text

/-- The arguments of a cycle, and what the adapter answers to its read and to its write. -/
structure SysModuleCycle where
  read : Except SysModuleServiceFailure SysModuleSnapshot
  write : Int → Option SysModuleServiceFailure
  inputInhibit : Bool := false
  inputUninhibit : Bool := false

structure SysModuleRuntimeResult where
  outputs : SysModuleOutputs
  modeWrite : Option Int := none
  readFailure : Option SysModuleServiceFailure := none
  writeFailure : Option SysModuleServiceFailure := none

inductive SysModuleCall where
  | cycle (call : SysModuleCycle)
  | prescan

structure SysModuleCore where
  osr : Bool := false
  outputs : SysModuleOutputs := {}

namespace SysModuleCore

variable (core : SysModuleCore)

def scan (snapshot : SysModuleSnapshot) (inputInhibit inputUninhibit : Bool) :
    SysModuleCore × Option Int :=
  let modeWrite :=
    if inputInhibit && !core.osr then some (Int.lor snapshot.mode 0x0004)
    else if inputUninhibit && !core.osr then some (Int.land snapshot.mode 0xFFFB)
    else none
  ({ osr := inputInhibit || inputUninhibit
     outputs := ⟨snapshot, decodeEntryStatus snapshot.entryStatus⟩ }, modeWrite)

/-- The one-shot is retained. -/
def prescan : SysModuleCore := { core with outputs := {} }

/-- `SysModuleRuntime.cycle`. -/
def cycle (call : SysModuleCycle) : SysModuleCore × SysModuleRuntimeResult :=
  match call.read with
  | .error failure => (core, { outputs := core.outputs, readFailure := some failure })
  | .ok snapshot =>
    let scanned := core.scan snapshot call.inputInhibit call.inputUninhibit
    (scanned.1, {
      outputs := scanned.1.outputs, modeWrite := scanned.2
      writeFailure := scanned.2.bind call.write })

def perform : SysModuleCall → SysModuleCore
  | .cycle call => (core.cycle call).1
  | .prescan => core.prescan

end SysModuleCore

/-- Does a cycle that reads the object give a command? -/
def SysModuleCall.command? : SysModuleCall → Option Bool
  | .cycle call => call.read.toOption.map fun _ => call.inputInhibit || call.inputUninhibit
  | .prescan => none

/-- A command was given when the object was last read. -/
def Commanded (run : List SysModuleCall) : Prop :=
  (run.filterMap SysModuleCall.command?).getLast? = some true

theorem commanded_concat (run : List SysModuleCall) (call : SysModuleCall) :
    Commanded (run ++ [call]) ↔
      call.command? = some true ∨ call.command? = none ∧ Commanded run := by
  unfold Commanded
  cases hcommand : call.command? <;> simp [filterMap_append, hcommand]

theorem run_osr (run : List SysModuleCall) :
    (after SysModuleCore.perform {} run).osr = true ↔ Commanded run := by
  induction run using reverseRecOn with
  | nil => simp [Commanded]
  | append_singleton run call ih =>
    rw [after_append, commanded_concat, ← ih]
    cases call with
    | prescan => simp [SysModuleCore.perform, SysModuleCore.prescan, SysModuleCall.command?]
    | cycle call =>
      cases hread : call.read with
      | error failure =>
        simp [SysModuleCore.perform, SysModuleCore.cycle, SysModuleCall.command?, hread,
          Except.toOption]
      | ok snapshot =>
        simp [SysModuleCore.perform, SysModuleCore.cycle, SysModuleCore.scan,
          SysModuleCall.command?, hread, Except.toOption]

theorem modeWrite_iff (run : List SysModuleCall) (call : SysModuleCycle) (mode : Int) :
    ((after SysModuleCore.perform {} run).cycle call).2.modeWrite = some mode ↔
      ∃ snapshot, call.read = .ok snapshot ∧ ¬ Commanded run ∧
        (call.inputInhibit = true ∧ mode = Int.lor snapshot.mode 0x0004 ∨
          call.inputInhibit = false ∧ call.inputUninhibit = true ∧
            mode = Int.land snapshot.mode 0xFFFB) := by
  rw [← run_osr]
  generalize after SysModuleCore.perform {} run = core
  cases hread : call.read with
  | error failure => simp [SysModuleCore.cycle, hread]
  | ok snapshot =>
    simp only [SysModuleCore.cycle, SysModuleCore.scan, hread]
    cases core.osr <;> cases call.inputInhibit <;> cases call.inputUninhibit <;>
      simp [eq_comm]

theorem commanded_held {run between : List SysModuleCall} (hrun : Commanded run)
    (hheld : ∀ call ∈ between, call.command? ≠ some false) : Commanded (run ++ between) := by
  induction between using reverseRecOn with
  | nil => simpa using hrun
  | append_singleton between call ih =>
    have hpast := ih fun other hother => hheld other (mem_append_left _ hother)
    rw [← append_assoc, commanded_concat]
    cases hcommand : call.command? with
    | none => exact .inr ⟨rfl, hpast⟩
    | some commanded =>
      cases commanded with
      | true => exact .inl rfl
      | false => exact absurd hcommand (hheld call (by simp))

/-- In any run a cycle asks for a write exactly when it reads the object and its command has
risen since the last read. Whatever becomes of the write, the next one is asked for only
after a read without a command. -/
theorem sysModule_edges (before : List SysModuleCall) (call : SysModuleCycle) :
    (∀ mode, ((after SysModuleCore.perform {} before).cycle call).2.modeWrite = some mode ↔
      ∃ snapshot, call.read = .ok snapshot ∧ ¬ Commanded before ∧
        (call.inputInhibit = true ∧ mode = Int.lor snapshot.mode 0x0004 ∨
          call.inputInhibit = false ∧ call.inputUninhibit = true ∧
            mode = Int.land snapshot.mode 0xFFFB)) ∧
    ∀ mode, ((after SysModuleCore.perform {} before).cycle call).2.modeWrite = some mode →
      ∀ between later mode', ((after SysModuleCore.perform {}
        (before ++ .cycle call :: between)).cycle later).2.modeWrite = some mode' →
          ∃ released ∈ between, released.command? = some false := by
  refine ⟨modeWrite_iff before call, fun mode hmode between later mode' hlater => ?_⟩
  rcases (modeWrite_iff before call mode).mp hmode with ⟨snapshot, hread, -, hcommand⟩
  rcases (modeWrite_iff _ later mode').mp hlater with ⟨-, -, hreleased, -⟩
  by_contra hheld
  push Not at hheld
  have hgiven : Commanded (before ++ [.cycle call]) := by
    rw [commanded_concat]
    left
    rcases hcommand with ⟨hinhibit, -⟩ | ⟨-, huninhibit, -⟩
    · simp [SysModuleCall.command?, hread, Except.toOption, hinhibit]
    · simp [SysModuleCall.command?, hread, Except.toOption, huninhibit]
  have hheld' := commanded_held hgiven hheld
  rw [append_assoc, singleton_append] at hheld'
  exact hreleased hheld'

end TwinForge.Runtime
