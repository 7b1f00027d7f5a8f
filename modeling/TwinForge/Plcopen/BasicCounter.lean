import Mathlib.Data.Int.ModEq
import TwinForge.Foundation.Scans

/-! # The Machine Expert - Basic counter block

The generated block counts 0 to 9999 and wraps in both directions. Its value, its wrap
flags and its done bit are read off the history of its calls: the last reset or load, the
edges since, and the last call that counted.
-/

namespace TwinForge.Plcopen

open Scans

/-- The inputs of one call; the preset is the same in every call. -/
structure BasicCounterCall where
  reset : Bool := false
  load : Bool := false
  cu : Bool := false
  cd : Bool := false
  deriving DecidableEq, Repr

/-- The outputs and locals of an instance, as declared. `CV` never leaves `INT`. -/
structure BasicCounter where
  e : Bool := false
  d : Bool := false
  f : Bool := false
  cv : Int := 0
  cuLast : Bool := false
  cdLast : Bool := false
  deriving DecidableEq, Repr

def basicCounter (pv : Int) (block : BasicCounter) (call : BasicCounterCall) : BasicCounter :=
  let written :=
    if call.reset then { block with cv := 0, e := false, d := false, f := false }
    else if call.load then { block with cv := pv, d := true }
    else
      let counted :=
        if (call.cu && !block.cuLast) && !(call.cd && !block.cdLast) then
          if 9999 ≤ block.cv then { block with cv := 0, f := true, e := false }
          else { block with cv := block.cv + 1, f := false, e := false }
        else if (call.cd && !block.cdLast) && !(call.cu && !block.cuLast) then
          if block.cv ≤ 0 then { block with cv := 9999, e := true, f := false }
          else { block with cv := block.cv - 1, e := false, f := false }
        else block
      { counted with d := decide (counted.cv = pv) }
  { written with cuLast := call.cu, cdLast := call.cd }

abbrev CounterMoment := Moment BasicCounter BasicCounterCall

namespace CounterMoment

variable (moment : CounterMoment)

/-- A call that sets the value: a reset, or a load that no reset overrides. -/
def presets : Bool := moment.input.reset || moment.input.load

def upEdge : Bool := moment.input.cu && !moment.previous.cu

def downEdge : Bool := moment.input.cd && !moment.previous.cd

def countsUp : Bool := !moment.presets && moment.upEdge && !moment.downEdge

def countsDown : Bool := !moment.presets && moment.downEdge && !moment.upEdge

def counts : Bool := moment.countsUp || moment.countsDown

def wraps (before after : Int) : Bool :=
  decide (moment.found.cv = before) && decide (moment.left.cv = after)

end CounterMoment

/-- The value at the last reset or load, or at the start. Histories are newest first. -/
def presetValue (pv : Int) (history : List CounterMoment) : Int :=
  match history.find? CounterMoment.presets with
  | none => 0
  | some moment => if moment.input.reset then 0 else pv

/-- The edges up less the edges down since the last reset or load. -/
def netCount (history : List CounterMoment) : Int :=
  let later := history.takeWhile fun moment => !moment.presets
  (later.countP CounterMoment.countsUp : Int) - later.countP CounterMoment.countsDown

/-- The most recent counting call since the last reset. -/
def lastCount (history : List CounterMoment) : Option CounterMoment :=
  (history.takeWhile fun moment => !moment.input.reset).find? CounterMoment.counts

/-- What the block documents, over the history of its calls. -/
structure RingCounter (pv : Int) (history : List CounterMoment) (block : BasicCounter) :
    Prop where
  range : 0 ≤ block.cv ∧ block.cv ≤ 9999
  value : block.cv ≡ presetValue pv history + netCount history [ZMOD 10000]
  apart : ¬ (block.e = true ∧ block.f = true)
  empty : block.e = (lastCount history).any fun moment => moment.wraps 0 9999
  full : block.f = (lastCount history).any fun moment => moment.wraps 9999 0
  done : ∀ moment ∈ history.head?,
    block.d = (!moment.input.reset && decide (block.cv = pv))

def counterHistory (pv : Int) (run : List BasicCounterCall) : List CounterMoment :=
  moments (basicCounter pv) {} {} run

section

variable {pv : Int} {moment : CounterMoment} {history : List CounterMoment}

theorem presetValue_cons : presetValue pv (moment :: history) =
    if moment.presets then if moment.input.reset then 0 else pv else presetValue pv history := by
  unfold presetValue
  cases h : moment.presets <;> simp [h]

theorem netCount_cons : netCount (moment :: history) =
    if moment.presets then 0
    else netCount history + (if moment.countsUp then 1 else 0)
      - (if moment.countsDown then 1 else 0) := by
  cases h : moment.presets
  · simp only [netCount, List.takeWhile_cons, h, Bool.not_false, if_true, List.countP_cons,
      Bool.false_eq_true, if_false, Nat.cast_add, Nat.cast_ite, Nat.cast_one, Nat.cast_zero]
    omega
  · simp [netCount, h]

theorem lastCount_cons : lastCount (moment :: history) =
    if moment.input.reset then none
    else if moment.counts then some moment else lastCount history := by
  unfold lastCount
  cases h : moment.input.reset <;> cases hc : moment.counts <;>
    simp [h, hc]

end

/-- The edge memory holds the counting inputs of the call before. -/
def Remembers (block : BasicCounter) (previous : BasicCounterCall) : Prop :=
  block.cuLast = previous.cu ∧ block.cdLast = previous.cd

section

variable {pv : Int} {block : BasicCounter} {call previous : BasicCounterCall}
  {history : List CounterMoment}

def countedMoment (pv : Int) (block : BasicCounter) (call previous : BasicCounterCall) :
    CounterMoment := ⟨block, call, previous, basicCounter pv block call⟩

theorem basicCounter_reset (h : call.reset = true) :
    basicCounter pv block call = ⟨false, false, false, 0, call.cu, call.cd⟩ := by
  simp [basicCounter, h]

theorem basicCounter_load (hreset : call.reset = false) (hload : call.load = true) :
    basicCounter pv block call = ⟨block.e, true, block.f, pv, call.cu, call.cd⟩ := by
  simp [basicCounter, hreset, hload]

/-- A call that counts moves the value by one, around the ring, and flags a wrap. -/
theorem basicCounter_counts (hmemory : Remembers block previous)
    (hrange : 0 ≤ block.cv ∧ block.cv ≤ 9999)
    (h : (countedMoment pv block call previous).counts = true) :
    ∃ cv : Int, 0 ≤ cv ∧ cv ≤ 9999 ∧
      cv ≡ block.cv + (if (countedMoment pv block call previous).countsUp then 1 else 0)
        - (if (countedMoment pv block call previous).countsDown then 1 else 0) [ZMOD 10000] ∧
      basicCounter pv block call =
        ⟨decide (block.cv = 0 ∧ cv = 9999), decide (cv = pv), decide (block.cv = 9999 ∧ cv = 0), cv,
          call.cu, call.cd⟩ := by
  have ⟨hup, hdown⟩ := hmemory
  simp only [countedMoment, CounterMoment.counts, CounterMoment.countsUp, CounterMoment.countsDown,
    CounterMoment.presets, CounterMoment.upEdge, CounterMoment.downEdge] at h ⊢
  have hpresets : call.reset = false ∧ call.load = false := by grind
  simp only [basicCounter, hpresets, hup, hdown] at h ⊢
  cases hcu : call.cu && !previous.cu with
  | true =>
    have hcd : (call.cd && !previous.cd) = false := by grind
    by_cases hwrap : 9999 ≤ block.cv
    · have htop : block.cv = 9999 := by omega
      exact ⟨0, by simp [hcd, htop, Int.ModEq]⟩
    · have hne : block.cv ≠ 9999 := by omega
      have hflag : ¬ (block.cv = 0 ∧ block.cv + 1 = 9999) := by omega
      exact ⟨block.cv + 1, by omega, by omega, by simp [hcd], by simp [hcd, hwrap, hne, hflag]⟩
  | false =>
    have hcd : (call.cd && !previous.cd) = true := by grind
    by_cases hwrap : block.cv ≤ 0
    · have hbottom : block.cv = 0 := by omega
      exact ⟨9999, by simp [hcd, hbottom, Int.ModEq]⟩
    · have hne : block.cv ≠ 0 := by omega
      have hflag : ¬ (block.cv = 9999 ∧ block.cv - 1 = 0) := by omega
      exact ⟨block.cv - 1, by omega, by omega, by simp [hcd], by simp [hcd, hwrap, hne, hflag]⟩

theorem basicCounter_idle (hmemory : Remembers block previous)
    (hpresets : (countedMoment pv block call previous).presets = false)
    (h : (countedMoment pv block call previous).counts = false) :
    basicCounter pv block call =
      ⟨block.e, decide (block.cv = pv), block.f, block.cv, call.cu, call.cd⟩ := by
  have ⟨hup, hdown⟩ := hmemory
  simp only [countedMoment, CounterMoment.counts, CounterMoment.countsUp,
    CounterMoment.countsDown, CounterMoment.presets, CounterMoment.upEdge,
    CounterMoment.downEdge] at h hpresets
  simp only [basicCounter, hup, hdown]
  grind

namespace RingCounter

theorem reset (h : call.reset = true) :
    RingCounter pv (countedMoment pv block call previous :: history)
      (basicCounter pv block call) := by
  have hinput : (countedMoment pv block call previous).input.reset = true := h
  have hpresets : (countedMoment pv block call previous).presets = true := by
    simp [CounterMoment.presets, hinput]
  rw [basicCounter_reset h]
  constructor <;> simp [presetValue_cons, netCount_cons, lastCount_cons, hpresets, hinput]

theorem load (hpv : 0 ≤ pv ∧ pv ≤ 9999) (hring : RingCounter pv history block)
    (hreset : call.reset = false) (hload : call.load = true) :
    RingCounter pv (countedMoment pv block call previous :: history)
      (basicCounter pv block call) := by
  have hinput : (countedMoment pv block call previous).input.reset = false := hreset
  have hpresets : (countedMoment pv block call previous).presets = true := by
    simp [countedMoment, CounterMoment.presets, hload]
  have hcounts : (countedMoment pv block call previous).counts = false := by
    simp [CounterMoment.counts, CounterMoment.countsUp, CounterMoment.countsDown, hpresets]
  rw [basicCounter_load hreset hload]
  constructor
  case range => exact hpv
  case value => simp [presetValue_cons, netCount_cons, hpresets, hinput]
  case apart => exact hring.apart
  case empty => simpa [lastCount_cons, hinput, hcounts] using hring.empty
  case full => simpa [lastCount_cons, hinput, hcounts] using hring.full
  case done => simp [hinput]

theorem count (hmemory : Remembers block previous) (hring : RingCounter pv history block)
    (h : (countedMoment pv block call previous).counts = true) :
    RingCounter pv (countedMoment pv block call previous :: history)
      (basicCounter pv block call) := by
  have hpresets : (countedMoment pv block call previous).presets = false := by
    simp only [CounterMoment.counts, CounterMoment.countsUp, CounterMoment.countsDown] at h
    grind
  have hinput : (countedMoment pv block call previous).input.reset = false := by
    simp only [CounterMoment.presets] at hpresets
    grind
  have ⟨cv, hlow, hhigh, hmoved, hcall⟩ := basicCounter_counts hmemory hring.range h
  have hfound : (countedMoment pv block call previous).found.cv = block.cv := rfl
  have hleft : (countedMoment pv block call previous).left.cv = cv := congrArg (·.cv) hcall
  have hvalue := hring.value
  rw [hcall]
  constructor
  case range => exact ⟨hlow, hhigh⟩
  case value =>
    simp only [presetValue_cons, netCount_cons, hpresets, Bool.false_eq_true, if_false]
    unfold Int.ModEq at hvalue hmoved ⊢
    omega
  case apart =>
    simp only [decide_eq_true_eq]
    omega
  case empty => simp [lastCount_cons, hinput, h, CounterMoment.wraps, hfound, hleft]
  case full => simp [lastCount_cons, hinput, h, CounterMoment.wraps, hfound, hleft]
  case done => simp [hinput]

theorem idle (hmemory : Remembers block previous) (hring : RingCounter pv history block)
    (hpresets : (countedMoment pv block call previous).presets = false)
    (h : (countedMoment pv block call previous).counts = false) :
    RingCounter pv (countedMoment pv block call previous :: history)
      (basicCounter pv block call) := by
  have hinput : (countedMoment pv block call previous).input.reset = false := by
    simp only [CounterMoment.presets] at hpresets
    grind
  have ⟨hup, hdown⟩ : (countedMoment pv block call previous).countsUp = false ∧
      (countedMoment pv block call previous).countsDown = false := by
    simpa [CounterMoment.counts] using h
  rw [basicCounter_idle hmemory hpresets h]
  constructor
  case range => exact hring.range
  case value => simpa [presetValue_cons, netCount_cons, hpresets, hup, hdown] using hring.value
  case apart => exact hring.apart
  case empty => simpa [lastCount_cons, hinput, h] using hring.empty
  case full => simpa [lastCount_cons, hinput, h] using hring.full
  case done => simp [hinput]

theorem step (hpv : 0 ≤ pv ∧ pv ≤ 9999) (hmemory : Remembers block previous)
    (hring : RingCounter pv history block) :
    RingCounter pv (countedMoment pv block call previous :: history)
      (basicCounter pv block call) := by
  by_cases hreset : call.reset = true
  · exact reset hreset
  have hreset : call.reset = false := by simpa using hreset
  by_cases hload : call.load = true
  · exact load hpv hring hreset hload
  have hpresets : (countedMoment pv block call previous).presets = false := by
    simp [countedMoment, CounterMoment.presets, hreset, hload]
  by_cases hcounts : (countedMoment pv block call previous).counts = true
  · exact count hmemory hring hcounts
  exact idle hmemory hring hpresets ((Bool.not_eq_true _).mp hcounts)

end RingCounter

end

/-- Whatever is called in whatever order, the block is the documented ring counter. -/
theorem basicCounter_ring {pv : Int} (hpv : 0 ≤ pv ∧ pv ≤ 9999) (run : List BasicCounterCall) :
    RingCounter pv (counterHistory pv run) (after (basicCounter pv) {} run) := by
  have hrun : RingCounter pv (counterHistory pv run) (after (basicCounter pv) {} run) ∧
      Remembers (after (basicCounter pv) {} run) (run.getLast?.getD {}) := by
    apply after_history (fun past block =>
      RingCounter pv (counterHistory pv past) block ∧ Remembers block (past.getLast?.getD {}))
    · constructor
      · constructor <;> simp [counterHistory, presetValue, netCount, lastCount]
      · exact ⟨rfl, rfl⟩
    · intro past call hpast
      have hstep := @RingCounter.step _ _ call _ _ hpv hpast.2 hpast.1
      constructor
      · rw [counterHistory, moments_concat]
        exact hstep
      · rw [List.getLast?_concat]
        exact ⟨rfl, rfl⟩
  exact hrun.1

/-- Down from zero and up again: the down count wraps, and the up count wraps back. -/
theorem basicCounter_ring_wraps :
    RingCounter 3 (counterHistory 3 [{ cd := true }, {}, { cu := true }])
      (after (basicCounter 3) {} [{ cd := true }, {}, { cu := true }]) :=
  basicCounter_ring (by decide) _

end TwinForge.Plcopen
