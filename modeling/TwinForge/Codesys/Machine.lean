import Mathlib.Computability.StateTransition
import Mathlib.Logic.Function.Basic
import TwinForge.Codesys.ClockGuard

/-! # Running a routine

One scan of a routine as a deterministic machine on a stack of pending statement
lists and loops. What single statements do to the memory is a parameter; the
variables of the clock adapter are reached by name only.
-/

namespace TwinForge.Codesys

open IR

/-- The variables of a unit, by case-folded name, and all else a statement can see
or change. -/
structure Memory (Value World : Type) where
  store : Text → Value
  world : World

def Memory.set {Value World : Type} (memory : Memory Value World) (name : Text) (value : Value) :
    Memory Value World :=
  { memory with store := Function.update memory.store name value }

section

variable (db : CharacterDatabase)

def millisecondsName : Text := db.casefoldText clockMilliseconds

def resultName : Text := db.casefoldText clockResult

def adapterNames : List Text := [millisecondsName db, resultName db]

/-- None of the names is an adapter variable. -/
def Unfamiliar (names : List Text) : Prop := ∀ n ∈ names, db.casefoldText n ∉ adapterNames db

/-- The meaning of conditions and single statements. The laws say that the local
variables of the adapter are seen and changed only where they are named. -/
structure Machine (Value World : Type) where
  isZero : Value → Bool
  decides : Expression → Memory Value World → Option Bool
  performs : Statement → Memory Value World → Option (Memory Value World)
  /-- Store a time, given in milliseconds, in a destination of some unit. -/
  records : Expression → Text → Value → Memory Value World → Option (Memory Value World)
  decides_succeeded : ∀ span memory, decides (clockSucceeded span) memory =
    some (isZero (memory.store (resultName db)))
  decides_set : ∀ e name value memory, name ∈ adapterNames db →
    Unfamiliar db e.references → decides e (memory.set name value) = decides e memory
  performs_set : ∀ s name value memory, name ∈ adapterNames db →
    Unfamiliar db s.references →
    performs s (memory.set name value) = (performs s memory).map (fun m => m.set name value)
  records_set : ∀ e timestampUnit time name value memory, name ∈ adapterNames db →
    Unfamiliar db e.references →
    records e timestampUnit time (memory.set name value) =
      (records e timestampUnit time memory).map (fun m => m.set name value)

end

/-- What is still to run, innermost first. -/
inductive Task where
  | list (statements : List Statement)
  | loop (condition : Expression) (statements : List Statement)

/-- What the clock answers: a status, zero on success, and the time. -/
structure Reading (Value : Type) where
  status : Value
  milliseconds : Value

/-- A scan: pending tasks, memory, the destinations and units read so far, and
whether an EXIT outside every loop has ended the scan. -/
structure Config (Value World : Type) where
  stack : List Task
  memory : Memory Value World
  reads : List (Expression × Text) := []
  exited : Bool := false

def leaveLoop : List Task → Option (List Task)
  | [] => none
  | .list _ :: rest => leaveLoop rest
  | .loop _ _ :: rest => some rest

section

variable {db : CharacterDatabase} {Value World : Type} (machine : Machine db Value World)

def chooseBranch (memory : Memory Value World) :
    List (IfBranch Statement) → List Statement → Option (List Statement)
  | [], elseStatements => some elseStatements
  | branch :: rest, elseStatements =>
    match machine.decides branch.condition memory with
    | none => none
    | some true => some branch.statements
    | some false => chooseBranch memory rest elseStatements

/-- How a clock read changes a scan whose remaining stack is set. -/
abbrev ClockRead (Value World : Type) :=
  Expression → Text → Config Value World → Option (Config Value World)

def execute (read : ClockRead Value World) (config : Config Value World) (rest : List Task) :
    Statement → Option (Config Value World)
  | .wallClockRead _ destination timestampUnit =>
    read destination timestampUnit { config with stack := rest }
  | .ifThen _ branches elseStatements =>
    (chooseBranch machine config.memory branches elseStatements).map
      (fun chosen => { config with stack := .list chosen :: rest })
  | .whileDo _ condition statements =>
    some { config with stack := .loop condition statements :: rest }
  | .exit _ =>
    match leaveLoop rest with
    | some outside => some { config with stack := outside }
    | none => some { config with stack := [], exited := true }
  | statement => (machine.performs statement config.memory).map
      (fun memory => { config with stack := rest, memory })

/-- One step of a scan; none at its end and where a statement has no meaning. -/
def step (read : ClockRead Value World) (config : Config Value World) :
    Option (Config Value World) :=
  match config.stack with
  | [] => none
  | .list [] :: rest => some { config with stack := rest }
  | .list (statement :: statements) :: rest =>
    execute machine read config (.list statements :: rest) statement
  | .loop condition statements :: rest =>
    (machine.decides condition config.memory).map (fun again =>
      if again then { config with stack := .list statements :: .loop condition statements :: rest }
      else { config with stack := rest })

/-- The neutral meaning of a clock read: the time goes to the destination. -/
def neutralRead (clock : Nat → Reading Value) : ClockRead Value World :=
  fun destination timestampUnit config =>
    (machine.records destination timestampUnit (clock config.reads.length).milliseconds
      config.memory).map
      (fun memory => { config with memory, reads := config.reads ++ [(destination, timestampUnit)] })

/-- A clock read on CODESYS: the status and the milliseconds go to the adapter
variables, the time to the destination when the read succeeded. -/
def codesysRead (clock : Nat → Reading Value) : ClockRead Value World :=
  fun destination timestampUnit config =>
    let reading := clock config.reads.length
    let answered := (config.memory.set (millisecondsName db) reading.milliseconds).set
      (resultName db) reading.status
    let reads := config.reads ++ [(destination, timestampUnit)]
    if machine.isZero reading.status then
      (machine.records destination timestampUnit reading.milliseconds answered).map
        (fun memory => { config with memory, reads })
    else some { config with memory := answered, reads }

def start (statements : List Statement) (memory : Memory Value World) : Config Value World :=
  { stack := [.list statements], memory }

def Config.executed (config : Config Value World) : Option Statement :=
  match config.stack with
  | .list (statement :: _) :: _ => some statement
  | _ => none

def Finishes (next : Config Value World → Option (Config Value World))
    (config final : Config Value World) : Prop :=
  StateTransition.Reaches next config final ∧ next final = none

end

/-! ## Integer variables

A machine whose values are integers, with FALSE and TRUE as zero and one. -/

section

variable (db : CharacterDatabase)

def readLiteral (value : Text) : Option Int :=
  if value = "FALSE" then some 0
  else if value = "TRUE" then some 1
  else if value.all Char.isDigit then some (Nat.ofDigitChars 10 value 0)
  else none

def truth (holds : Bool) : Int := if holds then 1 else 0

def evaluates : Expression → Memory Int Unit → Option Int
  | .reference _ _ name, memory => some (memory.store (db.casefoldText name))
  | .literal _ _ value, _ => readLiteral value
  | .unary _ _ operator operand, memory =>
    if operator = ("NOT" : Text) then (evaluates operand memory).map (fun v => truth (v == 0))
    else none
  | .binary _ _ left operator right, memory => do
    let v ← evaluates left memory
    let w ← evaluates right memory
    if operator = ("=" : Text) then return truth (v == w)
    else if operator = ("AND" : Text) then return truth (v != 0 && w != 0)
    else if operator = ("+" : Text) then return v + w
    else none
  | _, _ => none

def assigns (target : Expression) (value : Int) (memory : Memory Int Unit) :
    Option (Memory Int Unit) :=
  match target with
  | .reference _ _ name => some (memory.set (db.casefoldText name) value)
  | _ => none

def runs (statement : Statement) (memory : Memory Int Unit) : Option (Memory Int Unit) :=
  match statement with
  | .assignment _ target value =>
    (evaluates db value memory).bind (fun v => assigns db target v memory)
  | _ => none

variable {name : Text}

theorem Memory.set_of_ne {Value World : Type} (memory : Memory Value World) {other : Text}
    (h : other ≠ name) (value : Value) : (memory.set name value).store other = memory.store other :=
  Function.update_of_ne h ..

theorem Memory.set_comm {Value World : Type} (memory : Memory Value World) {other : Text}
    (h : name ≠ other) (v w : Value) :
    (memory.set name v).set other w = (memory.set other w).set name v := by
  simp only [Memory.set, Function.update_comm h]

theorem evaluates_set {e : Expression} (hname : name ∈ adapterNames db)
    (hfree : Unfamiliar db e.references) (value : Int) (memory : Memory Int Unit) :
    evaluates db e (memory.set name value) = evaluates db e memory := by
  induction e with
  | reference span dataType referenced =>
    have hne : db.casefoldText referenced ≠ name := by
      rintro rfl
      exact hfree referenced List.mem_cons_self hname
    simp only [evaluates, memory.set_of_ne hne]
  | unary span dataType operator operand ih => simp only [evaluates, ih hfree]
  | binary span dataType left operator right ihl ihr =>
    have hleft := ihl (fun n hn => hfree n (List.mem_append_left _ hn))
    have hright := ihr (fun n hn => hfree n (List.mem_append_right _ hn))
    simp only [evaluates, hleft, hright]
  | literal | unsupported | member | index | call | arrayDimension => rfl

theorem assigns_set {target : Expression} (hname : name ∈ adapterNames db)
    (hfree : Unfamiliar db target.references) (value assigned : Int) (memory : Memory Int Unit) :
    assigns db target assigned (memory.set name value) =
      (assigns db target assigned memory).map (fun m => m.set name value) := by
  cases target with
  | reference span dataType referenced =>
    have hne : name ≠ db.casefoldText referenced := by
      rintro rfl
      exact hfree referenced List.mem_cons_self hname
    simp only [assigns, Option.map_some, memory.set_comm hne]
  | _ => rfl

def integerMachine : Machine db Int Unit where
  isZero v := v == 0
  decides e memory := (evaluates db e memory).map (fun v => v != 0)
  performs := runs db
  records destination _ time memory := assigns db destination (time * 1000) memory
  decides_succeeded span memory := by
    have hzero : readLiteral ("0" : Text) = some 0 := by decide
    simp only [clockSucceeded, evaluates, hzero, resultName, truth, Option.bind_eq_bind,
      Option.bind_some, if_true]
    cases memory.store (db.casefoldText clockResult) == 0 <;> rfl
  decides_set e name value memory hname hfree := by rw [evaluates_set db hname hfree]
  performs_set s name value memory hname hfree := by
    cases s with
    | assignment span target assigned =>
      have htarget : Unfamiliar db target.references :=
        fun n hn => hfree n (List.mem_append_left _ hn)
      have hassigned : Unfamiliar db assigned.references :=
        fun n hn => hfree n (List.mem_append_right _ hn)
      simp only [runs, evaluates_set db hname hassigned]
      cases evaluates db assigned memory with
      | none => rfl
      | some v => exact assigns_set db hname htarget value v memory
    | _ => rfl
  records_set e timestampUnit time name value memory hname hfree :=
    assigns_set db hname hfree value (time * 1000) memory

end

end TwinForge.Codesys
