import TwinForge.Codesys.Machine

/-! # Guarding is transparent when every clock read succeeds

The guarded routine on CODESYS follows the original routine step by step: its stack
is the original one with every list guarded and with exhausted lists in between.
-/

namespace TwinForge.Codesys

open IR StateTransition

section

variable {db : CharacterDatabase} {Value World : Type}

/-! ## Memories that agree outside the adapter -/

/-- Equal but for the adapter variables. -/
def Agree (db : CharacterDatabase) (memory other : Memory Value World) : Prop :=
  memory.world = other.world ∧ ∀ name ∉ adapterNames db, memory.store name = other.store name

theorem Agree.trans {first second third : Memory Value World} (h : Agree db first second)
    (h' : Agree db second third) : Agree db first third :=
  ⟨h.1.trans h'.1, fun name hname => (h.2 name hname).trans (h'.2 name hname)⟩

theorem Agree.set (memory : Memory Value World) {name : Text} (hname : name ∈ adapterNames db)
    (value : Value) : Agree db memory (memory.set name value) := by
  refine ⟨rfl, fun other hother => ?_⟩
  have hne : other ≠ name := by
    rintro rfl
    exact hother hname
  show memory.store other = Function.update memory.store name value other
  rw [Function.update_of_ne hne]

theorem Agree.eq_set {memory other : Memory Value World} (h : Agree db memory other) :
    other = (memory.set (millisecondsName db) (other.store (millisecondsName db))).set
      (resultName db) (other.store (resultName db)) := by
  have hstore : other.store = Function.update (Function.update memory.store (millisecondsName db)
      (other.store (millisecondsName db))) (resultName db) (other.store (resultName db)) := by
    funext name
    by_cases hresult : name = resultName db
    · rw [hresult, Function.update_self]
    by_cases hmilliseconds : name = millisecondsName db
    · rw [Function.update_of_ne hresult, hmilliseconds, Function.update_self]
    · rw [Function.update_of_ne hresult, Function.update_of_ne hmilliseconds]
      exact (h.2 name (by simp [adapterNames, hresult, hmilliseconds])).symm
  obtain ⟨store, world⟩ := other
  have hworld : memory.world = world := h.1
  simp only [Memory.set, hworld, Memory.mk.injEq, and_true]
  exact hstore

theorem millisecondsName_mem : millisecondsName db ∈ adapterNames db := List.mem_cons_self

theorem resultName_mem : resultName db ∈ adapterNames db := by simp [adapterNames]

variable (machine : Machine db Value World)

theorem Machine.decides_agree {memory other : Memory Value World} (h : Agree db memory other)
    {e : Expression} (hfree : Unfamiliar db e.references) :
    machine.decides e other = machine.decides e memory := by
  rw [h.eq_set, machine.decides_set _ _ _ _ resultName_mem hfree,
    machine.decides_set _ _ _ _ millisecondsName_mem hfree]

theorem effect_agree {effect : Memory Value World → Option (Memory Value World)}
    (heffect : ∀ name ∈ adapterNames db, ∀ value memory, effect (memory.set name value) =
      (effect memory).map (fun m => m.set name value))
    {memory other : Memory Value World} (h : Agree db memory other) :
    Option.Rel (Agree db) (effect memory) (effect other) := by
  rw [h.eq_set, heffect _ resultName_mem, heffect _ millisecondsName_mem]
  cases effect memory with
  | none => exact .none
  | some after =>
    apply Option.Rel.some
    exact (Agree.set after millisecondsName_mem _).trans (Agree.set _ resultName_mem _)

theorem Machine.performs_agree {memory other : Memory Value World} (h : Agree db memory other)
    {s : Statement} (hfree : Unfamiliar db s.references) :
    Option.Rel (Agree db) (machine.performs s memory) (machine.performs s other) :=
  effect_agree (fun name hname value m => machine.performs_set s name value m hname hfree) h

theorem Machine.records_agree {memory other : Memory Value World} (h : Agree db memory other)
    {e : Expression} (hfree : Unfamiliar db e.references) (timestampUnit : Text) (time : Value) :
    Option.Rel (Agree db) (machine.records e timestampUnit time memory)
      (machine.records e timestampUnit time other) :=
  effect_agree
    (fun name hname value m => machine.records_set e timestampUnit time name value m hname hfree) h

/-! ## Stacks of the guarded routine -/

variable (failure : List Statement)

/-- The stack of the guarded routine: lists guarded, exhausted lists in between. -/
inductive GuardedStack (db : CharacterDatabase) (failure : List Statement) :
    List Task → List Task → Prop
  | nil : GuardedStack db failure [] []
  | list {statements stack guarded} : Unfamiliar db (Statement.listReferences statements) →
      GuardedStack db failure stack guarded → GuardedStack db failure (.list statements :: stack)
        (.list (guardClockReads failure statements) :: guarded)
  | loop {condition statements stack guarded} : Unfamiliar db condition.references →
      Unfamiliar db (Statement.listReferences statements) →
      GuardedStack db failure stack guarded →
      GuardedStack db failure (.loop condition statements :: stack)
        (.loop condition (guardClockReads failure statements) :: guarded)
  | idle {stack guarded} : GuardedStack db failure stack guarded →
      GuardedStack db failure stack (.list [] :: guarded)

/-- A guarded stack with no exhausted list above its first task. -/
inductive SettledStack (db : CharacterDatabase) (failure : List Statement) :
    List Task → List Task → Prop
  | nil : SettledStack db failure [] []
  | list {statements stack guarded} : Unfamiliar db (Statement.listReferences statements) →
      GuardedStack db failure stack guarded → SettledStack db failure (.list statements :: stack)
        (.list (guardClockReads failure statements) :: guarded)
  | loop {condition statements stack guarded} : Unfamiliar db condition.references →
      Unfamiliar db (Statement.listReferences statements) →
      GuardedStack db failure stack guarded →
      SettledStack db failure (.loop condition statements :: stack)
        (.loop condition (guardClockReads failure statements) :: guarded)

variable {failure}

theorem GuardedStack.settles {stack guarded : List Task}
    (h : GuardedStack db failure stack guarded) (read : ClockRead Value World)
    (config : Config Value World) :
    ∃ settled, SettledStack db failure stack settled ∧
      Reaches (step machine read) { config with stack := guarded }
        { config with stack := settled } := by
  induction h with
  | nil => exact ⟨_, .nil, .refl⟩
  | list hfree h => exact ⟨_, .list hfree h, .refl⟩
  | loop hcondition hfree h => exact ⟨_, .loop hcondition hfree h, .refl⟩
  | idle h ih =>
    obtain ⟨settled, hsettled, hreach⟩ := ih
    exact ⟨settled, hsettled, Relation.ReflTransGen.head rfl hreach⟩

theorem GuardedStack.leaveLoop {stack guarded : List Task}
    (h : GuardedStack db failure stack guarded) :
    Option.Rel (GuardedStack db failure) (leaveLoop stack) (leaveLoop guarded) := by
  induction h with
  | nil => exact .none
  | list _ _ ih => exact ih
  | loop _ _ h => exact .some h
  | idle _ ih => exact ih

/-! ## Scans of the guarded routine -/

structure SameScan (db : CharacterDatabase) (config guarded : Config Value World) : Prop where
  memory : Agree db config.memory guarded.memory
  reads : config.reads = guarded.reads
  exited : config.exited = guarded.exited

/-- The scan of the guarded routine follows the scan of the original one. -/
structure Follows (db : CharacterDatabase) (failure : List Statement)
    (config guarded : Config Value World) : Prop extends SameScan db config guarded where
  stack : SettledStack db failure config.stack guarded.stack

/-- The same, before exhausted lists are taken off. -/
structure Trails (db : CharacterDatabase) (failure : List Statement)
    (config guarded : Config Value World) : Prop extends SameScan db config guarded where
  stack : GuardedStack db failure config.stack guarded.stack

variable {config : Config Value World}

theorem Trails.follows {guarded : Config Value World} (h : Trails db failure config guarded)
    (read : ClockRead Value World) :
    ∃ settled, Follows db failure config settled ∧ Reaches (step machine read) guarded settled := by
  obtain ⟨stack, hstack, hreach⟩ := h.stack.settles machine read guarded
  exact ⟨{ guarded with stack }, ⟨⟨h.memory, h.reads, h.exited⟩, hstack⟩, hreach⟩

theorem Unfamiliar.append {first second : List Text} (h : Unfamiliar db (first ++ second)) :
    Unfamiliar db first ∧ Unfamiliar db second :=
  ⟨fun n hn => h n (List.mem_append_left _ hn), fun n hn => h n (List.mem_append_right _ hn)⟩

theorem chooseBranch_guarded {memory other : Memory Value World} (h : Agree db memory other)
    (branches : List (IfBranch Statement)) (elseStatements : List Statement)
    (hfree : Unfamiliar db (Statement.branchReferences branches)) :
    chooseBranch machine other (guardBranches failure branches)
        (guardClockReads failure elseStatements) =
      (chooseBranch machine memory branches elseStatements).map (guardClockReads failure) := by
  induction branches with
  | nil => rfl
  | cons branch rest ih =>
    obtain ⟨span, condition, statements⟩ := branch
    obtain ⟨hbranch, hrest⟩ := Unfamiliar.append hfree
    have hcondition := (Unfamiliar.append hbranch).1
    unfold guardBranches chooseBranch
    simp only [machine.decides_agree h hcondition]
    cases machine.decides condition memory with
    | none => rfl
    | some holds =>
      cases holds with
      | true => rfl
      | false => exact ih hrest

theorem chooseBranch_unfamiliar {memory : Memory Value World}
    {branches : List (IfBranch Statement)} {elseStatements chosen : List Statement}
    (hfree : Unfamiliar db (Statement.branchReferences branches))
    (helse : Unfamiliar db (Statement.listReferences elseStatements))
    (h : chooseBranch machine memory branches elseStatements = some chosen) :
    Unfamiliar db (Statement.listReferences chosen) := by
  induction branches with
  | nil =>
    cases h
    exact helse
  | cons branch rest ih =>
    obtain ⟨span, condition, statements⟩ := branch
    obtain ⟨hbranch, hrest⟩ := Unfamiliar.append hfree
    unfold chooseBranch at h
    split at h
    · cases h
    · cases h
      exact (Unfamiliar.append hbranch).2
    · exact ih hrest h

theorem rel_map {A B : Type} {r : A → A → Prop} {q : B → B → Prop} {f g : A → B} {x y : Option A}
    (h : Option.Rel r x y) (hfg : ∀ a b, r a b → q (f a) (g b)) :
    Option.Rel q (x.map f) (y.map g) := by
  cases h with
  | none => exact .none
  | some hab => exact .some (hfg _ _ hab)

/-- A step of the original scan, and at least one step of the guarded scan. -/
def Matched (db : CharacterDatabase) (failure : List Statement)
    (next : Config Value World → Option (Config Value World)) (after : Option (Config Value World))
    (guarded : Config Value World) : Prop :=
  match after with
  | some config => ∃ trailing, Trails db failure config trailing ∧ Reaches₁ next guarded trailing
  | none => next guarded = none

theorem Matched.single {next : Config Value World → Option (Config Value World)}
    {after : Option (Config Value World)} {guarded : Config Value World}
    (h : Option.Rel (Trails db failure) after (next guarded)) :
    Matched db failure next after guarded := by
  generalize hnext : next guarded = stepped at h
  cases h with
  | none => exact hnext
  | some htrails => exact ⟨_, htrails, .single hnext⟩

variable (clock : Nat → Reading Value) {memory other : Memory Value World}
  {reads : List (Expression × Text)} {exited : Bool} {rest : List Statement}
  {stack guarded : List Task}

variable {statement : Statement}

theorem performs_matched (hagree : Agree db memory other)
    (hfree : Unfamiliar db statement.references)
    (hrest : Unfamiliar db (Statement.listReferences rest))
    (hstack : GuardedStack db failure stack guarded) :
    Option.Rel (Trails db failure)
      ((machine.performs statement memory).map
        (fun after => (⟨.list rest :: stack, after, reads, exited⟩ : Config Value World)))
      ((machine.performs statement other).map
        (fun after => ⟨.list (guardClockReads failure rest) :: guarded, after, reads, exited⟩)) :=
  rel_map (machine.performs_agree hagree hfree)
    (fun _ _ hafter => ⟨⟨hafter, rfl, rfl⟩, .list hrest hstack⟩)

def answered (db : CharacterDatabase) (reading : Reading Value) (memory : Memory Value World) :
    Memory Value World :=
  (memory.set (millisecondsName db) reading.milliseconds).set (resultName db) reading.status

@[simp] theorem answered_result (reading : Reading Value) (memory : Memory Value World) :
    (answered db reading memory).store (resultName db) = reading.status :=
  Function.update_self ..

theorem answered_agree (reading : Reading Value) (memory : Memory Value World) :
    Agree db memory (answered db reading memory) :=
  (Agree.set memory millisecondsName_mem _).trans (Agree.set _ resultName_mem _)

theorem step_clockGuard (read : ClockRead Value World) {reading : Reading Value}
    (hzero : machine.isZero reading.status = true) (span : StructuredText.SourceSpan)
    (remaining : List Statement) :
    step machine read ⟨.list [clockGuard span remaining failure] :: guarded,
        answered db reading memory, reads, exited⟩ =
      some ⟨.list remaining :: .list [] :: guarded, answered db reading memory, reads, exited⟩ := by
  show (chooseBranch machine (answered db reading memory)
    [⟨span, clockSucceeded span, remaining⟩] failure).map _ = _
  unfold chooseBranch
  simp only [machine.decides_succeeded, answered_result, hzero]
  rfl

theorem clockRead_matched (hagree : Agree db memory other) {span : StructuredText.SourceSpan}
    {destination : Expression} (timestampUnit : Text) (hfree : Unfamiliar db destination.references)
    (hrest : Unfamiliar db (Statement.listReferences rest))
    (hstack : GuardedStack db failure stack guarded)
    (hclock : ∀ k, machine.isZero (clock k).status = true) :
    Matched db failure (step machine (codesysRead machine clock))
      (neutralRead machine clock destination timestampUnit
        ⟨.list rest :: stack, memory, reads, exited⟩)
      ⟨.list [.wallClockRead span destination timestampUnit,
        clockGuard span (guardClockReads failure rest) failure] :: guarded,
        other, reads, exited⟩ := by
  let reading := clock reads.length
  have hrecords := machine.records_agree hagree hfree timestampUnit reading.milliseconds
  have hread : step machine (codesysRead machine clock)
      ⟨.list [.wallClockRead span destination timestampUnit,
        clockGuard span (guardClockReads failure rest) failure] :: guarded, other, reads, exited⟩ =
      (machine.records destination timestampUnit reading.milliseconds other).map (fun after =>
        ⟨.list [clockGuard span (guardClockReads failure rest) failure] :: guarded,
          answered db reading after, reads ++ [(destination, timestampUnit)], exited⟩) := by
    show (if machine.isZero (clock reads.length).status = true then
      (machine.records destination timestampUnit reading.milliseconds
        (answered db reading other)).map _ else _) = _
    rw [if_pos (hclock _), answered, machine.records_set _ _ _ _ _ _ resultName_mem hfree,
      machine.records_set _ _ _ _ _ _ millisecondsName_mem hfree, Option.map_map, Option.map_map]
    rfl
  show Matched db failure _ ((machine.records destination timestampUnit reading.milliseconds
    memory).map _) _
  generalize machine.records destination timestampUnit reading.milliseconds memory = left,
    machine.records destination timestampUnit reading.milliseconds other = right
    at hrecords hread ⊢
  cases hrecords with
  | none => exact hread
  | @some after otherAfter hafter =>
    rw [Option.map_some] at hread
    have hguard : step machine (codesysRead machine clock)
        ⟨.list [clockGuard span (guardClockReads failure rest) failure] :: guarded,
          answered db reading otherAfter, reads ++ [(destination, timestampUnit)], exited⟩ =
        some ⟨.list (guardClockReads failure rest) :: .list [] :: guarded,
          answered db reading otherAfter, reads ++ [(destination, timestampUnit)], exited⟩ :=
      step_clockGuard machine (codesysRead machine clock) (hclock reads.length) span
        (guardClockReads failure rest)
    have htrails : Trails db failure
        ⟨.list rest :: stack, after, reads ++ [(destination, timestampUnit)], exited⟩
        ⟨.list (guardClockReads failure rest) :: .list [] :: guarded,
          answered db reading otherAfter, reads ++ [(destination, timestampUnit)], exited⟩ :=
      ⟨⟨hafter.trans (answered_agree reading otherAfter), rfl, rfl⟩, .list hrest (.idle hstack)⟩
    exact ⟨_, htrails, Relation.TransGen.head hread (.single hguard)⟩

theorem execute_matched (hagree : Agree db memory other)
    (hfree : Unfamiliar db statement.references)
    (hrest : Unfamiliar db (Statement.listReferences rest))
    (hstack : GuardedStack db failure stack guarded)
    (hclock : ∀ k, machine.isZero (clock k).status = true) :
    Matched db failure (step machine (codesysRead machine clock))
      (execute machine (neutralRead machine clock) ⟨.list (statement :: rest) :: stack, memory, reads, exited⟩
        (.list rest :: stack) statement)
      ⟨.list (guardClockReads failure (statement :: rest)) :: guarded, other, reads, exited⟩ := by
  cases statement with
  | assignment | callStatement | controllerObjectRead | controllerObjectWrite | unsupported =>
    exact .single (performs_matched machine hagree hfree hrest hstack)
  | wallClockRead span destination timestampUnit =>
    exact clockRead_matched machine clock hagree timestampUnit hfree hrest hstack hclock
  | ifThen span branches elseStatements =>
    obtain ⟨hbranches, helse⟩ := Unfamiliar.append hfree
    apply Matched.single
    show Option.Rel _ (Option.map _ (chooseBranch machine memory branches elseStatements))
      (Option.map _ (chooseBranch machine other (guardBranches failure branches)
        (guardClockReads failure elseStatements)))
    rw [chooseBranch_guarded machine hagree branches elseStatements hbranches, Option.map_map]
    cases hchosen : chooseBranch machine memory branches elseStatements with
    | none => exact .none
    | some chosen =>
      have hchosenFree := chooseBranch_unfamiliar machine hbranches helse hchosen
      exact .some ⟨⟨hagree, rfl, rfl⟩, .list hchosenFree (.list hrest hstack)⟩
  | whileDo span condition statements =>
    obtain ⟨hcondition, hstatements⟩ := Unfamiliar.append hfree
    apply Matched.single
    exact .some ⟨⟨hagree, rfl, rfl⟩, .loop hcondition hstatements (.list hrest hstack)⟩
  | exit span =>
    apply Matched.single
    have hleave := (GuardedStack.list hrest hstack).leaveLoop
    show Option.Rel _ (execute machine _ _ _ _)
      (execute machine (codesysRead machine clock) ⟨_, other, reads, exited⟩
        (.list (guardClockReads failure rest) :: guarded) (.exit span))
    simp only [execute]
    generalize leaveLoop (.list rest :: stack) = left,
      leaveLoop (.list (guardClockReads failure rest) :: guarded) = right at hleave ⊢
    cases hleave with
    | none => exact .some ⟨⟨hagree, rfl, rfl⟩, .nil⟩
    | some houtside => exact .some ⟨⟨hagree, rfl, rfl⟩, houtside⟩

theorem follows_respects (hclock : ∀ k, machine.isZero (clock k).status = true) :
    Respects (step machine (neutralRead machine clock)) (step machine (codesysRead machine clock))
      (Follows db failure) := by
  intro config guarded h
  have hmatched : Matched db failure (step machine (codesysRead machine clock))
      (step machine (neutralRead machine clock) config) guarded := by
    obtain ⟨⟨hagree, hreads, hexited⟩, hstack⟩ := h
    obtain ⟨stack, memory, reads, exited⟩ := config
    obtain ⟨guardedStack, other, otherReads, otherExited⟩ := guarded
    simp only at hagree hreads hexited hstack
    subst hreads hexited
    cases hstack with
    | nil => exact .single .none
    | @list statements stack guarded hfree hstack =>
      cases statements with
      | nil => exact .single (.some ⟨⟨hagree, rfl, rfl⟩, hstack⟩)
      | cons statement rest =>
        obtain ⟨hstatement, hrest⟩ := Unfamiliar.append hfree
        exact execute_matched machine clock hagree hstatement hrest hstack hclock
    | @loop condition statements stack guarded hcondition hfree hstack =>
      apply Matched.single
      show Option.Rel _ (Option.map _ (machine.decides condition memory))
        (Option.map _ (machine.decides condition other))
      rw [machine.decides_agree hagree hcondition]
      cases machine.decides condition memory with
      | none => exact .none
      | some again =>
        cases again with
        | true =>
          exact .some ⟨⟨hagree, rfl, rfl⟩, .list hfree (.loop hcondition hfree hstack)⟩
        | false => exact .some ⟨⟨hagree, rfl, rfl⟩, hstack⟩
  cases hstep : step machine (neutralRead machine clock) config with
  | none =>
    rw [hstep] at hmatched
    exact hmatched
  | some after =>
    rw [hstep] at hmatched
    obtain ⟨trailing, htrails, hreach⟩ := hmatched
    obtain ⟨settled, hfollows, hsettles⟩ := htrails.follows machine (codesysRead machine clock)
    exact ⟨settled, hfollows, hreach.trans_left hsettles⟩

/-! ## Whole runs -/

variable {after : Config Value World}

theorem execute_reads {read : ClockRead Value World}
    (hread : ∀ destination timestampUnit config after,
      read destination timestampUnit config = some after → config.reads <+: after.reads)
    {stack : List Task} (h : execute machine read config stack statement = some after) :
    config.reads <+: after.reads := by
  cases statement with
  | assignment | callStatement | controllerObjectRead | controllerObjectWrite | unsupported |
    ifThen =>
      obtain ⟨_, -, rfl⟩ := Option.map_eq_some_iff.mp h
      exact List.prefix_rfl
  | wallClockRead span destination timestampUnit =>
    exact hread destination timestampUnit { config with stack := stack } after h
  | whileDo =>
    cases h
    exact List.prefix_rfl
  | exit =>
    simp only [execute] at h
    split at h
    · cases h
      exact List.prefix_rfl
    · cases h
      exact List.prefix_rfl

theorem step_reads {read : ClockRead Value World} (hread : ∀ destination timestampUnit config after,
      read destination timestampUnit config = some after → config.reads <+: after.reads)
    (h : step machine read config = some after) :
    config.reads <+: after.reads := by
  unfold step at h
  split at h
  · cases h
  · cases h
    exact List.prefix_rfl
  · exact execute_reads machine hread h
  · obtain ⟨again, -, rfl⟩ := Option.map_eq_some_iff.mp h
    split
    · exact List.prefix_rfl
    · exact List.prefix_rfl

theorem codesysRead_reads {destination : Expression} {timestampUnit : Text}
    (h : codesysRead machine clock destination timestampUnit config = some after) :
    config.reads <+: after.reads := by
  unfold codesysRead at h
  simp only at h
  split at h
  · obtain ⟨_, -, rfl⟩ := Option.map_eq_some_iff.mp h
    exact List.prefix_append ..
  · cases h
    exact List.prefix_append ..

theorem reaches_reads (h : Reaches (step machine (codesysRead machine clock)) config after) :
    config.reads <+: after.reads := by
  induction h with
  | refl => exact List.prefix_rfl
  | tail _ hstep ih =>
    exact ih.trans (step_reads machine
      (fun _ _ _ _ hread => codesysRead_reads machine clock hread) hstep)

/-- Two scans that end alike: with the same variables outside the adapter, the same
reads, the same EXIT, and both at the end of the routine or both stuck. -/
structure SameEnd (db : CharacterDatabase) (final guarded : Config Value World) : Prop extends
    SameScan db final guarded where
  finished : final.stack = [] ↔ guarded.stack = []

theorem Follows.sameEnd {guarded : Config Value World}
    (h : Follows db failure config guarded) : SameEnd db config guarded := by
  refine ⟨h.toSameScan, ?_⟩
  have hstack := h.stack
  generalize config.stack = left, guarded.stack = right at hstack
  cases hstack <;> simp

/-- The runs of two routines, one guarded: each ends as the other one does, and the
reads of each appear in the other one, ending or not. -/
structure SameRuns (db : CharacterDatabase)
    (next guardedNext : Config Value World → Option (Config Value World))
    (config guarded : Config Value World) : Prop where
  ends : ∀ final, Finishes next config final →
    ∃ guardedFinal, Finishes guardedNext guarded guardedFinal ∧ SameEnd db final guardedFinal
  ends_back : ∀ guardedFinal, Finishes guardedNext guarded guardedFinal →
    ∃ final, Finishes next config final ∧ SameEnd db final guardedFinal
  reads : ∀ later, Reaches next config later →
    ∃ guardedLater, Reaches guardedNext guarded guardedLater ∧ later.reads = guardedLater.reads
  reads_back : ∀ guardedLater, Reaches guardedNext guarded guardedLater →
    ∃ later, Reaches next config later ∧ guardedLater.reads <+: later.reads

theorem Follows.sameRuns {guarded : Config Value World} (h : Follows db failure config guarded)
    (hclock : ∀ k, machine.isZero (clock k).status = true) :
    SameRuns db (step machine (neutralRead machine clock))
      (step machine (codesysRead machine clock)) config guarded := by
  have hrespects : Respects (step machine (neutralRead machine clock))
      (step machine (codesysRead machine clock)) (Follows db failure) :=
    follows_respects machine clock hclock
  constructor
  · rintro final ⟨hreach, hend⟩
    obtain ⟨guardedFinal, hfollows, hguarded⟩ := tr_reaches hrespects h hreach
    have hstop := hrespects hfollows
    rw [hend] at hstop
    exact ⟨guardedFinal, ⟨hguarded, hstop⟩, hfollows.sameEnd⟩
  · rintro guardedFinal ⟨hreach, hend⟩
    obtain ⟨final, last, hlast, hfollows, hfinal⟩ := tr_reaches_rev hrespects h hreach
    have hsame : guardedFinal = last := by
      rcases Relation.ReflTransGen.cases_head hlast with heq | ⟨next, hnext, -⟩
      · exact heq
      · rw [Option.mem_def, hend] at hnext
        cases hnext
    subst hsame
    refine ⟨final, ⟨hfinal, ?_⟩, hfollows.sameEnd⟩
    have hstop := hrespects hfollows
    cases hstep : step machine (neutralRead machine clock) final with
    | none => rfl
    | some after =>
      rw [hstep] at hstop
      obtain ⟨_, -, hmore⟩ := hstop
      obtain ⟨next, hnext, -⟩ := Relation.TransGen.head'_iff.mp hmore
      rw [Option.mem_def, hend] at hnext
      cases hnext
  · intro later hreach
    obtain ⟨guardedLater, hfollows, hguarded⟩ := tr_reaches hrespects h hreach
    exact ⟨guardedLater, hguarded, hfollows.reads⟩
  · intro guardedLater hreach
    obtain ⟨later, last, hlast, hfollows, hlater⟩ := tr_reaches_rev hrespects h hreach
    refine ⟨later, hlater, ?_⟩
    rw [hfollows.reads]
    exact reaches_reads machine clock hlast

end

/-- A unit that refers only to names it declares, none of them an adapter variable,
does not name the adapter's variables. -/
theorem unfamiliar_of_resolved {unit : ReusableUnit} (h : unit.Resolved db)
    (hdeclares : ∀ name ∈ adapterNames db, name ∉ unit.declaredNames db) {routine : Routine}
    (hroutine : routine ∈ unit.routines) :
    Unfamiliar db (Statement.listReferences routine.statements) := by
  intro n hn hadapter
  exact hdeclares _ hadapter (h routine hroutine n hn)

/-- When every clock read succeeds, a guarded routine runs like the routine, for every
routine of a unit that does not itself name an adapter variable. -/
theorem guardClockReads_transparent (db : CharacterDatabase) {Value World : Type}
    (machine : Machine db Value World) (clock : Nat → Reading Value)
    (hclock : ∀ k, machine.isZero (clock k).status = true) (unit : ReusableUnit)
    (routine : Routine) (hfree : Unfamiliar db (Statement.listReferences routine.statements))
    (memory other : Memory Value World) (hagree : Agree db memory other) :
    SameRuns db (step machine (neutralRead machine clock))
      (step machine (codesysRead machine clock)) (start routine.statements memory)
      (start (guardClockReads (clockFailureAssignments unit.parameters) routine.statements)
        other) := by
  have hstart : Follows db (clockFailureAssignments unit.parameters)
      (start routine.statements memory) (start (guardClockReads
        (clockFailureAssignments unit.parameters) routine.statements) other) :=
    ⟨⟨hagree, rfl, rfl⟩, .list hfree .nil⟩
  exact hstart.sameRuns machine clock hclock

/-- A routine that reads the clock in a loop it leaves by EXIT. -/
def loopedRead : Routine :=
  let variable_ (name : Text) : Expression := .reference ⟨0, 1⟩ none name
  { name := "Logic"
    statements :=
      [.whileDo ⟨0, 1⟩ (variable_ "Again")
        [.wallClockRead ⟨1, 2⟩ (variable_ "Stamp") "microseconds",
         .assignment ⟨2, 3⟩ (variable_ "Copy") (variable_ "Stamp"), .exit ⟨3, 4⟩],
       .assignment ⟨4, 5⟩ (variable_ "Done") (.literal ⟨4, 5⟩ (some ("BOOL" : Text)) "TRUE")] }

def loopedReadUnit : ReusableUnit where
  name := "Timestamp"
  kind := .functionBlock
  parameters := [⟨"Again", .input, some ("BOOL" : Text), none, false, false⟩,
    ⟨"Done", .output, some ("BOOL" : Text), none, false, false⟩]
  instanceVariables := [⟨"Stamp", some ("LINT" : Text), none⟩, ⟨"Copy", some ("LINT" : Text), none⟩]
  routines := [loopedRead]

theorem loopedReadUnit_resolved : loopedReadUnit.Resolved Ascii.database := by
  unfold ReusableUnit.Resolved
  decide +kernel

/-- The looped read, run with a clock that never fails. -/
theorem guardClockReads_transparent_looped :
    let machine := integerMachine Ascii.database
    SameRuns Ascii.database (step machine (neutralRead machine (fun k => ⟨0, (k : Int)⟩)))
      (step machine (codesysRead machine (fun k => ⟨0, (k : Int)⟩)))
      (start loopedRead.statements ⟨fun _ => 1, ()⟩)
      (start (guardClockReads (clockFailureAssignments loopedReadUnit.parameters)
        loopedRead.statements) ⟨fun _ => 1, ()⟩) :=
  guardClockReads_transparent Ascii.database (integerMachine Ascii.database) _ (fun _ => rfl)
    loopedReadUnit loopedRead (unfamiliar_of_resolved loopedReadUnit_resolved (by decide +kernel)
      List.mem_cons_self) _ _ ⟨rfl, fun _ _ => rfl⟩

end TwinForge.Codesys
