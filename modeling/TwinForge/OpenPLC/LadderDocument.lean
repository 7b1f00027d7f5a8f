import TwinForge.OpenPLC.AdmittedRungs
import TwinForge.OpenPLC.SharedCounter
import TwinForge.OpenPLC.TimerRungs

/-! # The rungs of a native document

Groups of source rungs become one rung each, and the other rungs are lowered one by one. A
program without groups is lowered rung by rung, and a scan of the document leaves the memory
that a scan of the source leaves.
-/

namespace TwinForge.OpenPLC

open Model Plcopen List

inductive NativeRung where
  | boolean (graph : RungGraph)
  | block (rung : BlockRung)
  | elapsed (timerName location : Text)

/-- The locations by timer, by counter, and by the member of a counter. -/
structure DocumentLocations where
  elapsed : List (Text × Text)
  accumulators : List (Text × Text)
  statuses : List (Text × List (Text × Text))

section

variable (stableUuid : Text → Text) (db : CharacterDatabase) (timers : List (Text × Int))
  (locations : DocumentLocations) (nativeName : Text) (program : Program)

/-- The loop of `ladder_document` over the rungs; none where it raises. -/
def ladderRungs : Nat → Nat → List NativeRung → Option (List NativeRung)
  | 0, _, rungs => some rungs
  | fuel + 1, index, rungs =>
    match program.mainRungs[index]? with
    | none => some rungs
    | some rung => do
      match ← (matchCounterGroup db program index).toOption with
      | some group =>
        let member := fun (name : Text) => group.counterName ++ ("_" : Text) ++ name
        let accumulator := (locations.accumulators.lookup group.counterName).map fun _ =>
          member "ACC"
        let statuses := ((locations.statuses.lookup group.counterName).getD []).map fun status =>
          (status.1, member status.1)
        let lowered := lowerCounterGroup stableUuid nativeName rungs.length group accumulator
          statuses
        ladderRungs fuel (index + group.sourceRungCount) (rungs ++ [.block lowered])
      | none =>
        match matchTimerGroup db timers program index with
        | some group =>
          let location := (locations.elapsed.lookup group.timerName).filter (!·.isEmpty)
          let lowered ← lowerTimerGroup stableUuid nativeName rungs.length group
            (location.map fun _ => group.timerName ++ ("_ET" : Text))
          ladderRungs fuel (index + group.sourceRungCount)
            (rungs ++ .block lowered :: location.toList.map (.elapsed group.timerName))
        | none =>
          let graph ← lowerBooleanRung stableUuid db nativeName rungs.length (rung.text.getD [])
            (rung.comment.getD [])
          ladderRungs fuel (index + 1) (rungs ++ [.boolean graph])

end

/-- The memory a scan of Boolean rungs leaves: each writes its coil. -/
inductive Scanned : List NativeRung → (Text → Bool) → (Text → Bool) → Prop
  | nil {memory} : Scanned [] memory memory
  | cons {graph rungs memory final coil} {on : Bool} : coil ∈ graph.nodes → coil.type = .coil →
      (on = true ↔ Energises graph memory) →
      Scanned rungs (Function.update memory coil.variableName on) final →
      Scanned (.boolean graph :: rungs) memory final

/-- Source rungs without an instruction that owns a structure. -/
def unowned : OwnerSemantics Unit := ⟨[], [], fun _ _ owner => owner⟩

def parsedRungs (db : CharacterDatabase) (rungs : List LadderRung) : List ParsedBooleanRung :=
  rungs.filterMap fun rung => parseSupportedRung db rung.text

/-- The native rung is the graph of the source rung, at its position, and its coils are the one
that the source rung writes. -/
def LoweredFrom (stableUuid : Text → Text) (db : CharacterDatabase) (nativeName : Text)
    (source : LadderRung × Nat) (native : NativeRung) : Prop :=
  ∃ parsed output graph, parseSupportedRung db source.1.text = some parsed ∧
    parsed.outputs = [output] ∧ native = .boolean graph ∧
    lowerBooleanRung stableUuid db nativeName source.2 (source.1.text.getD [])
      (source.1.comment.getD []) = some graph ∧
    ∀ node ∈ graph.nodes, node.type = .coil → node.variableName = output.operand

section

variable {db : CharacterDatabase} {stableUuid : Text → Text} {nativeName : Text}
  {timers : List (Text × Int)} {locations : DocumentLocations} {program : Program}

theorem lowered_coil {text comment : Text} {position : Nat} {rung : ParsedBooleanRung}
    {output : Instruction} {graph : RungGraph}
    (hparsed : parseSupportedRung db (some text) = some rung) (houtput : rung.outputs = [output])
    (h : lowerBooleanRung stableUuid db nativeName position text comment = some graph) :
    ∃ coil ∈ graph.nodes, coil.type = .coil ∧
      ∀ node ∈ graph.nodes, node.type = .coil → node.variableName = output.operand := by
  unfold lowerBooleanRung at h
  rw [hparsed, Option.bind_eq_bind, Option.bind_some, houtput] at h
  simp only [head?_cons, Option.bind_eq_bind, Option.bind_some] at h
  split at h
  · cases h
    refine ⟨_, mem_append_right _ mem_cons_self, rfl, fun node hnode hcoil => ?_⟩
    simp only [serialRung, serialContactNodes, mem_append, mem_mapIdx, mem_cons, not_mem_nil,
      or_false] at hnode
    rcases hnode with (rfl | ⟨_, _, rfl⟩) | rfl | rfl <;> first | rfl | cases hcoil
  · simp only [Option.bind_eq_some_iff] at h
    rcases h with ⟨_, _, first, _, second, _, h⟩
    cases h
    refine ⟨_, mem_append_right _ (by iterate 4 apply mem_cons_of_mem
                                      exact mem_cons_self), rfl, fun node hnode hcoil => ?_⟩
    simp only [parallelRung, mem_append, mem_map, mem_cons, not_mem_nil, or_false] at hnode
    rcases hnode with (rfl | ⟨_, _, rfl⟩) | rfl | rfl | rfl | rfl | rfl | rfl <;>
      first | rfl | cases hcoil

theorem groupSize_none {index : Nat} (h : groupSize db timers program index = .ok none) :
    matchTimerGroup db timers program index = none ∧
      matchCounterGroup db program index = .ok none := by
  unfold groupSize at h
  split at h
  · cases h
  next htimer =>
    refine ⟨htimer, ?_⟩
    cases hcounter : matchCounterGroup db program index with
    | error error =>
      rw [hcounter] at h
      cases h
    | ok group =>
      rw [hcounter] at h
      cases group with
      | none => rfl
      | some group => cases h

theorem exists_lowerBooleanRung (stableUuid : Text → Text) (nativeName : Text) (position : Nat)
    (comment : Text) {text : Text} {parsed : ParsedBooleanRung}
    (hparsed : parseSupportedRung db (some text) = some parsed)
    (h : isSupportedBoolean parsed = true) :
    ∃ graph, lowerBooleanRung stableUuid db nativeName position text comment = some graph := by
  have ⟨hshape, output, houtput⟩ := isSupportedBoolean_shape h
  unfold lowerBooleanRung
  rw [hparsed, Option.bind_eq_bind, Option.bind_some, houtput]
  rcases hshape with ⟨hnone, _⟩ | ⟨first, second, tail, hboth, _⟩
  · rw [hnone]
    exact ⟨_, rfl⟩
  · rw [hboth]
    exact ⟨_, rfl⟩

/-- Outside groups each rung adds its graph. -/
theorem ladderRungs_lowered {todo : List LadderRung} {index : Nat}
    (htodo : program.mainRungs.drop index = todo)
    (hsingle : ∀ later ≥ index, later < program.mainRungs.length →
      groupSize db timers program later = .ok none)
    (hsupported : ∀ rung ∈ todo, ∃ parsed,
      parseSupportedRung db rung.text = some parsed ∧ isSupportedBoolean parsed = true)
    (rungs : List NativeRung) :
    ∃ more, ladderRungs stableUuid db timers locations nativeName program todo.length index rungs =
        some (rungs ++ more) ∧
      Forall₂ (LoweredFrom stableUuid db nativeName) (todo.zipIdx rungs.length) more := by
  induction todo generalizing index rungs with
  | nil => exact ⟨[], by rw [append_nil]; rfl, .nil⟩
  | cons rung todo ih =>
    have hrung : program.mainRungs[index]? = some rung := by
      rw [← head?_drop, htodo]
      rfl
    have hlt := (List.getElem?_eq_some_iff.mp hrung).1
    rcases groupSize_none (hsingle index (Nat.le_refl _) hlt) with ⟨htimer, hcounter⟩
    rcases hsupported rung mem_cons_self with ⟨parsed, hparsed, hboolean⟩
    rcases rung with ⟨number, comment, _ | text, instructions⟩
    · cases hparsed
    rcases exists_lowerBooleanRung stableUuid nativeName rungs.length (comment.getD []) hparsed
      hboolean with ⟨graph, hgraph⟩
    have hdrop : program.mainRungs.drop (index + 1) = todo := by
      rw [← tail_drop, htodo]
      rfl
    rcases ih hdrop (fun later hlater => hsingle later (by omega))
      (fun other hother => hsupported other (mem_cons_of_mem _ hother)) (rungs ++ [.boolean graph])
      with ⟨more, hmore, hlowered⟩
    rcases (isSupportedBoolean_shape hboolean).2 with ⟨output, houtput⟩
    rcases lowered_coil hparsed houtput hgraph with ⟨_, _, _, hcoils⟩
    refine ⟨.boolean graph :: more, ?_, ?_⟩
    · simp only [length_cons, ladderRungs, hrung, hcounter, htimer, Except.toOption,
        Option.getD_some, hgraph, Option.bind_eq_bind, Option.bind_some, hmore, append_assoc]
      rfl
    · rw [length_append] at hlowered
      exact .cons ⟨parsed, output, graph, hparsed, houtput, rfl, hgraph, hcoils⟩ hlowered

/-- The coil of each graph is written as the source rung writes it. -/
theorem lowered_scanned {todo : List LadderRung} {position : Nat} {more : List NativeRung}
    (hlowered : Forall₂ (LoweredFrom stableUuid db nativeName) (todo.zipIdx position) more)
    (hsupported : ∀ rung ∈ todo, ∃ parsed,
      parseSupportedRung db rung.text = some parsed ∧ isSupportedBoolean parsed = true)
    (hcovered : ∀ parsed ∈ parsedRungs db todo, PrefixCovered parsed)
    (hfree : ∀ entry ∈ (parsedRungs db todo).zipIdx position, CollisionFree stableUuid
      (contactPaths (rungIdentifier stableUuid nativeName entry.2) entry.1))
    (scan : SourceScan Unit) (final : Text → Bool) : Scanned more scan.bits final ↔
      final = (unowned.executeRungs db (parsedRungs db todo) scan).bits := by
  induction todo generalizing position more scan with
  | nil =>
    cases hlowered
    refine ⟨fun hscan => ?_, fun hsame => hsame ▸ .nil⟩
    cases hscan
    rfl
  | cons rung todo ih =>
    rw [zipIdx_cons] at hlowered
    rcases forall₂_cons_left_iff.mp hlowered with ⟨_, later, hhere, hrest, rfl⟩
    rcases hhere with ⟨parsed, output, graph, hparsed, houtput, rfl, hgraph, hcoils⟩
    rcases hsupported rung mem_cons_self with ⟨_, hother, hboolean⟩
    cases hparsed.symm.trans hother
    have hlist : parsedRungs db (rung :: todo) = parsed :: parsedRungs db todo :=
      filterMap_cons_some hparsed
    rw [hlist] at hcovered hfree ⊢
    rcases rung with ⟨number, comment, _ | text, instructions⟩
    · cases hparsed
    rcases lowerBooleanRung_energises stableUuid nativeName position (comment.getD []) hparsed
      hboolean (hfree _ mem_cons_self) with ⟨_, hsame, henergises⟩
    cases hgraph.symm.trans hsame
    rcases accepted_of hparsed with ⟨_, haccepted⟩
    have hcondition := (loweredCondition_iff haccepted.prefixContacts haccepted.branchContacts
      (isSupportedBoolean_tail hboolean) haccepted.prefixOfBranches).mpr
        (hcovered _ mem_cons_self)
    have hopcode : output.opcode = .OTE := by simp_all [isSupportedBoolean]
    rcases lowered_coil hparsed houtput hgraph with ⟨coil, hcoil, htype, _⟩
    have hexecute : unowned.executeRung db scan parsed = { scan with
        bits := Function.update scan.bits output.operand (loweredCondition parsed scan.bits) } := by
      rw [hcondition]
      simp only [OwnerSemantics.executeRung, houtput, foldl_cons, foldl_nil,
        OwnerSemantics.executeOutput, if_pos hopcode]
      rfl
    have hlater := ih hrest (fun other hother => hsupported other (mem_cons_of_mem _ hother))
      (fun other hother => hcovered other (mem_cons_of_mem _ hother))
      (fun entry hentry => hfree entry (mem_cons_of_mem _ hentry))
      (unowned.executeRung db scan parsed)
    rw [hexecute] at hlater
    rw [OwnerSemantics.executeRungs, foldl_cons, hexecute]
    refine Iff.trans ⟨fun hall => ?_, fun hscan => ?_⟩ hlater
    · cases hall with
      | cons hmember hkind hon hscan =>
        rw [hcoils _ hmember hkind, Bool.eq_iff_iff.mpr (hon.trans (henergises _))] at hscan
        exact hscan
    · exact .cons hcoil htype (henergises _).symm (by rw [hcoils _ hcoil htype]; exact hscan)

end

/-- Two rungs, one of them sealing itself in. -/
def sealedProgram : Program :=
  let routine : Routine := ⟨"Main",
    [⟨some 0, none, some "[XIC(Start),XIC(Run)]XIO(Stop)OTE(Run);", []⟩,
      ⟨some 1, none, some "XIC(Run)OTE(Lamp);", []⟩]⟩
  ⟨"P", [("Main", routine)], [], some routine⟩

end TwinForge.OpenPLC
