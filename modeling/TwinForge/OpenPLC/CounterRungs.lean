import TwinForge.OpenPLC.SharedCounter

/-! # The source rungs of a counter group

The rungs of a matched group count in their order, copy `DN` to the output and then reset.
-/

namespace TwinForge.OpenPLC

open Model Plcopen List

/-! ## The source counter -/

/-- A counter tag, with the rung conditions its count instructions last saw since `RES`. -/
structure SourceCounter where
  acc : Int
  dn : Bool
  ov : Bool
  un : Bool
  up : Option Bool := none
  down : Option Bool := none
  deriving DecidableEq, Repr

namespace SourceCounter

/-- `CTU` counts when its rung turns true. -/
def countUp (preset : Int) (on : Bool) (counter : SourceCounter) : SourceCounter :=
  let counted :=
    if on && decide (counter.up = some false) then
      let acc := dintValue (counter.acc + 1)
      { counter with
        acc := acc, ov := counter.ov || decide (counter.acc = 2147483647)
        dn := decide (preset ≤ acc) }
    else counter
  { counted with up := some on }

def countDown (preset : Int) (on : Bool) (counter : SourceCounter) : SourceCounter :=
  let counted :=
    if on && decide (counter.down = some false) then
      let acc := dintValue (counter.acc - 1)
      { counter with
        acc := acc, un := counter.un || decide (counter.acc = -2147483648)
        dn := decide (preset ≤ acc) }
    else counter
  { counted with down := some on }

def clear : SourceCounter := ⟨0, false, false, false, some false, some false⟩

end SourceCounter

def counterSemantics (name : Text) (preset : Int) : OwnerSemantics SourceCounter where
  name := name
  members := [("DN", SourceCounter.dn), ("OV", SourceCounter.ov), ("UN", SourceCounter.un),
    ("CU", fun counter => counter.up == some true), ("CD", fun counter => counter.down == some true)]
  execute opcode on counter :=
    match opcode with
    | .CTU => counter.countUp preset on
    | .CTD => counter.countDown preset on
    | .RES => if on then SourceCounter.clear else counter
    | _ => counter

namespace OpenPLCCounterGroup

variable (group : OpenPLCCounterGroup)

def semantics : OwnerSemantics SourceCounter :=
  counterSemantics group.counterName (dintValue group.preset)

/-- The tag's members before the first scan. -/
def initial : SourceCounter :=
  { acc := dintValue group.initialAccumulator, dn := group.initialDone
    ov := group.initialOverflow, un := group.initialUnderflow }

/-- The count instructions and their contacts, in source order. -/
def directions : List (Opcode × Text) :=
  let up := (Opcode.CTU, group.countUpName.getD [])
  let down := (Opcode.CTD, group.countDownName.getD [])
  match group.order with
  | .upOnly => [up]
  | .downOnly => [down]
  | .upThenDown => [up, down]
  | .downThenUp => [down, up]

/-- The names of the count rungs are those of the order. -/
def Ordered : Prop :=
  match group.order with
  | .upOnly => group.countUpName.isSome = true ∧ group.countDownName = none
  | .downOnly => group.countUpName = none ∧ group.countDownName.isSome = true
  | _ => group.countUpName.isSome = true ∧ group.countDownName.isSome = true

def counted (valuation : Text → Bool) (counter : SourceCounter) : SourceCounter :=
  group.directions.foldl (fun counter direction =>
    group.semantics.execute direction.1 (valuation direction.2) counter) counter

end OpenPLCCounterGroup

/-! ## The rungs of a matched group -/

/-- The rung counts the counter under its contact. -/
def CountRung (db : CharacterDatabase) (counter : Text) (rung : ParsedBooleanRung)
    (direction : Opcode × Text) : Prop :=
  ∃ operand, ContactRung rung direction.2 ⟨direction.1, operand⟩ ∧
    (splitArguments db operand).head? = some counter

structure MatchedCounter (db : CharacterDatabase) (program : Program) (index : Nat)
    (group : OpenPLCCounterGroup) (counts : List ParsedBooleanRung)
    (done reset : ParsedBooleanRung) : Prop where
  rungs : groupRungs db program index group.sourceRungCount = counts ++ [done, reset]
  ordered : group.Ordered
  counting : List.Forall₂ (CountRung db group.counterName) counts group.directions
  done : ContactRung done (memberOperand group.counterName "DN") ⟨.OTE, group.outputName⟩
  reset : ContactRung reset group.resetName ⟨.RES, group.counterName⟩

section

variable {db : CharacterDatabase} {program : Program} {index : Nat} {group : OpenPLCCounterGroup}

theorem countInstruction_some {rungs : List LadderRung} {instruction : CountInstruction}
    (h : countInstruction db rungs index = some instruction) :
    ∃ rung, parseRung db rungs index = some rung ∧
      CountRung db instruction.counter rung (instruction.opcode, instruction.condition) ∧
      (instruction.opcode = .CTU ∨ instruction.opcode = .CTD) := by
  unfold countInstruction at h
  obtain ⟨rung, hrung, h⟩ := Option.bind_eq_some_iff.mp h
  obtain ⟨condition, hcondition, h⟩ := Option.bind_eq_some_iff.mp h
  refine ⟨rung, hrung, ?_⟩
  split at h
  · rename_i opcode operand houtputs
    split at h
    · cases h
    · rename_i hopcode
      split at h
      · rename_i counter second third harguments
        cases h
        have hcontact := contactRung_of hrung hcondition houtputs
        refine ⟨⟨operand, hcontact, by rw [harguments]; rfl⟩, ?_⟩
        by_cases hup : opcode = .CTU
        · exact .inl hup
        · exact .inr (by simpa [hup] using hopcode)
      · cases h
  · cases h

theorem matchCounterRungs_some {counterName outputName resetName : Text} {doneIndex : Nat}
    {tag : Tag} (h : matchCounterRungs db program counterName doneIndex =
      some (tag, outputName, resetName)) :
    ∃ done reset, parseRung db program.mainRungs doneIndex = some done ∧
      parseRung db program.mainRungs (doneIndex + 1) = some reset ∧
      ContactRung done (memberOperand counterName "DN") ⟨.OTE, outputName⟩ ∧
      ContactRung reset resetName ⟨.RES, counterName⟩ := by
  unfold matchCounterRungs at h
  obtain ⟨done, hdone, h⟩ := Option.bind_eq_some_iff.mp h
  obtain ⟨reset, hreset, h⟩ := Option.bind_eq_some_iff.mp h
  refine ⟨done, reset, hdone, hreset, ?_⟩
  split at h
  · rename_i output houtputs
    split at h
    · cases h
    · rename_i hshape
      simp only [ne_eq, not_or, not_not] at hshape
      obtain ⟨name, hname, h⟩ := Option.bind_eq_some_iff.mp h
      obtain ⟨found, _, h⟩ := Option.bind_eq_some_iff.mp h
      split at h
      · cases h
      · cases h
        exact ⟨⟨hshape.2, parseRung_condition hdone hshape.1 hshape.2, houtputs⟩,
          matchReset_some hreset hname⟩
  · cases h

theorem matchCounts_some {rungs : List LadderRung} {first : CountInstruction}
    {second : Option CountInstruction} (h : matchCounts db rungs index = some (first, second)) :
    countInstruction db rungs index = some first ∧
      ∀ other ∈ second, countInstruction db rungs (index + 1) = some other ∧
        other.opcode ≠ first.opcode ∧ other.counter = first.counter := by
  unfold matchCounts at h
  obtain ⟨found, hfound, h⟩ := Option.bind_eq_some_iff.mp h
  split at h
  · cases h
    exact ⟨hfound, by simp⟩
  · rename_i other hother
    split at h
    · cases h
      exact ⟨hfound, by simp⟩
    · rename_i hopcode
      split at h
      · cases h
      · rename_i hcounter
        cases h
        refine ⟨hfound, fun third hthird => ?_⟩
        cases hthird
        exact ⟨hother, hopcode, not_not.mp hcounter⟩

theorem matchCounterGroup_some (h : matchCounterGroup db program index = .ok (some group)) :
    ∃ first second, matchCounts db program.mainRungs index = some (first, second) ∧
      (∃ tag, matchCounterRungs db program first.counter
        (index + ([first] ++ second.toList).length) =
          some (tag, group.outputName, group.resetName)) ∧
      group.counterName = first.counter ∧ group.order = counterOrder first second ∧
      group.countUpName = (([first] ++ second.toList).find? (·.opcode == .CTU)).map (·.condition) ∧
      group.countDownName =
        (([first] ++ second.toList).find? (·.opcode == .CTD)).map (·.condition) ∧
      group.sourceRungCount = ([first] ++ second.toList).length + 2 := by
  unfold matchCounterGroup at h
  simp only at h
  split at h
  · cases h
  · rename_i first second hcounts
    split at h
    · cases h
    · rename_i tag outputName resetName hrungs
      cases hpreset : requiredMember db tag "PRE" with
      | error message => simp [hpreset, bind, Except.bind] at h
      | ok preset =>
        simp only [hpreset, bind, Except.bind, pure, Except.pure, Except.ok.injEq,
          Option.some.injEq] at h
        rw [← h]
        exact ⟨first, second, hcounts, ⟨tag, hrungs⟩, rfl, rfl, rfl, rfl, rfl⟩

theorem directions_eq {first : CountInstruction} {second : Option CountInstruction}
    (horder : group.order = counterOrder first second) (hup : group.countUpName =
      (([first] ++ second.toList).find? (·.opcode == .CTU)).map (·.condition))
    (hdown : group.countDownName =
      (([first] ++ second.toList).find? (·.opcode == .CTD)).map (·.condition))
    (hfirst : first.opcode = .CTU ∨ first.opcode = .CTD)
    (hsecond : ∀ other ∈ second, (other.opcode = .CTU ∨ other.opcode = .CTD) ∧
      other.opcode ≠ first.opcode) :
    group.Ordered ∧ group.directions =
      ([first] ++ second.toList).map fun count => (count.opcode, count.condition) := by
  cases second with
  | none =>
    cases hfirst with
    | inl hctu =>
      simp [OpenPLCCounterGroup.Ordered, OpenPLCCounterGroup.directions, horder, counterOrder,
        hup, hdown, hctu]
    | inr hctd =>
      simp [OpenPLCCounterGroup.Ordered, OpenPLCCounterGroup.directions, horder, counterOrder,
        hup, hdown, hctd]
  | some other =>
    have ⟨hother, hapart⟩ := hsecond other rfl
    cases hfirst with
    | inl hctu =>
      have hctd : other.opcode = .CTD := hother.resolve_left (by rwa [hctu] at hapart)
      simp [OpenPLCCounterGroup.Ordered, OpenPLCCounterGroup.directions, horder, counterOrder,
        hup, hdown, hctu, hctd]
    | inr hctd =>
      have hctu : other.opcode = .CTU := hother.resolve_right (by rwa [hctd] at hapart)
      simp [OpenPLCCounterGroup.Ordered, OpenPLCCounterGroup.directions, horder, counterOrder,
        hup, hdown, hctu, hctd]

theorem matchCounterGroup_matched (h : matchCounterGroup db program index = .ok (some group)) :
    ∃ counts done reset, MatchedCounter db program index group counts done reset := by
  have ⟨first, second, hcounts, ⟨tag, hrungs⟩, hname, horder, hup, hdown, hcount⟩ :=
    matchCounterGroup_some h
  have ⟨hfirst, hsecond⟩ := matchCounts_some hcounts
  have ⟨done, reset, hdone, hreset, hdoneRung, hresetRung⟩ := matchCounterRungs_some hrungs
  have ⟨rung, hrung, hcounting, hopcode⟩ := countInstruction_some hfirst
  have hopcodes : ∀ other ∈ second, (other.opcode = .CTU ∨ other.opcode = .CTD) ∧
      other.opcode ≠ first.opcode := by
    intro other hother
    have ⟨hnext, hapart, _⟩ := hsecond other hother
    have ⟨_, _, _, hkind⟩ := countInstruction_some hnext
    exact ⟨hkind, hapart⟩
  have ⟨hordered, hdirections⟩ := directions_eq horder hup hdown hopcode hopcodes
  cases second with
  | none =>
    simp only [Option.toList_none, append_nil, length_singleton, map_cons,
      map_nil] at hdone hreset hcount hdirections
    refine ⟨[rung], done, reset, ?_⟩
    constructor
    case rungs =>
      rw [hcount, groupRungs_cons hrung, groupRungs_cons hdone, groupRungs_cons hreset]
      rfl
    case ordered => exact hordered
    case counting =>
      rw [hdirections, hname]
      exact .cons hcounting .nil
    case done => rwa [hname]
    case reset => rwa [hname]
  | some other =>
    have ⟨hother, _, hcounter⟩ := hsecond other rfl
    have ⟨rung', hrung', hcounting', _⟩ := countInstruction_some hother
    simp only [Option.toList_some, singleton_append, length_cons, length_nil,
      map_cons, map_nil] at hdone hreset hcount hdirections
    refine ⟨[rung, rung'], done, reset, ?_⟩
    constructor
    case rungs =>
      rw [hcount, groupRungs_cons hrung, groupRungs_cons hrung', groupRungs_cons hdone,
        groupRungs_cons hreset]
      rfl
    case ordered => exact hordered
    case counting =>
      rw [hcounter] at hcounting'
      rw [hdirections, hname]
      exact .cons hcounting (.cons hcounting' .nil)
    case done => rwa [hname]
    case reset => rwa [hname]

end

/-! ## A scan of the source rungs -/

section

variable (db : CharacterDatabase) (program : Program) (index : Nat) (group : OpenPLCCounterGroup)

def sourceCounterScan (counter : SourceCounter) (valuation : Text → Bool) :
    SourceScan SourceCounter :=
  group.semantics.executeRungs db (groupRungs db program index group.sourceRungCount)
    ⟨valuation, counter⟩

def sourceCounterStep (counter : SourceCounter) (valuation : Text → Bool) : SourceCounter :=
  (sourceCounterScan db program index group counter valuation).owner

end

section

variable {db : CharacterDatabase} {program : Program} {index : Nat} {group : OpenPLCCounterGroup}
  {counts : List ParsedBooleanRung} {done reset : ParsedBooleanRung} {counter : SourceCounter}
  {valuation : Text → Bool}

theorem executeRungs_counts {directions : List (Opcode × Text)}
    (hopcodes : ∀ direction ∈ directions, direction.1 ≠ .OTE ∧ direction.1 ≠ .RES)
    (h : List.Forall₂ (CountRung db group.counterName) counts directions)
    (hsteady : SteadyContacts db group.semantics group.outputName counts ⟨valuation, counter⟩) :
    group.semantics.executeRungs db counts ⟨valuation, counter⟩ =
      ⟨valuation, directions.foldl (fun counter direction =>
        group.semantics.execute direction.1 (valuation direction.2) counter) counter⟩ := by
  induction h generalizing counter with
  | nil => rfl
  | @cons rung direction rungs directions hrung hrungs ih =>
    have ⟨operand, hcontact, howner⟩ := hrung
    have hopcode := hopcodes direction mem_cons_self
    have houtputs : rung.outputs ≠ [⟨.OTE, group.outputName⟩] := by
      rw [hcontact.outputs]
      intro hsame
      rw [singleton_inj, Instruction.mk.injEq] at hsame
      exact hopcode.1 hsame.1
    have hread := hsteady [] rung rungs rfl houtputs ⟨.XIC, direction.2⟩ (by simp [hcontact.tail])
    have hname : OwnerSemantics.ownerName db ⟨direction.1, operand⟩ = some group.semantics.name := by
      simp only [OwnerSemantics.ownerName, if_neg hopcode.2]
      exact howner
    have hexecute := hcontact.execute_owner hopcode.1 hname ⟨valuation, counter⟩
    simp only [OwnerSemantics.executeRungs, foldl_nil] at hread
    rw [hread] at hexecute
    simp only [OwnerSemantics.executeRungs, foldl_cons] at ih ⊢
    rw [hexecute]
    apply ih
    · intro other hother
      exact hopcodes other (mem_cons_of_mem _ hother)
    · intro before other after hsplit hother contact hmem
      have hlater := hsteady (rung :: before) other after (by rw [hsplit]; rfl) hother contact hmem
      simp only [OwnerSemantics.executeRungs, foldl_cons, hexecute] at hlater
      exact hlater

theorem directions_opcodes : ∀ direction ∈ group.directions,
    direction.1 ≠ Opcode.OTE ∧ direction.1 ≠ Opcode.RES := by
  intro direction h
  unfold OpenPLCCounterGroup.directions at h
  cases horder : group.order <;> simp [horder] at h <;> grind

theorem read_done (scan : SourceScan SourceCounter) :
    group.semantics.read scan (memberOperand group.counterName "DN") = scan.owner.dn := by
  simp [OwnerSemantics.read, OpenPLCCounterGroup.semantics, counterSemantics]

/-- The scan counts, copies `DN` to the output, and resets. -/
theorem sourceCounterScan_eq (hmatched : MatchedCounter db program index group counts done reset)
    (hsteady : SteadyContacts db group.semantics group.outputName
      (groupRungs db program index group.sourceRungCount) ⟨valuation, counter⟩) :
    sourceCounterScan db program index group counter valuation =
      ⟨Function.update valuation group.outputName (group.counted valuation counter).dn,
        if valuation group.resetName then SourceCounter.clear
        else group.counted valuation counter⟩ := by
  have hcounts := @executeRungs_counts db group counts counter valuation _
    directions_opcodes hmatched.counting (by
      intro before rung after hsplit
      apply hsteady before rung (after ++ [done, reset])
      rw [hmatched.rungs, hsplit, append_assoc]
      rfl)
  have hcoil := @ContactRung.execute_coil db _ _ _ group.semantics _ hmatched.done
    ⟨valuation, group.counted valuation counter⟩
  rw [read_done] at hcoil
  have hdone : group.semantics.executeRungs db (counts ++ [done]) ⟨valuation, counter⟩ =
      ⟨Function.update valuation group.outputName (group.counted valuation counter).dn,
        group.counted valuation counter⟩ := by
    rw [OwnerSemantics.executeRungs, foldl_append]
    rw [OwnerSemantics.executeRungs] at hcounts
    rw [hcounts]
    exact hcoil
  have hread := hsteady (counts ++ [done]) reset []
    (by rw [hmatched.rungs, append_assoc]; rfl) (by simp [hmatched.reset.outputs])
    ⟨.XIC, group.resetName⟩ (by simp [hmatched.reset.tail])
  have hname : OwnerSemantics.ownerName db ⟨.RES, group.counterName⟩ =
      some group.semantics.name := rfl
  have hopcode : Opcode.RES ≠ Opcode.OTE := by decide
  have hreset := @ContactRung.execute_owner _ _ _ _ group.semantics _ hmatched.reset hopcode hname
    (group.semantics.executeRungs db (counts ++ [done]) ⟨valuation, counter⟩)
  rw [hread, hdone] at hreset
  have hrungs : counts ++ [done, reset] = counts ++ [done] ++ [reset] := by
    rw [append_assoc]
    rfl
  rw [sourceCounterScan, hmatched.rungs, hrungs]
  rw [OwnerSemantics.executeRungs] at hdone ⊢
  rw [foldl_append, hdone, foldl_cons, foldl_nil, hreset]
  rfl

end

end TwinForge.OpenPLC
