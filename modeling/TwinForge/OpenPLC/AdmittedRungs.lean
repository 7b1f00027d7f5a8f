import TwinForge.OpenPLC.LadderRefinement

/-! # The rungs the native target admits

Every rung outside a group that the admission loop stops at is one of two shapes,
and both lower to a graph with the meaning of their branch and tail contacts.
-/

namespace TwinForge.OpenPLC

open Model Plcopen List

/-! ## The admission loop -/

section

variable {db : CharacterDatabase} {timers : List (Text × Int)} {program : Program} {index : Nat}

theorem matchTimerGroup_count {group : NativeTimerGroup}
    (h : matchTimerGroup db timers program index = some group) : 0 < group.sourceRungCount := by
  unfold matchTimerGroup at h
  simp only [Option.bind_eq_bind, Option.bind_eq_some_iff] at h
  obtain ⟨_, -, _, -, _, -, _, -, _, -, h⟩ := h
  split at h
  · split at h
    · cases h
    split at h
    · split at h
      · cases h
      obtain ⟨_, -, h⟩ := Option.bind_eq_some_iff.mp h
      split at h
      · obtain ⟨_, -, h⟩ := Option.bind_eq_some_iff.mp h
        obtain ⟨_, -, h⟩ := Option.bind_eq_some_iff.mp h
        cases h
        exact Nat.succ_pos _
      · cases h
        exact Nat.succ_pos _
    · cases h
  · cases h

theorem matchCounterGroup_count {group : OpenPLCCounterGroup}
    (h : matchCounterGroup db program index = .ok (some group)) : 0 < group.sourceRungCount := by
  unfold matchCounterGroup at h
  simp only at h
  split at h
  · cases h
  split at h
  · cases h
  rename_i tag _ _ _
  unfold requiredMember at h
  cases hpreset : decoratedMemberInteger tag "PRE" with
  | none =>
    rw [hpreset] at h
    cases h
  | some preset =>
    rw [hpreset] at h
    cases h
    exact Nat.succ_pos _

theorem groupSize_pos {count : Nat}
    (h : groupSize db timers program index = .ok (some count)) : 0 < count := by
  unfold groupSize at h
  split at h
  · rename_i group hgroup
    cases h
    exact matchTimerGroup_count hgroup
  · cases hcounter : matchCounterGroup db program index with
    | error message =>
      rw [hcounter] at h
      cases h
    | ok found =>
      rw [hcounter] at h
      cases found with
      | none => cases h
      | some group =>
        cases h
        exact matchCounterGroup_count hcounter

theorem validateRungs_step {fuel : Nat} {rung : LadderRung}
    (hrung : program.mainRungs[index]? = some rung)
    (h : validateRungs db timers program (fuel + 1) index = .ok ()) :
    ∃ parsed, parseSupportedRung db rung.text = some parsed ∧
      ((∃ count, groupSize db timers program index = .ok (some count) ∧
        validateRungs db timers program fuel (index + count) = .ok ()) ∨
       (groupSize db timers program index = .ok none ∧ isSupportedBoolean parsed = true ∧
        validateRungs db timers program fuel (index + 1) = .ok ())) := by
  unfold validateRungs at h
  simp only [hrung] at h
  cases hparsed : parseSupportedRung db rung.text with
  | none =>
    rw [hparsed] at h
    cases h
  | some parsed =>
    refine ⟨parsed, rfl, ?_⟩
    rw [hparsed] at h
    cases hsize : groupSize db timers program index with
    | error message =>
      rw [hsize] at h
      cases h
    | ok size =>
      rw [hsize] at h
      cases size with
      | some count => exact .inl ⟨count, rfl, h⟩
      | none =>
        have hloop : (if isSupportedBoolean parsed = true then
            validateRungs db timers program fuel (index + 1) else _) = .ok () := h
        by_cases hsupported : isSupportedBoolean parsed = true
        · rw [if_pos hsupported] at hloop
          exact .inr ⟨rfl, hsupported, hloop⟩
        · rw [if_neg hsupported] at hloop
          cases hloop

theorem validateRungs_reaches
    (h : validateRungs db timers program program.mainRungs.length 0 = .ok ())
    (hreach : Reaches db timers program index) :
    ∃ fuel, program.mainRungs.length ≤ fuel + index ∧
      validateRungs db timers program fuel index = .ok () := by
  have hnext : ∀ {index next : Nat}, index < next →
      (∃ fuel, program.mainRungs.length ≤ fuel + index ∧
        validateRungs db timers program fuel index = .ok ()) →
      (∀ fuel, validateRungs db timers program (fuel + 1) index = .ok () →
        index < program.mainRungs.length → validateRungs db timers program fuel next = .ok ()) →
      ∃ fuel, program.mainRungs.length ≤ fuel + next ∧
        validateRungs db timers program fuel next = .ok () := by
    rintro index next hlt ⟨fuel, hfuel, hok⟩ hstep
    by_cases hend : index < program.mainRungs.length
    · cases fuel with
      | zero => omega
      | succ fuel => exact ⟨fuel, by omega, hstep fuel hok hend⟩
    · -- past the last rung the loop has ended
      exact ⟨0, by omega, rfl⟩
  induction hreach with
  | start => exact ⟨_, Nat.le_refl _, h⟩
  | @group index count _ hsize ih =>
    have hpos := groupSize_pos hsize
    apply hnext (by omega) ih
    intro fuel hok hlt
    obtain ⟨parsed, -, hcase⟩ := validateRungs_step (List.getElem?_eq_getElem hlt) hok
    rcases hcase with ⟨count', hsize', hrest⟩ | ⟨hsize', -⟩
    · rw [hsize] at hsize'
      cases hsize'
      exact hrest
    · rw [hsize] at hsize'
      cases hsize'
  | @single index _ hsize ih =>
    apply hnext (Nat.lt_succ_self index) ih
    intro fuel hok hlt
    obtain ⟨parsed, -, hcase⟩ := validateRungs_step (List.getElem?_eq_getElem hlt) hok
    rcases hcase with ⟨count', hsize', -⟩ | ⟨-, -, hrest⟩
    · rw [hsize] at hsize'
      cases hsize'
    · exact hrest

theorem validateProgram_rungs {controller : Controller}
    (h : validateProgram db controller program timers = .ok ()) :
    validateRungs db timers program program.mainRungs.length 0 = .ok () := by
  unfold validateProgram at h
  split at h
  · cases h
  split at h
  · cases h
  simp only at h
  split at h
  · cases h
  exact h

theorem validateProgram_single {controller : Controller}
    (h : validateProgram db controller program timers = .ok ())
    (hreach : Reaches db timers program index) {rung : LadderRung}
    (hrung : program.mainRungs[index]? = some rung)
    (hsingle : groupSize db timers program index = .ok none) :
    ∃ parsed, parseSupportedRung db rung.text = some parsed ∧ isSupportedBoolean parsed = true := by
  obtain ⟨fuel, hfuel, hok⟩ := validateRungs_reaches (validateProgram_rungs h) hreach
  have hlt := (List.getElem?_eq_some_iff.mp hrung).1
  cases fuel with
  | zero => omega
  | succ fuel =>
    obtain ⟨parsed, hparsed, hcase⟩ := validateRungs_step hrung hok
    rcases hcase with ⟨count, hsize, -⟩ | ⟨-, hsupported, -⟩
    · rw [hsingle] at hsize
      cases hsize
    · exact ⟨parsed, hparsed, hsupported⟩

end

/-! ## The two shapes -/

/-- Closed contacts in series in front of one coil. -/
def SerialShape (rung : ParsedBooleanRung) : Prop :=
  rung.branches = [] ∧ ∀ i ∈ rung.tailConditions, i.opcode = .XIC

/-- Two closed contacts in parallel, with at most one contact behind them. -/
def ParallelShape (rung : ParsedBooleanRung) : Prop :=
  ∃ first second : Text, ∃ tail : Option Instruction,
    rung.branches = [[⟨.XIC, first⟩], [⟨.XIC, second⟩]] ∧ rung.tailConditions = tail.toList ∧
      ∀ i ∈ tail, i.opcode.isContact = true

theorem singleBranch {branch : List Instruction} (hlength : (branch.length == 1) = true)
    (hclosed : branch.all (fun contact => contact.opcode == .XIC) = true) :
    ∃ operand, branch = [⟨.XIC, operand⟩] := by
  obtain ⟨⟨opcode, operand⟩, rfl⟩ := length_eq_one_iff.mp (eq_of_beq hlength)
  have hopcode : opcode = .XIC := eq_of_beq (all_eq_true.mp hclosed _ mem_cons_self)
  rw [hopcode]
  exact ⟨operand, rfl⟩

variable {rung : ParsedBooleanRung}

theorem isSupportedBoolean_shape (h : isSupportedBoolean rung = true) :
    (SerialShape rung ∨ ParallelShape rung) ∧ ∃ coil, rung.outputs = [coil] := by
  unfold isSupportedBoolean at h
  simp only [Bool.and_eq_true, Bool.or_eq_true] at h
  obtain ⟨⟨hshape, hlength⟩, -⟩ := h
  refine ⟨?_, length_eq_one_iff.mp (eq_of_beq hlength)⟩
  rcases hshape with ⟨⟨hnone, -⟩, hclosed⟩ | ⟨⟨htwo, hbranches⟩, htail⟩
  · left
    refine ⟨isEmpty_iff.mp hnone, ?_⟩
    intro i hi
    exact eq_of_beq (all_eq_true.mp hclosed i hi)
  · right
    obtain ⟨left, right, hboth⟩ := length_eq_two.mp (eq_of_beq htwo)
    simp only [hboth, all_cons, all_nil, Bool.and_true, Bool.and_eq_true] at hbranches
    obtain ⟨first, rfl⟩ := singleBranch hbranches.1.1 hbranches.1.2
    obtain ⟨second, rfl⟩ := singleBranch hbranches.2.1 hbranches.2.2
    rcases htail with hnone | ⟨hone, hcontact⟩
    · exact ⟨first, second, none, hboth, isEmpty_iff.mp hnone, by simp⟩
    · obtain ⟨condition, hcondition⟩ := length_eq_one_iff.mp (eq_of_beq hone)
      refine ⟨first, second, some condition, hboth, hcondition, ?_⟩
      intro i hi
      cases hi
      exact all_eq_true.mp hcontact condition (by rw [hcondition]; exact mem_cons_self)

theorem contactConducts_closed {valuation : Text → Bool} {i : Instruction} (h : i.opcode = .XIC) :
    contactConducts valuation i = valuation i.operand := by
  simp [contactConducts, h]

/-- The lowered graph of an admitted rung energises its coil under the branch and
tail contacts. -/
theorem lowerBooleanRung_energises {db : CharacterDatabase} (stableUuid : Text → Text)
    (programName : Text) (index : Nat) (comment : Text) {text : Text}
    (hparsed : parseSupportedRung db (some text) = some rung)
    (hsupported : isSupportedBoolean rung = true) (hpaths : CollisionFree stableUuid
      (contactPaths (rungIdentifier stableUuid programName index) rung)) :
    ∃ graph, lowerBooleanRung stableUuid db programName index text comment = some graph ∧
      ∀ valuation, Energises graph valuation ↔ loweredCondition rung valuation = true := by
  obtain ⟨hshape, coil, hcoil⟩ := isSupportedBoolean_shape hsupported
  unfold lowerBooleanRung
  rw [hparsed, Option.bind_eq_bind, Option.bind_some, hcoil]
  rcases hshape with ⟨hnone, hclosed⟩ | ⟨first, second, tail, hboth, htail, -⟩
  · unfold contactPaths at hpaths
    rw [hnone] at hpaths ⊢
    refine ⟨_, rfl, fun valuation => ?_⟩
    rw [serialRung_energises (by simpa using hpaths), all_map, loweredCondition, hnone]
    simp only [isEmpty_nil, Bool.true_or, Bool.true_and, all_eq_true]
    apply forall₂_congr
    intro i hi
    rw [contactConducts_closed (hclosed i hi), Function.comp_apply]
  · unfold contactPaths at hpaths
    rw [hboth] at hpaths ⊢
    have hhead : rung.tailConditions.head? = tail := by
      rw [htail]
      cases tail <;> rfl
    rw [hhead]
    refine ⟨_, rfl, fun valuation => ?_⟩
    rw [parallelRung_energises stableUuid _ comment first second tail coil.operand valuation hpaths,
      loweredCondition, hboth, htail]
    simp [contactConducts]

/-! ## The condition of an admitted rung -/

theorem isSupportedBoolean_tail (h : isSupportedBoolean rung = true) :
    ∀ i ∈ rung.tailConditions, i.opcode.isContact = true := by
  intro i hi
  rcases (isSupportedBoolean_shape h).1 with ⟨-, hclosed⟩ | ⟨_, _, tail, -, htail, hcontact⟩
  · rw [hclosed i hi]
    rfl
  · rw [htail, Option.mem_toList] at hi
    exact hcontact i hi

/-- The graph of an admitted rung outside the groups energises its coil exactly under
the condition of the rung if and only if the paths cover the contacts in front of the
branches. -/
theorem lowerBooleanRung_refines_iff (db : CharacterDatabase) (stableUuid : Text → Text)
    (controller : Controller) (program : Program) (timers : List (Text × Int))
    (hvalid : validateProgram db controller program timers = .ok ()) (index : Nat)
    (hreach : Reaches db timers program index) (rung : LadderRung)
    (hrung : program.mainRungs[index]? = some rung)
    (hsingle : groupSize db timers program index = .ok none) :
    ∃ parsed, parseSupportedRung db rung.text = some parsed ∧
      ∀ (programName : Text) (position : Nat),
        CollisionFree stableUuid
            (contactPaths (rungIdentifier stableUuid programName position) parsed) →
          ∃ graph, lowerBooleanRung stableUuid db programName position (rung.text.getD [])
              (rung.comment.getD []) = some graph ∧
            ((∀ valuation, Energises graph valuation ↔
                parsed.condition (contactConducts valuation) = true) ↔ PrefixCovered parsed) := by
  obtain ⟨parsed, hparsed, hsupported⟩ := validateProgram_single hvalid hreach hrung hsingle
  refine ⟨parsed, hparsed, fun programName position hpaths => ?_⟩
  cases htext : rung.text with
  | none =>
    rw [htext] at hparsed
    cases hparsed
  | some text =>
    rw [htext] at hparsed
    obtain ⟨graph, hgraph, henergises⟩ :=
      lowerBooleanRung_energises stableUuid programName position (rung.comment.getD []) hparsed hsupported hpaths
    refine ⟨graph, hgraph, ?_⟩
    obtain ⟨sequence, haccepted⟩ := accepted_of hparsed
    rw [← loweredCondition_iff haccepted.prefixContacts haccepted.branchContacts
      (isSupportedBoolean_tail hsupported) haccepted.prefixOfBranches]
    constructor
    · intro hsame valuation
      rw [Bool.eq_iff_iff, ← henergises]
      exact hsame valuation
    · intro hsame valuation
      rw [henergises, hsame]

def singleRung (text : Text) : Program :=
  let routine : Routine := ⟨"Main", [⟨some 0, none, some text, []⟩]⟩
  ⟨"P", [("Main", routine)], [], some routine⟩

/-- A contact in front of two branches that both examine it again. -/
theorem lowerBooleanRung_refines_covered :
    ∃ graph, lowerBooleanRung id Ascii.database "P" 0
        "XIC(A)[XIC(A),XIC(A)]XIO(B)OTE(C);" [] = some graph ∧
      ∀ valuation, Energises graph valuation ↔
        (⟨[⟨.XIC, "A"⟩], [[⟨.XIC, "A"⟩], [⟨.XIC, "A"⟩]], [⟨ Opcode.XIO, "B"⟩], [⟨.OTE, "C"⟩]⟩ :
          ParsedBooleanRung).condition (contactConducts valuation) = true := by
  obtain ⟨parsed, hparsed, hrefines⟩ := lowerBooleanRung_refines_iff Ascii.database id ⟨[], []⟩
    (singleRung "XIC(A)[XIC(A),XIC(A)]XIO(B)OTE(C);") [] (by decide +kernel) 0 .start
    ⟨some 0, none, some ("XIC(A)[XIC(A),XIC(A)]XIO(B)OTE(C);" : Text), []⟩ (by decide +kernel)
    (by decide +kernel)
  have hrung : parseSupportedRung Ascii.database
      (some ("XIC(A)[XIC(A),XIC(A)]XIO(B)OTE(C);" : Text)) =
      some ⟨[⟨.XIC, "A"⟩], [[⟨.XIC, "A"⟩], [⟨.XIC, "A"⟩]], [⟨ Opcode.XIO, "B"⟩], [⟨.OTE, "C"⟩]⟩ := by
    decide +kernel
  cases hrung.symm.trans hparsed
  obtain ⟨graph, hgraph, hsame⟩ := hrefines "P" 0 (fun _ _ _ _ heq => heq)
  refine ⟨graph, hgraph, hsame.mpr ?_⟩
  simp [PrefixCovered]

/-- The contact in front of the branches is lost: the graph energises the coil while
the condition of the admitted rung is false. -/
theorem lowerBooleanRung_prefix_dropped :
    validateProgram Ascii.database ⟨[], []⟩ (singleRung "XIC(P)[XIC(A),XIC(B)]OTE(C);") [] =
        .ok () ∧
      groupSize Ascii.database [] (singleRung "XIC(P)[XIC(A),XIC(B)]OTE(C);") 0 = .ok none ∧
      ∃ parsed graph, parseSupportedRung Ascii.database
          (some ("XIC(P)[XIC(A),XIC(B)]OTE(C);" : Text)) = some parsed ∧
        lowerBooleanRung id Ascii.database "P" 0 "XIC(P)[XIC(A),XIC(B)]OTE(C);" [] =
          some graph ∧
        ∃ valuation, Energises graph valuation ∧
          parsed.condition (contactConducts valuation) = false := by
  refine ⟨by decide +kernel, by decide +kernel, ?_⟩
  let parsed : ParsedBooleanRung :=
    ⟨[⟨.XIC, "P"⟩], [[⟨.XIC, "A"⟩], [⟨.XIC, "B"⟩]], [], [⟨.OTE, "C"⟩]⟩
  have hparsed : parseSupportedRung Ascii.database
      (some ("XIC(P)[XIC(A),XIC(B)]OTE(C);" : Text)) = some parsed := by
    decide +kernel
  obtain ⟨graph, hgraph, henergises⟩ :=
    lowerBooleanRung_energises id "P" 0 [] hparsed (by decide) (fun _ _ _ _ heq => heq)
  let valuation : Text → Bool := fun operand => operand == "A"
  have hlowered : loweredCondition parsed valuation = true := by decide
  have hcondition : parsed.condition (contactConducts valuation) = false := by decide
  exact ⟨parsed, graph, hparsed, hgraph, valuation, (henergises valuation).mpr hlowered, hcondition⟩

end TwinForge.OpenPLC
