import TwinForge.OpenPLC.BlockNetworks

/-! # Source rungs around one timer or counter

Rungs are executed one after the other over the bits of a scan and the tag of one timer
or counter. What the tag's instructions do, and which member bits it has, is left open.
-/

namespace TwinForge.OpenPLC

open Model Plcopen List

/-- The instructions of a timer or counter tag. -/
structure OwnerSemantics (Owner : Type) where
  name : Text
  members : List (Text × (Owner → Bool))
  execute : Opcode → Bool → Owner → Owner

/-- The memory at a point of a scan. -/
structure SourceScan (Owner : Type) where
  bits : Text → Bool
  owner : Owner

namespace OwnerSemantics

variable {Owner : Type} (semantics : OwnerSemantics Owner)

/-- A member bit of the tag, or any other bit. -/
def read (scan : SourceScan Owner) (operand : Text) : Bool :=
  match semantics.members.find? fun member =>
      decide (memberOperand semantics.name member.1 = operand) with
  | some member => member.2 scan.owner
  | none => scan.bits operand

/-- The tag an output instruction works on: `RES` has one operand, the others several. -/
def ownerName (db : CharacterDatabase) (output : Instruction) : Option Text :=
  if output.opcode = .RES then some output.operand
  else (splitArguments db output.operand).head?

def executeOutput (db : CharacterDatabase) (on : Bool) (scan : SourceScan Owner)
    (output : Instruction) : SourceScan Owner :=
  if output.opcode = .OTE then
    { scan with bits := Function.update scan.bits output.operand on }
  else if ownerName db output = some semantics.name then
    { scan with owner := semantics.execute output.opcode on scan.owner }
  else scan

def executeRung (db : CharacterDatabase) (scan : SourceScan Owner) (rung : ParsedBooleanRung) :
    SourceScan Owner :=
  let on := rung.condition (contactConducts (semantics.read scan))
  rung.outputs.foldl (semantics.executeOutput db on) scan

def executeRungs (db : CharacterDatabase) (rungs : List ParsedBooleanRung)
    (scan : SourceScan Owner) : SourceScan Owner :=
  rungs.foldl (semantics.executeRung db) scan

end OwnerSemantics

def groupRungs (db : CharacterDatabase) (program : Program) (index count : Nat) :
    List ParsedBooleanRung :=
  ((program.mainRungs.drop index).take count).filterMap fun rung =>
    parseSupportedRung db rung.text

/-! ## Rungs with one contact -/

/-- The rung is `XIC(contact)` in front of one output. -/
structure ContactRung (rung : ParsedBooleanRung) (contact : Text) (output : Instruction) :
    Prop where
  tail : rung.tailConditions = [⟨.XIC, contact⟩]
  condition : ∀ conducts, rung.condition conducts = conducts ⟨.XIC, contact⟩
  outputs : rung.outputs = [output]

section

variable {db : CharacterDatabase} {rungs : List LadderRung} {index : Nat}
  {rung : ParsedBooleanRung} {contact : Text}

theorem parseRung_condition (h : parseRung db rungs index = some rung)
    (hbranches : rung.branches = []) (htail : rung.tailConditions = [⟨.XIC, contact⟩])
    (conducts : Instruction → Bool) : rung.condition conducts = conducts ⟨.XIC, contact⟩ := by
  obtain ⟨source, _, hparse⟩ := Option.bind_eq_some_iff.mp h
  have htext : parseSupportedRung db (some (source.text.getD [])) = some rung := hparse
  have ⟨sequence, haccepted⟩ := accepted_of htext
  have hleading := haccepted.prefixOfBranches hbranches
  simp [ParsedBooleanRung.condition, hleading, hbranches, htail]

theorem singleContact_some (h : singleContact rung = some contact) :
    rung.branches = [] ∧ rung.tailConditions = [⟨.XIC, contact⟩] := by
  unfold singleContact at h
  split at h
  · rename_i hbranches htail
    cases h
    exact ⟨hbranches, htail⟩
  · cases h

theorem contactRung_of {output : Instruction} (h : parseRung db rungs index = some rung)
    (hcontact : singleContact rung = some contact) (houtputs : rung.outputs = [output]) :
    ContactRung rung contact output := by
  have ⟨hbranches, htail⟩ := singleContact_some hcontact
  exact ⟨htail, parseRung_condition h hbranches htail, houtputs⟩

theorem matchReset_some {owner : Text} (h : parseRung db rungs index = some rung)
    (hreset : matchReset owner rung = some contact) :
    ContactRung rung contact ⟨.RES, owner⟩ := by
  unfold matchReset at hreset
  obtain ⟨found, hfound, hreset⟩ := Option.bind_eq_some_iff.mp hreset
  split at hreset
  · rename_i houtputs
    cases hreset
    exact contactRung_of h hfound houtputs
  · cases hreset

variable {Owner : Type} {semantics : OwnerSemantics Owner} {output : Instruction}

theorem ContactRung.execute_owner (h : ContactRung rung contact output)
    (hopcode : output.opcode ≠ .OTE)
    (howner : OwnerSemantics.ownerName db output = some semantics.name) (scan : SourceScan Owner) :
    semantics.executeRung db scan rung =
      { scan with
        owner := semantics.execute output.opcode (semantics.read scan contact) scan.owner } := by
  simp [OwnerSemantics.executeRung, h.outputs, h.condition, OwnerSemantics.executeOutput, hopcode,
    howner, contactConducts]

theorem ContactRung.execute_coil {name : Text} (h : ContactRung rung contact ⟨.OTE, name⟩)
    (scan : SourceScan Owner) :
    semantics.executeRung db scan rung =
      { scan with bits := Function.update scan.bits name (semantics.read scan contact) } := by
  simp [OwnerSemantics.executeRung, h.outputs, h.condition, OwnerSemantics.executeOutput,
    contactConducts]

theorem groupRungs_cons {program : Program} {count : Nat}
    (h : parseRung db program.mainRungs index = some rung) :
    groupRungs db program index (count + 1) = rung :: groupRungs db program (index + 1) count := by
  obtain ⟨source, hsource, hparse⟩ := Option.bind_eq_some_iff.mp h
  have hdrop : program.mainRungs.drop index = source :: program.mainRungs.drop (index + 1) := by
    have hlt := (List.getElem?_eq_some_iff.mp hsource).1
    rw [drop_eq_getElem_cons hlt, (List.getElem?_eq_some_iff.mp hsource).2]
  rw [groupRungs, hdrop, take_succ_cons, filterMap_cons]
  simp only [hparse]
  rfl

end

/-! ## Contacts that read inputs -/

section

variable {Owner : Type} (db : CharacterDatabase) (semantics : OwnerSemantics Owner)

/-- Apart from the rung of the output, every contact reads what the scan began with when
its rung is reached. -/
def SteadyContacts (outputName : Text) (rungs : List ParsedBooleanRung) (scan : SourceScan Owner) :
    Prop :=
  ∀ before rung after, rungs = before ++ rung :: after → rung.outputs ≠ [⟨.OTE, outputName⟩] →
    ∀ contact ∈ rung.tailConditions,
      semantics.read (semantics.executeRungs db before scan) contact.operand =
        scan.bits contact.operand

/-- The named contacts are neither member bits of the tag nor the output. -/
def InputContacts (names : List Text) (outputName : Text) : Prop :=
  ∀ name ∈ names, name ≠ outputName ∧
    ∀ member ∈ semantics.members, memberOperand semantics.name member.1 ≠ name

/-- Each rung is a contact and an output; only the output's rung writes it. -/
def ContactRungs (names : List Text) (outputName : Text) (rungs : List ParsedBooleanRung) : Prop :=
  ∀ rung ∈ rungs, ∃ contact output, ContactRung rung contact output ∧
    (contact ∈ names ∨ output = ⟨.OTE, outputName⟩) ∧
    (output.opcode = .OTE → output.operand = outputName)

variable {db} {semantics}

theorem executeRungs_bits {rungs : List ParsedBooleanRung} {name : Text}
    (h : ∀ rung ∈ rungs, ∀ output ∈ rung.outputs, output.opcode = .OTE → output.operand ≠ name)
    (scan : SourceScan Owner) : (semantics.executeRungs db rungs scan).bits name = scan.bits name := by
  have houtputs : ∀ (on : Bool) (outputs : List Instruction) (scan : SourceScan Owner),
      (∀ output ∈ outputs, output.opcode = .OTE → output.operand ≠ name) →
        (outputs.foldl (semantics.executeOutput db on) scan).bits name = scan.bits name := by
    intro on outputs
    induction outputs with
    | nil => exact fun _ _ => rfl
    | cons output outputs ih =>
      intro scan hwrites
      rw [foldl_cons, ih _ fun other hother => hwrites other (mem_cons_of_mem _ hother)]
      unfold OwnerSemantics.executeOutput
      split
      · next hcoil =>
          have hapart := hwrites output mem_cons_self hcoil
          exact Function.update_of_ne (fun hname => hapart hname.symm) _ _
      · split <;> rfl
  induction rungs generalizing scan with
  | nil => rfl
  | cons rung rungs ih =>
    have hrest := ih (fun other hother => h other (mem_cons_of_mem _ hother))
      (semantics.executeRung db scan rung)
    exact hrest.trans (houtputs _ rung.outputs scan (h rung mem_cons_self))

theorem InputContacts.steady {names : List Text} {outputName : Text}
    {rungs : List ParsedBooleanRung} (h : InputContacts semantics names outputName)
    (hrungs : ContactRungs names outputName rungs) (scan : SourceScan Owner) :
    SteadyContacts db semantics outputName rungs scan := by
  intro before rung after hsplit houtput contact hcontact
  have hmem : ∀ other ∈ before ++ [rung], other ∈ rungs := by
    intro other hother
    rw [hsplit, append_cons]
    exact mem_append_left _ hother
  have ⟨name, output, hshape, hname, _⟩ := hrungs rung (hmem rung (by simp))
  rw [hshape.tail, mem_singleton] at hcontact
  rw [hcontact]
  have hinput := h name (hname.resolve_right fun hcoil => houtput (hcoil ▸ hshape.outputs))
  have hbits : (semantics.executeRungs db before scan).bits name = scan.bits name := by
    apply executeRungs_bits
    intro other hother written hwritten hcoil
    have ⟨_, _, hotherShape, _, hotherOutput⟩ := hrungs other (hmem other (by simp [hother]))
    rw [hotherShape.outputs, mem_singleton] at hwritten
    rw [hwritten, hotherOutput (hwritten ▸ hcoil)]
    exact fun hsame => hinput.1 hsame.symm
  have hmembers : semantics.members.find? (fun member =>
      decide (memberOperand semantics.name member.1 = name)) = none := by
    rw [List.find?_eq_none]
    intro member hmember
    rw [decide_eq_true_iff]
    exact hinput.2 member hmember
  rw [OwnerSemantics.read, hmembers]
  exact hbits

end

end TwinForge.OpenPLC
