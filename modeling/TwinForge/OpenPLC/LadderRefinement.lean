import Mathlib.Data.List.Nodup
import TwinForge.OpenPLC.NativeLadder
import TwinForge.Plcopen.RllPreservation

/-! # What an admitted rung energises

The graph of an admitted rung energises its coil under the branch and tail contacts
of the parsed rung. The contacts in front of the branches are not lowered, so the
graph keeps the condition of the rung exactly when the paths imply them.
-/

namespace TwinForge.OpenPLC

open Model Plcopen List

/-! ## Conditions made of contacts -/

/-- What a contact reads: XIO the negation of its operand. -/
def contactConducts (valuation : Text → Bool) (instruction : Instruction) : Bool :=
  if instruction.opcode = Opcode.XIO then !valuation instruction.operand
  else valuation instruction.operand

/-- One operand is examined both closed and open. -/
def Contradictory (path : List Instruction) : Prop :=
  ∃ operand, ⟨.XIC, operand⟩ ∈ path ∧ ⟨ Opcode.XIO, operand⟩ ∈ path

/-- Every contact in front of the branches occurs again on each path behind them
that can conduct at all. -/
def PrefixCovered (rung : ParsedBooleanRung) : Prop :=
  ∀ contact ∈ rung.prefixConditions, ∀ branch ∈ rung.branches,
    contact ∈ branch ++ rung.tailConditions ∨ Contradictory (branch ++ rung.tailConditions)

/-- The condition of a rung without the contacts in front of its branches. -/
def loweredCondition (rung : ParsedBooleanRung) (valuation : Text → Bool) : Bool :=
  (rung.branches.isEmpty ||
    rung.branches.any (fun branch => branch.all (contactConducts valuation))) &&
  rung.tailConditions.all (contactConducts valuation)

theorem contact_cases {instruction : Instruction} (h : instruction.opcode.isContact = true) :
    instruction = ⟨.XIC, instruction.operand⟩ ∨ instruction = ⟨ Opcode.XIO, instruction.operand⟩ := by
  obtain ⟨opcode, operand⟩ := instruction
  cases opcode <;> first | exact .inl rfl | exact .inr rfl | cases h

/-- A path of contacts implies a contact only by containing it or by never
conducting. -/
theorem contacts_imply_iff {path : List Instruction} {contact : Instruction}
    (hpath : ∀ i ∈ path, i.opcode.isContact = true) (hcontact : contact.opcode.isContact = true) :
    (∀ valuation, path.all (contactConducts valuation) = true →
      contactConducts valuation contact = true) ↔ contact ∈ path ∨ Contradictory path := by
  constructor
  · intro himplies
    by_cases hmem : contact ∈ path
    · exact .inl hmem
    by_cases hno : Contradictory path
    · exact .inr hno
    -- conducts every contact of the path and blocks the other one
    let valuation : Text → Bool := fun operand =>
      decide ((⟨.XIC, operand⟩ : Instruction) ∈ path) ||
        (decide ((⟨ Opcode.XIO, operand⟩ : Instruction) ∉ path) && contact.opcode == Opcode.XIO)
    have hall : path.all (contactConducts valuation) = true := by
      rw [all_eq_true]
      intro i hi
      rcases contact_cases (hpath i hi) with heq | heq
      · rw [heq] at hi ⊢
        simp [contactConducts, valuation, hi]
      · rw [heq] at hi ⊢
        have hclosed : (⟨.XIC, i.operand⟩ : Instruction) ∉ path := fun h => hno ⟨_, h, hi⟩
        simp [contactConducts, valuation, hi, hclosed]
    have hblocked := himplies valuation hall
    rcases contact_cases hcontact with heq | heq
    · rw [heq] at hmem hblocked
      have hopcode : contact.opcode = .XIC := by rw [heq]
      simp [contactConducts, valuation, hmem, hopcode] at hblocked
    · rw [heq] at hmem hblocked
      have hopcode : contact.opcode = Opcode.XIO := by rw [heq]
      simp [contactConducts, valuation, hmem, hopcode] at hblocked
  · rintro (hmem | ⟨operand, hclosed, hopen⟩) valuation hall
    · exact all_eq_true.mp hall contact hmem
    · have hone := all_eq_true.mp hall _ hclosed
      have htwo := all_eq_true.mp hall _ hopen
      simp [contactConducts] at hone htwo
      rw [hone] at htwo
      cases htwo

theorem loweredCondition_iff {rung : ParsedBooleanRung}
    (hleading : ∀ i ∈ rung.prefixConditions, i.opcode.isContact = true)
    (hbranches : ∀ branch ∈ rung.branches, ∀ i ∈ branch, i.opcode.isContact = true)
    (htail : ∀ i ∈ rung.tailConditions, i.opcode.isContact = true)
    (hempty : rung.branches = [] → rung.prefixConditions = []) :
    (∀ valuation, loweredCondition rung valuation =
      rung.condition (contactConducts valuation)) ↔ PrefixCovered rung := by
  have hpath : ∀ branch ∈ rung.branches, ∀ i ∈ branch ++ rung.tailConditions,
      i.opcode.isContact = true := by
    intro branch hbranch i hi
    rcases mem_append.mp hi with hi | hi
    · exact hbranches branch hbranch i hi
    · exact htail i hi
  constructor
  · intro hsame contact hcontact branch hbranch
    apply (contacts_imply_iff (hpath branch hbranch) (hleading contact hcontact)).mp
    intro valuation hall
    rw [all_append, Bool.and_eq_true] at hall
    have hlowered : loweredCondition rung valuation = true := by
      have hany : rung.branches.any (fun branch => branch.all (contactConducts valuation)) = true :=
        any_eq_true.mpr ⟨branch, hbranch, hall.1⟩
      simp only [loweredCondition, hany, hall.2, Bool.or_true, Bool.and_true]
    rw [hsame, ParsedBooleanRung.condition, Bool.and_eq_true, Bool.and_eq_true] at hlowered
    exact all_eq_true.mp hlowered.1.1 contact hcontact
  · intro hcovered valuation
    unfold loweredCondition ParsedBooleanRung.condition
    by_cases hnil : rung.branches = []
    · simp [hnil, hempty hnil]
    · rw [Bool.eq_iff_iff]
      simp only [Bool.and_eq_true]
      constructor
      · rintro ⟨hpaths, htails⟩
        refine ⟨⟨?_, hpaths⟩, htails⟩
        rw [all_eq_true]
        intro contact hcontact
        have hsome : rung.branches.isEmpty = false := by simpa using hnil
        rw [hsome, Bool.false_or, any_eq_true] at hpaths
        obtain ⟨branch, hbranch, hall⟩ := hpaths
        have himplies := (contacts_imply_iff (hpath branch hbranch) (hleading contact hcontact)).mpr
          (hcovered contact hcontact branch hbranch)
        exact himplies valuation (by rw [all_append, hall, htails, Bool.and_self])
      · rintro ⟨⟨-, hpaths⟩, htails⟩
        exact ⟨hpaths, htails⟩

/-! ## Graphs in series -/

/-- Nodes with different identifiers, each joined to the next one, behind the only
left rail. -/
structure Series (graph : RungGraph) : Prop where
  nodup : (graph.nodes.map (·.id)).Nodup
  rail : ∀ k node, graph.nodes[k]? = some node → (node.type = .powerRail true ↔ k = 0)
  edges : ∀ source target, (∃ wire ∈ graph.edges, wire.source = source ∧ wire.target = target) ↔
    ∃ k : Nat, (graph.nodes.map (·.id))[k]? = some source ∧
      (graph.nodes.map (·.id))[k + 1]? = some target

variable {i : Nat}

theorem nodes_index {nodes : List Node} (h : (nodes.map (·.id)).Nodup) {j : Nat} {n m : Node}
    (hi : nodes[i]? = some n) (hj : nodes[j]? = some m) (hid : n.id = m.id) : i = j := by
  have hlt : i < (nodes.map (·.id)).length := by
    simpa using (List.getElem?_eq_some_iff.mp hi).1
  apply (List.getElem?_inj hlt h).mp
  rw [List.getElem?_map, List.getElem?_map, hi, hj]
  exact congrArg some hid

theorem Series.powered_iff {graph : RungGraph} (h : Series graph) (valuation : Text → Bool)
    {node : Node} (hi : graph.nodes[i]? = some node) :
    Powered graph valuation node.id ↔
      ∀ j m, j < i → graph.nodes[j]? = some m → m.conducts valuation = true := by
  constructor
  · intro hpowered
    let reached : Text → Prop := fun identifier => ∀ (k : Nat) (n : Node),
      graph.nodes[k]? = some n → n.id = identifier →
      ∀ (j : Nat) (m : Node), j < k → graph.nodes[j]? = some m → m.conducts valuation = true
    suffices hall : reached node.id from hall i node hi rfl
    refine powered_induction (P := reached) ?_ ?_ hpowered
    · intro left hleft htype k n hn hid j m hj hm
      obtain ⟨l, hl⟩ := List.getElem?_of_mem hleft
      have hzero := (h.rail l left hl).mp htype
      have hkl := nodes_index h.nodup hn hl hid
      omega
    · intro wire hwire last hlast hid hconducts hsource k n hn hnid j m hj hm
      obtain ⟨l, hls, hlt⟩ := (h.edges _ _).mp ⟨wire, hwire, rfl, rfl⟩
      rw [List.getElem?_map, Option.map_eq_some_iff] at hls hlt
      obtain ⟨source, hsource', hsid⟩ := hls
      obtain ⟨target, htarget', htid⟩ := hlt
      have hkl := nodes_index h.nodup hn htarget' (hnid.trans htid.symm)
      by_cases hjl : j = l
      · obtain ⟨q, hq⟩ := List.getElem?_of_mem hlast
        have hql := nodes_index h.nodup hq hsource' (hid.trans hsid.symm)
        rw [hjl, ← hql, hq] at hm
        cases hm
        exact hconducts
      · exact hsource l source hsource' hsid j m (by omega) hm
  · intro hall
    induction i generalizing node with
    | zero => exact .rail (mem_of_getElem? hi) ((h.rail 0 node hi).mpr rfl)
    | succ i ih =>
      obtain ⟨previous, hprevious⟩ : ∃ previous, graph.nodes[i]? = some previous := by
        have hlt := (List.getElem?_eq_some_iff.mp hi).1
        exact ⟨_, List.getElem?_eq_getElem (by omega)⟩
      obtain ⟨wire, hwire, hsource, htarget⟩ := (h.edges previous.id node.id).mpr
        ⟨i, by rw [List.getElem?_map, hprevious]; rfl, by rw [List.getElem?_map, hi]; rfl⟩
      have hpower := ih hprevious (fun j m hj hm => hall j m (by omega) hm)
      rw [← htarget]
      refine .wire hwire (mem_of_getElem? hprevious) hsource.symm
        (hall i previous (by omega) hprevious) ?_
      rw [hsource]
      exact hpower

/-! ## Identifiers -/

/-- No two paths of a rung share a UUID. -/
def CollisionFree (stableUuid : Text → Text) (paths : List Text) : Prop :=
  ∀ a ∈ paths, ∀ b ∈ paths, stableUuid a = stableUuid b → a = b

def contactPaths (rungId : Text) (rung : ParsedBooleanRung) : List Text :=
  if rung.branches.isEmpty then
    (List.range rung.tailConditions.length).map (serialContactPath rungId)
  else [branchContactPath rungId 0, branchContactPath rungId 1, tailContactPath rungId]

theorem ne_of_take {p q u v : Text} (n : Nat) (hp : n ≤ p.length) (hq : n ≤ q.length)
    (h : p.take n ≠ q.take n) : p ++ u ≠ q ++ v := by
  intro heq
  apply h
  have := congrArg (List.take n) heq
  rwa [take_append_of_le_length hp, take_append_of_le_length hq] at this

variable {stableUuid : Text → Text} {rungId : Text}

theorem serialContactPath_injective {j : Nat}
    (h : serialContactPath rungId i = serialContactPath rungId j) : i = j :=
  decimal_injective (append_cancel_left h)

theorem fixed_nodup (stableUuid : Text → Text) (rungId : Text) :
    [leftRailIdentifier rungId, rightRailIdentifier rungId, coilIdentifier stableUuid rungId,
      openIdentifier stableUuid rungId, closeIdentifier stableUuid rungId].Nodup := by
  have h₁ : leftRailIdentifier rungId ≠ rightRailIdentifier rungId :=
    ne_of_take 1 (by decide) (by decide) (by decide)
  have h₂ : leftRailIdentifier rungId ≠ coilIdentifier stableUuid rungId :=
    ne_of_take 1 (by decide) (by decide) (by decide)
  have h₃ : leftRailIdentifier rungId ≠ openIdentifier stableUuid rungId :=
    ne_of_take 1 (by decide) (by decide) (by decide)
  have h₄ : leftRailIdentifier rungId ≠ closeIdentifier stableUuid rungId :=
    ne_of_take 1 (by decide) (by decide) (by decide)
  have h₅ : rightRailIdentifier rungId ≠ coilIdentifier stableUuid rungId :=
    ne_of_take 1 (by decide) (by decide) (by decide)
  have h₆ : rightRailIdentifier rungId ≠ openIdentifier stableUuid rungId :=
    ne_of_take 1 (by decide) (by decide) (by decide)
  have h₇ : rightRailIdentifier rungId ≠ closeIdentifier stableUuid rungId :=
    ne_of_take 1 (by decide) (by decide) (by decide)
  have h₈ : coilIdentifier stableUuid rungId ≠ openIdentifier stableUuid rungId :=
    ne_of_take 1 (by decide) (by decide) (by decide)
  have h₉ : coilIdentifier stableUuid rungId ≠ closeIdentifier stableUuid rungId :=
    ne_of_take 1 (by decide) (by decide) (by decide)
  have h₁₀ : openIdentifier stableUuid rungId ≠ closeIdentifier stableUuid rungId :=
    ne_of_take 10 (by decide) (by decide) (by decide)
  simp [h₁, h₂, h₃, h₄, h₅, h₆, h₇, h₈, h₉, h₁₀]

theorem contact_not_fixed (stableUuid : Text → Text) (rungId path : Text) :
    contactIdentifier stableUuid path ∉
      [leftRailIdentifier rungId, rightRailIdentifier rungId, coilIdentifier stableUuid rungId,
        openIdentifier stableUuid rungId, closeIdentifier stableUuid rungId] := by
  have h₁ : contactIdentifier stableUuid path ≠ leftRailIdentifier rungId :=
    ne_of_take 3 (by decide) (by decide) (by decide)
  have h₂ : contactIdentifier stableUuid path ≠ rightRailIdentifier rungId :=
    ne_of_take 3 (by decide) (by decide) (by decide)
  have h₃ : contactIdentifier stableUuid path ≠ coilIdentifier stableUuid rungId :=
    ne_of_take 3 (by decide) (by decide) (by decide)
  have h₄ : contactIdentifier stableUuid path ≠ openIdentifier stableUuid rungId :=
    ne_of_take 3 (by decide) (by decide) (by decide)
  have h₅ : contactIdentifier stableUuid path ≠ closeIdentifier stableUuid rungId :=
    ne_of_take 3 (by decide) (by decide) (by decide)
  simp [h₁, h₂, h₃, h₄, h₅]

/-! ## Serial rungs -/

theorem instructionEdges_iff (ids : List Text) (source target : Text) :
    (∃ wire ∈ instructionEdges ids, wire.source = source ∧ wire.target = target) ↔
      ∃ k : Nat, ids[k]? = some source ∧ ids[k + 1]? = some target := by
  induction ids with
  | nil => simp [instructionEdges]
  | cons first ids ih =>
    cases ids with
    | nil => simp [instructionEdges]
    | cons second ids =>
      constructor
      · rintro ⟨wire, hwire, hsource, htarget⟩
        rcases mem_cons.mp hwire with rfl | hwire
        · exact ⟨0, congrArg some hsource, congrArg some htarget⟩
        · obtain ⟨k, hk⟩ := ih.mp ⟨wire, hwire, hsource, htarget⟩
          exact ⟨k + 1, hk⟩
      · rintro ⟨k, hks, hkt⟩
        cases k with
        | zero =>
          exact ⟨_, mem_cons_self, Option.some.inj hks, Option.some.inj hkt⟩
        | succ k =>
          obtain ⟨wire, hwire, hends⟩ := ih.mpr ⟨k, hks, hkt⟩
          exact ⟨wire, mem_cons_of_mem _ hwire, hends⟩

theorem serialContactNodes_ids (stableUuid : Text → Text) (rungId : Text) (names : List Text) :
    (serialContactNodes stableUuid rungId names).map (·.id) =
      (List.range names.length).map
        (fun i => contactIdentifier stableUuid (serialContactPath rungId i)) := by
  apply ext_getElem?
  intro i
  simp only [serialContactNodes, List.getElem?_map, List.getElem?_mapIdx, instructionNode]
  by_cases hi : i < names.length
  · simp [hi]
  · simp [hi]

theorem serialRung_nodes (stableUuid : Text → Text) (rungId comment : Text) (names : List Text)
    (coilName : Text) :
    (serialRung stableUuid rungId comment names coilName).nodes =
      leftRailNode (leftRailIdentifier rungId) :: (serialContactNodes stableUuid rungId names ++
        [instructionNode (coilIdentifier stableUuid rungId) .coil coilName
          (68 + names.length * 114) 28,
         rightRailNode (rightRailIdentifier rungId) (68 + names.length * 114 + 138)]) := rfl

theorem serialRung_identifiers (stableUuid : Text → Text) (rungId comment : Text)
    (names : List Text) (coilName : Text) :
    (serialRung stableUuid rungId comment names coilName).nodes.map (·.id) =
      leftRailIdentifier rungId ::
        ((List.range names.length).map
            (fun i => contactIdentifier stableUuid (serialContactPath rungId i)) ++
          [coilIdentifier stableUuid rungId, rightRailIdentifier rungId]) := by
  rw [serialRung_nodes, map_cons, map_append, serialContactNodes_ids]
  rfl

theorem instructionEdges_append (ids : List Text) (a b : Text) :
    instructionEdges (ids ++ [a, b]) =
      instructionEdges (ids ++ [a]) ++ [edge a "output" b "input"] := by
  induction ids with
  | nil => rfl
  | cons first ids ih =>
    cases ids with
    | nil => rfl
    | cons second ids =>
      simp only [cons_append, instructionEdges]
      rw [← cons_append, ih]
      rfl

theorem railEdges_iff (ids : List Text) (left coil right source target : Text) :
    (∃ wire ∈ [edge left "left-rail" ((ids ++ [coil]).headD coil) "input"] ++
        instructionEdges (ids ++ [coil]) ++ [edge coil "output" right "right-rail"],
        wire.source = source ∧ wire.target = target) ↔
      ∃ k : Nat, (left :: (ids ++ [coil, right]))[k]? = some source ∧
        (left :: (ids ++ [coil, right]))[k + 1]? = some target := by
  have hall : instructionEdges (left :: (ids ++ [coil, right])) =
      edge left "output" ((ids ++ [coil]).headD coil) "input" ::
        (instructionEdges (ids ++ [coil]) ++ [edge coil "output" right "input"]) := by
    rw [← instructionEdges_append]
    cases ids with
    | nil => rfl
    | cons first ids => rfl
  rw [← instructionEdges_iff, hall]
  simp only [mem_append, mem_cons, not_mem_nil, or_false, or_and_right, exists_or,
    exists_eq_left, edge, or_assoc]

variable {names : List Text}

theorem serialRung_nodup
    (h : CollisionFree stableUuid ((List.range names.length).map (serialContactPath rungId))) :
    (leftRailIdentifier rungId :: ((List.range names.length).map
        (fun i => contactIdentifier stableUuid (serialContactPath rungId i)) ++
      [coilIdentifier stableUuid rungId, rightRailIdentifier rungId])).Nodup := by
  have hcontacts : ((List.range names.length).map
      (fun i => contactIdentifier stableUuid (serialContactPath rungId i))).Nodup := by
    apply List.Nodup.map_on ?_ nodup_range
    intro i hi j hj hij
    apply serialContactPath_injective
    exact h _ (mem_map_of_mem hi) _ (mem_map_of_mem hj) (append_cancel_left hij)
  have hfixed := fixed_nodup stableUuid rungId
  have hother : ∀ i, contactIdentifier stableUuid (serialContactPath rungId i) ∉ _ :=
    fun i => contact_not_fixed stableUuid rungId (serialContactPath rungId i)
  simp only [nodup_cons, mem_cons, not_mem_nil, or_false, not_or] at hfixed hother
  rw [nodup_cons, nodup_append]
  refine ⟨?_, hcontacts, ?_, ?_⟩
  · simp only [mem_append, mem_map, mem_cons, not_mem_nil, or_false, not_or,
      not_exists, not_and]
    exact ⟨fun i _ => (hother i).1, hfixed.1.2.1, hfixed.1.1⟩
  · simp only [nodup_cons, mem_cons, not_mem_nil, or_false, not_false_eq_true,
      nodup_nil, and_true]
    exact fun heq => hfixed.2.1.1 heq.symm
  · intro a ha b hb
    obtain ⟨i, -, rfl⟩ := mem_map.mp ha
    rcases mem_cons.mp hb with rfl | hb
    · exact (hother i).2.2.1
    · rw [mem_singleton.mp hb]
      exact (hother i).2.1

theorem serialRung_series
    (h : CollisionFree stableUuid ((List.range names.length).map (serialContactPath rungId)))
    (comment coilName : Text) :
    Series (serialRung stableUuid rungId comment names coilName) where
  nodup := by
    rw [serialRung_identifiers]
    exact serialRung_nodup h
  rail := by
    intro k node hk
    cases k with
    | zero =>
      cases Option.some.inj hk
      exact ⟨fun _ => rfl, fun _ => rfl⟩
    | succ k =>
      have hmem : node ∈ serialContactNodes stableUuid rungId names ++
          [instructionNode (coilIdentifier stableUuid rungId) .coil coilName
            (68 + names.length * 114) 28,
           rightRailNode (rightRailIdentifier rungId) (68 + names.length * 114 + 138)] :=
        mem_of_getElem? hk
      have htype : node.type ≠ .powerRail true := by
        rcases mem_append.mp hmem with hnode | hnode
        · obtain ⟨i, hi, rfl⟩ := mem_mapIdx.mp hnode
          simp [instructionNode]
        · rcases mem_cons.mp hnode with rfl | hnode
          · simp [instructionNode]
          · rw [mem_singleton.mp hnode]
            simp [rightRailNode]
      simp [htype]
  edges := by
    intro source target
    rw [serialRung_identifiers, ← railEdges_iff]
    simp only [serialRung, serialContactNodes_ids]

theorem serialContactNodes_get (stableUuid : Text → Text) (rungId : Text) (names : List Text)
    (i : Nat) : (serialContactNodes stableUuid rungId names)[i]? = names[i]?.map (fun name =>
      instructionNode (contactIdentifier stableUuid (serialContactPath rungId i)) .contact name
        (68 + i * 114) 24) :=
  List.getElem?_mapIdx

theorem serialRung_energises
    (h : CollisionFree stableUuid ((List.range names.length).map (serialContactPath rungId)))
    (comment coilName : Text) (valuation : Text → Bool) :
    Energises (serialRung stableUuid rungId comment names coilName) valuation ↔
      names.all valuation = true := by
  have hseries := serialRung_series h comment coilName
  have hcount : (serialContactNodes stableUuid rungId names).length = names.length := by
    simp [serialContactNodes]
  have hnodes := serialRung_nodes stableUuid rungId comment names coilName
  constructor
  · rintro ⟨node, hnode, htype, hpower⟩
    obtain ⟨k, hk⟩ := List.getElem?_of_mem hnode
    -- the coil comes after all the contacts
    have hbehind : names.length < k := by
      by_contra hle
      rw [hnodes] at hk
      cases k with
      | zero =>
        cases Option.some.inj hk
        cases htype
      | succ i =>
        rw [List.getElem?_cons_succ, List.getElem?_append_left (by omega),
          serialContactNodes_get, Option.map_eq_some_iff] at hk
        obtain ⟨name, -, rfl⟩ := hk
        cases htype
    have hconducts := (hseries.powered_iff valuation hk).mp hpower
    rw [all_eq_true]
    intro name hname
    obtain ⟨i, hi⟩ := List.getElem?_of_mem hname
    have hlt := (List.getElem?_eq_some_iff.mp hi).1
    have hget := hconducts (i + 1) _ (by omega) (by
      rw [hnodes, List.getElem?_cons_succ, List.getElem?_append_left (by omega),
        serialContactNodes_get, hi]
      rfl)
    exact hget
  · intro hall
    have hcoil : (serialRung stableUuid rungId comment names coilName).nodes[names.length + 1]? =
        some (instructionNode (coilIdentifier stableUuid rungId) .coil coilName
          (68 + names.length * 114) 28) := by
      simp [hnodes, hcount]
    refine ⟨_, mem_of_getElem? hcoil, rfl, (hseries.powered_iff valuation hcoil).mpr ?_⟩
    intro j m hj hm
    rw [hnodes] at hm
    cases j with
    | zero =>
      cases Option.some.inj hm
      rfl
    | succ i =>
      rw [List.getElem?_cons_succ, List.getElem?_append_left (by omega),
        serialContactNodes_get, Option.map_eq_some_iff] at hm
      obtain ⟨name, hname, rfl⟩ := hm
      exact all_eq_true.mp hall name (mem_of_getElem? hname)

/-! ## Parallel rungs -/

def parallelContactPaths (rungId : Text) : List Text :=
  [branchContactPath rungId 0, branchContactPath rungId 1, tailContactPath rungId]

theorem parallelContactPaths_ne (rungId : Text) :
    branchContactPath rungId 0 ≠ branchContactPath rungId 1 ∧
    branchContactPath rungId 0 ≠ tailContactPath rungId ∧
    branchContactPath rungId 1 ≠ tailContactPath rungId := by
  refine ⟨?_, ?_, ?_⟩
  · intro h
    rw [branchContactPath, branchContactPath, append_assoc, append_assoc,
      append_assoc, append_assoc] at h
    have hsuffix := append_cancel_left h
    revert hsuffix
    decide
  · intro h
    rw [branchContactPath, tailContactPath, append_assoc, append_assoc] at h
    have hsuffix := append_cancel_left h
    revert hsuffix
    decide
  · intro h
    rw [branchContactPath, tailContactPath, append_assoc, append_assoc] at h
    have hsuffix := append_cancel_left h
    revert hsuffix
    decide

def parallelIdentifiers (stableUuid : Text → Text) (rungId : Text) : List Text :=
  [leftRailIdentifier rungId, contactIdentifier stableUuid (tailContactPath rungId),
    openIdentifier stableUuid rungId, contactIdentifier stableUuid (branchContactPath rungId 0),
    contactIdentifier stableUuid (branchContactPath rungId 1), closeIdentifier stableUuid rungId,
    coilIdentifier stableUuid rungId, rightRailIdentifier rungId]

theorem parallelIdentifiers_nodup (h : CollisionFree stableUuid (parallelContactPaths rungId)) :
    (parallelIdentifiers stableUuid rungId).Nodup := by
  have hpaths := parallelContactPaths_ne rungId
  have hcontact : ∀ p ∈ parallelContactPaths rungId, ∀ q ∈ parallelContactPaths rungId, p ≠ q →
      contactIdentifier stableUuid p ≠ contactIdentifier stableUuid q := by
    intro p hp q hq hpq heq
    exact hpq (h p hp q hq (append_cancel_left heq))
  have hzeroOne := hcontact _ (by simp [parallelContactPaths]) _ (by simp [parallelContactPaths])
    hpaths.1
  have hzeroTail := hcontact _ (by simp [parallelContactPaths]) _ (by simp [parallelContactPaths])
    hpaths.2.1
  have honeTail := hcontact _ (by simp [parallelContactPaths]) _ (by simp [parallelContactPaths])
    hpaths.2.2
  have hfixed := fixed_nodup stableUuid rungId
  have hzero := contact_not_fixed stableUuid rungId (branchContactPath rungId 0)
  have hone := contact_not_fixed stableUuid rungId (branchContactPath rungId 1)
  have htail := contact_not_fixed stableUuid rungId (tailContactPath rungId)
  simp only [nodup_cons, mem_cons, not_mem_nil, or_false, not_or]
    at hfixed hzero hone htail
  unfold parallelIdentifiers
  simp only [nodup_cons, mem_cons, not_mem_nil, or_false, not_or]
  grind

theorem tailNode_conducts {condition : Instruction} (identifier : Text) (valuation : Text → Bool) :
    (instructionNode identifier .contact condition.operand 68 24 38
      (if condition.opcode = Opcode.XIO then .negated else .default)).conducts valuation =
      contactConducts valuation condition := by
  by_cases h : condition.opcode = Opcode.XIO
  · simp [instructionNode, Node.conducts, contactConducts, h]
  · simp [instructionNode, Node.conducts, contactConducts, h]

theorem Powered.along {graph : RungGraph} {valuation : Text → Bool} {source target : Text}
    (h : Powered graph valuation source)
    (hwire : ∃ wire ∈ graph.edges, wire.source = source ∧ wire.target = target) (node : Node)
    (hnode : node ∈ graph.nodes) (hid : node.id = source)
    (hconducts : node.conducts valuation = true) : Powered graph valuation target := by
  obtain ⟨wire, hmem, rfl, rfl⟩ := hwire
  exact .wire hmem hnode hid hconducts h

section

variable (stableUuid) (rungId comment first second : Text) (tail : Option Instruction)
  (coilName : Text) (valuation : Text → Bool)

theorem parallelRung_wires (source target : Text) :
    (∃ wire ∈ (parallelRung stableUuid rungId comment first second tail coilName).edges,
        wire.source = source ∧ wire.target = target) ↔
      (leftRailIdentifier rungId = source ∧ (if tail.isSome then
          contactIdentifier stableUuid (tailContactPath rungId)
        else openIdentifier stableUuid rungId) = target) ∨
      (tail.isSome = true ∧ contactIdentifier stableUuid (tailContactPath rungId) = source ∧
        openIdentifier stableUuid rungId = target) ∨
      (openIdentifier stableUuid rungId = source ∧
        contactIdentifier stableUuid (branchContactPath rungId 0) = target) ∨
      (contactIdentifier stableUuid (branchContactPath rungId 0) = source ∧
        closeIdentifier stableUuid rungId = target) ∨
      (openIdentifier stableUuid rungId = source ∧
        contactIdentifier stableUuid (branchContactPath rungId 1) = target) ∨
      (contactIdentifier stableUuid (branchContactPath rungId 1) = source ∧
        closeIdentifier stableUuid rungId = target) ∨
      (closeIdentifier stableUuid rungId = source ∧ coilIdentifier stableUuid rungId = target) ∨
      (coilIdentifier stableUuid rungId = source ∧ rightRailIdentifier rungId = target) := by
  cases tail with
  | none => simp [parallelRung, edge]
  | some condition => simp [parallelRung, edge]

inductive ParallelNode (stableUuid : Text → Text) (rungId first second : Text)
    (tail : Option Instruction) (valuation : Text → Bool) (node : Node) : Prop
  | left : node.id = leftRailIdentifier rungId → node.type = .powerRail true →
      ParallelNode stableUuid rungId first second tail valuation node
  | stop (condition : Instruction) : tail = some condition →
      node.id = contactIdentifier stableUuid (tailContactPath rungId) → node.type = .contact →
      node.conducts valuation = contactConducts valuation condition →
      ParallelNode stableUuid rungId first second tail valuation node
  | openNode : node.id = openIdentifier stableUuid rungId → node.conducts valuation = true →
      (∃ counterpart, node.type = .parallel true counterpart) →
      ParallelNode stableUuid rungId first second tail valuation node
  | first : node.id = contactIdentifier stableUuid (branchContactPath rungId 0) →
      node.type = .contact → node.conducts valuation = valuation first →
      ParallelNode stableUuid rungId first second tail valuation node
  | second : node.id = contactIdentifier stableUuid (branchContactPath rungId 1) →
      node.type = .contact → node.conducts valuation = valuation second →
      ParallelNode stableUuid rungId first second tail valuation node
  | closeNode : node.id = closeIdentifier stableUuid rungId → node.conducts valuation = true →
      (∃ counterpart, node.type = .parallel false counterpart) →
      ParallelNode stableUuid rungId first second tail valuation node
  | coil : node.id = coilIdentifier stableUuid rungId → node.type = .coil →
      ParallelNode stableUuid rungId first second tail valuation node
  | right : node.id = rightRailIdentifier rungId → node.type = .powerRail false →
      ParallelNode stableUuid rungId first second tail valuation node

theorem parallelRung_node {node : Node}
    (hnode : node ∈ (parallelRung stableUuid rungId comment first second tail coilName).nodes) :
    ParallelNode stableUuid rungId first second tail valuation node := by
  simp only [parallelRung, mem_append, mem_cons, not_mem_nil, or_false,
    mem_map, Option.mem_toList] at hnode
  rcases hnode with (rfl | ⟨condition, htail, rfl⟩) | rfl | rfl | rfl | rfl | rfl | rfl
  · exact .left rfl rfl
  · exact .stop condition htail rfl rfl (tailNode_conducts _ valuation)
  · exact .openNode rfl rfl ⟨_, rfl⟩
  · exact .first rfl rfl rfl
  · exact .second rfl rfl rfl
  · exact .closeNode rfl rfl ⟨_, rfl⟩
  · exact .coil rfl rfl
  · exact .right rfl rfl

theorem parallelRung_blocks (h : CollisionFree stableUuid (parallelContactPaths rungId))
    (henergised : Energises (parallelRung stableUuid rungId comment first second tail coilName)
      valuation) :
    (valuation first || valuation second) = true ∧
      tail.toList.all (contactConducts valuation) = true := by
  have hids := parallelIdentifiers_nodup h
  simp only [parallelIdentifiers, nodup_cons, mem_cons, not_mem_nil, or_false,
    not_or] at hids
  obtain ⟨hleft, hstop, hopen, hfirst, hsecond, hclose, -⟩ := hids
  -- what has happened on the way to a node behind the branches, and to one behind the tail
  let behindBranches : Text → Prop := fun identifier =>
    identifier = closeIdentifier stableUuid rungId ∨
    identifier = coilIdentifier stableUuid rungId ∨ identifier = rightRailIdentifier rungId
  let behindTail : Text → Prop := fun identifier =>
    identifier = openIdentifier stableUuid rungId ∨
    identifier = contactIdentifier stableUuid (branchContactPath rungId 0) ∨
    identifier = contactIdentifier stableUuid (branchContactPath rungId 1) ∨
    behindBranches identifier
  let reached : Text → Prop := fun identifier =>
    (behindBranches identifier → (valuation first || valuation second) = true) ∧
    (behindTail identifier → tail.toList.all (contactConducts valuation) = true)
  have hall : ∀ identifier, Powered (parallelRung stableUuid rungId comment first second tail
      coilName) valuation identifier → reached identifier := by
    intro identifier hpower
    refine powered_induction (P := reached) ?_ ?_ hpower
    · intro node hnode hrail
      cases parallelRung_node stableUuid rungId comment first second tail coilName valuation hnode <;>
        simp_all [reached, behindTail, behindBranches]
    · intro wire hwire node hnode hid hconducts hsource
      have hends := (parallelRung_wires stableUuid rungId comment first second tail coilName
        wire.source wire.target).mp ⟨wire, hwire, rfl, rfl⟩
      have hkind := parallelRung_node stableUuid rungId comment first second tail coilName valuation hnode
      simp only [reached, behindTail, behindBranches] at hsource ⊢
      generalize wire.source = source, wire.target = target at hends hid hsource ⊢
      clear hwire hnode hpower
      rcases hends with ⟨rfl, rfl⟩ | ⟨htail, rfl, rfl⟩ | ⟨rfl, rfl⟩ | ⟨rfl, rfl⟩ | ⟨rfl, rfl⟩ |
        ⟨rfl, rfl⟩ | ⟨rfl, rfl⟩ | ⟨rfl, rfl⟩
      · cases tail with
        | none => simp_all
        | some condition => simp_all
      · cases hkind <;> simp_all
      · simp_all
      · cases hkind <;> simp_all
      · simp_all
      · cases hkind <;> simp_all
      · simp_all
      · simp_all
  obtain ⟨node, hnode, htype, hpower⟩ := henergised
  have hreached := hall node.id hpower
  cases parallelRung_node stableUuid rungId comment first second tail coilName valuation hnode with
  | coil hid _ =>
    rw [hid] at hreached
    exact ⟨hreached.1 (.inr (.inl rfl)), hreached.2 (.inr (.inr (.inr (.inr (.inl rfl)))))⟩
  | openNode _ _ htype' | closeNode _ _ htype' =>
    obtain ⟨_, htype'⟩ := htype'
    cases htype.symm.trans htype'
  | left _ htype' | stop _ _ _ htype' | first _ htype' | second _ htype' | right _ htype' =>
    cases htype.symm.trans htype'

theorem parallelRung_open (htail : tail.toList.all (contactConducts valuation) = true) :
    Powered (parallelRung stableUuid rungId comment first second tail coilName) valuation
      (openIdentifier stableUuid rungId) := by
  have hwires := fun source target =>
    (parallelRung_wires stableUuid rungId comment first second tail coilName source target).mpr
  have hmem : leftRailNode (leftRailIdentifier rungId) ∈
      (parallelRung stableUuid rungId comment first second tail coilName).nodes := by
    simp [parallelRung]
  have hleft : Powered (parallelRung stableUuid rungId comment first second tail coilName)
      valuation (leftRailNode (leftRailIdentifier rungId)).id := .rail hmem rfl
  have hrail := hwires (leftRailIdentifier rungId) _ (.inl ⟨rfl, rfl⟩)
  have hnext := hleft.along hrail (leftRailNode (leftRailIdentifier rungId)) hmem rfl rfl
  cases tail with
  | none => exact hnext
  | some condition =>
    have hcondition : contactConducts valuation condition = true := by simpa using htail
    refine hnext.along (hwires _ _ (.inr (.inl ⟨rfl, rfl, rfl⟩)))
      (instructionNode (contactIdentifier stableUuid (tailContactPath rungId)) .contact
        condition.operand 68 24 38 (if condition.opcode = Opcode.XIO then .negated else .default))
      (by simp [parallelRung]) rfl ?_
    rw [tailNode_conducts]
    exact hcondition

/-- A parallel rung energises its coil when the contact behind the branches and one
of the branches conduct. -/
theorem parallelRung_energises (h : CollisionFree stableUuid (parallelContactPaths rungId)) :
    Energises (parallelRung stableUuid rungId comment first second tail coilName) valuation ↔
      (valuation first || valuation second) = true ∧
        tail.toList.all (contactConducts valuation) = true := by
  refine ⟨parallelRung_blocks stableUuid rungId comment first second tail coilName valuation h, ?_⟩
  rintro ⟨hbranches, htails⟩
  have hwires := fun source target =>
    (parallelRung_wires stableUuid rungId comment first second tail coilName source target).mpr
  have hopen := parallelRung_open stableUuid rungId comment first second tail coilName valuation htails
  have hclose : Powered (parallelRung stableUuid rungId comment first second tail coilName)
      valuation (closeIdentifier stableUuid rungId) := by
    rcases (Bool.or_eq_true _ _).mp hbranches with hbranch | hbranch
    · have hcontact := hopen.along (hwires _ _ (.inr (.inr (.inl ⟨rfl, rfl⟩))))
        (parallelNode (openIdentifier stableUuid rungId)
          (closeIdentifier stableUuid rungId) true (23 + if tail.isSome then 114 else 0))
        (by simp [parallelRung]) rfl rfl
      exact hcontact.along (hwires _ _ (.inr (.inr (.inr (.inl ⟨rfl, rfl⟩)))))
        (instructionNode (contactIdentifier stableUuid (branchContactPath rungId 0))
          .contact first (72 + if tail.isSome then 114 else 0) 24)
        (by simp [parallelRung]) rfl hbranch
    · have hcontact := hopen.along (hwires _ _ (.inr (.inr (.inr (.inr (.inl ⟨rfl, rfl⟩))))))
        (parallelNode (openIdentifier stableUuid rungId)
          (closeIdentifier stableUuid rungId) true (23 + if tail.isSome then 114 else 0))
        (by simp [parallelRung]) rfl rfl
      exact hcontact.along
        (hwires _ _ (.inr (.inr (.inr (.inr (.inr (.inl ⟨rfl, rfl⟩)))))))
        (instructionNode (contactIdentifier stableUuid (branchContactPath rungId 1))
          .contact second (72 + if tail.isSome then 114 else 0) 24 130)
        (by simp [parallelRung]) rfl hbranch
  have hcoil := hclose.along
    (hwires _ _ (.inr (.inr (.inr (.inr (.inr (.inr (.inl ⟨rfl, rfl⟩))))))))
    (parallelNode (closeIdentifier stableUuid rungId)
      (openIdentifier stableUuid rungId) false (141 + if tail.isSome then 114 else 0))
    (by simp [parallelRung]) rfl rfl
  exact ⟨instructionNode (coilIdentifier stableUuid rungId) .coil coilName
    (190 + if tail.isSome then 114 else 0) 28, by simp [parallelRung], rfl, hcoil⟩

end

end TwinForge.OpenPLC
