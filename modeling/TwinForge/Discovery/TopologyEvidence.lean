import TwinForge.Discovery.Topology
import TwinForge.Foundation.KeyedUpdates

/-! # What corroborates a topology relationship

The relationships of an observed node are those of its neighbour rows, each updated by
the forwarding entries that find it, followed by those of the other entries. A missing
interface counts as an interface of its own when an entry looks for its neighbour.
-/

namespace TwinForge.Discovery

open KeyedUpdates List

instance : Std.TransCmp compareEvidence := by
  unfold compareEvidence
  infer_instance

section

variable (lower : Text → Text) (knownAddresses : Dictionary Text Text)
  (observed : SnmpNodeObservation)

/-! ## The relationships of one node -/

theorem forwardingEvidence_eq {first second : SnmpForwardingEntryObservation}
    (h : compareEvidence (forwardingEvidence observed first)
      (forwardingEvidence observed second) = .eq) :
    forwardingEvidence observed first = forwardingEvidence observed second := by
  simp only [compareEvidence, compareLex, compareOn, Ordering.then_eq_eq] at h
  have hidentifier : (forwardingEvidence observed first).identifier =
      (forwardingEvidence observed second).identifier :=
    Std.LawfulEqCmp.eq_of_compare h.2.2
  simpa [forwardingEvidence] using hidentifier

theorem corroborate_comm (first second : SnmpForwardingEntryObservation)
    (current : TopologyRelationshipCandidate) :
    corroborate observed first (corroborate observed second current) =
      corroborate observed second (corroborate observed first current) := by
  have hsorted : sortedBy compareEvidence (sortedBy compareEvidence
        (current.evidence ++ [forwardingEvidence observed second]) ++
          [forwardingEvidence observed first]) =
      sortedBy compareEvidence (sortedBy compareEvidence
        (current.evidence ++ [forwardingEvidence observed first]) ++
          [forwardingEvidence observed second]) := by
    refine sorted_ext (sortedBy_pairwise _) (sortedBy_pairwise _) fun key => ?_
    simp only [filter_sortedBy, filter_append, append_assoc]
    congr 1
    by_cases hfirst : compareEvidence key (forwardingEvidence observed first) = .eq
    · by_cases hsecond : compareEvidence key (forwardingEvidence observed second) = .eq
      · have hsame : forwardingEvidence observed first = forwardingEvidence observed second :=
          forwardingEvidence_eq observed
            (Std.TransCmp.eq_trans (Std.OrientedCmp.eq_symm hfirst) hsecond)
        rw [hsame]
      · simp [hfirst, hsecond]
    · simp [hfirst]
  simp only [corroborate, hsorted]

def corroborated (neighbours : List SnmpNeighbourObservation)
    (entries : List SnmpForwardingEntryObservation) : List TopologyRelationshipCandidate :=
  updated (neighbourLinkKey lower) (entryLinkKey lower)
    (neighbourRelationship lower knownAddresses observed) (corroborate observed) entries
    neighbours

/-- Some neighbour row is found by a forwarding entry. -/
def Found (neighbours : List SnmpNeighbourObservation)
    (entry : SnmpForwardingEntryObservation) : Prop :=
  ∃ neighbour ∈ neighbours, neighbourLinkKey lower neighbour = entryLinkKey lower entry

instance (neighbours : List SnmpNeighbourObservation) :
    DecidablePred (Found lower neighbours) :=
  fun _ => inferInstanceAs (Decidable (∃ neighbour ∈ neighbours, _ = _))

def nodeRelationships (neighbours : List SnmpNeighbourObservation)
    (entries : List SnmpForwardingEntryObservation) : List TopologyRelationshipCandidate :=
  corroborated lower knownAddresses observed neighbours entries ++
    (entries.filter fun entry => ¬Found lower neighbours entry).map
      (reachability lower observed)

theorem foldl_addNeighbour (neighbours : List SnmpNeighbourObservation)
    (state : Correlation × NeighbourLinks) :
    (neighbours.foldl (addNeighbour lower knownAddresses observed) state).1.relationships =
        state.1.relationships ++
          neighbours.map (neighbourRelationship lower knownAddresses observed) ∧
      ∀ key, (neighbours.foldl (addNeighbour lower knownAddresses observed) state).2.get? key =
        match lastIndex (neighbourLinkKey lower) key neighbours with
        | some index => some (state.1.relationships.length + index)
        | none => state.2.get? key := by
  induction neighbours generalizing state with
  | nil => simp [lastIndex]
  | cons neighbour neighbours ih =>
    obtain ⟨hrelationships, hlinks⟩ :=
      ih (addNeighbour lower knownAddresses observed state neighbour)
    refine ⟨?_, fun key => ?_⟩
    · rw [foldl_cons, hrelationships]
      simp [addNeighbour]
    · rw [foldl_cons, hlinks]
      cases hlast : lastIndex (neighbourLinkKey lower) key neighbours with
      | some index => simp [lastIndex, hlast, addNeighbour, Nat.add_assoc, Nat.add_comm 1]
      | none =>
        by_cases hkey : neighbourLinkKey lower neighbour = key
        · simp [lastIndex, hlast, addNeighbour, hkey]
        · simp [lastIndex, hlast, addNeighbour, hkey, Ne.symm hkey]

theorem foldl_addForwardingEntry {links : NeighbourLinks} {state : Correlation}
    {before : List TopologyRelationshipCandidate} (hlinks : ∀ key, links.get? key =
      (lastIndex (neighbourLinkKey lower) key observed.neighbours).map (before.length + ·))
    (hstate : state.relationships = before ++
      observed.neighbours.map (neighbourRelationship lower knownAddresses observed))
    (entries : List SnmpForwardingEntryObservation) :
    (entries.foldl (addForwardingEntry lower observed links) state).relationships =
      before ++ nodeRelationships lower knownAddresses observed observed.neighbours entries := by
  induction entries using reverseRecOn with
  | nil => simp [nodeRelationships, corroborated, hstate]
  | append_singleton entries entry ih =>
    rw [foldl_append, foldl_cons, foldl_nil, addForwardingEntry, hlinks]
    cases hlast : lastIndex (neighbourLinkKey lower) (entryLinkKey lower entry)
        observed.neighbours with
    | none =>
      have hmissed := (lastIndex_eq_none _).mp hlast
      have hfound : ¬Found lower observed.neighbours entry := by
        simpa [Found] using hmissed
      have hsame : corroborated lower knownAddresses observed observed.neighbours
          (entries ++ [entry]) =
          corroborated lower knownAddresses observed observed.neighbours entries :=
        updated_append_missed _ _ _ _ hmissed
      simp [nodeRelationships, hsame, ih, hfound]
    | some index =>
      have hchanged : corroborated lower knownAddresses observed observed.neighbours
          (entries ++ [entry]) =
          (corroborated lower knownAddresses observed observed.neighbours entries).modify
            index (corroborate observed entry) :=
        updated_append _ _ _ _ hlast
      have hindex : index <
          (corroborated lower knownAddresses observed observed.neighbours entries).length := by
        obtain ⟨front, last, back, hrows, hlength, -⟩ := lastIndex_eq_some _ hlast
        rw [corroborated, length_updated, hrows, length_append, length_cons]
        omega
      have hfound : Found lower observed.neighbours entry := by
        obtain ⟨front, last, back, hrows, -, hkey, -⟩ := lastIndex_eq_some _ hlast
        exact ⟨last, by simp [hrows], hkey⟩
      simp only [Option.map_some, ih, nodeRelationships, hchanged, filter_append]
      rw [modify_middle _ _ _ hindex]
      simp [hfound]

theorem correlateNode_relationships (state : Correlation) :
    (correlateNode lower knownAddresses state observed).relationships =
      state.relationships ++ nodeRelationships lower knownAddresses observed
        observed.neighbours observed.forwardingEntries := by
  obtain ⟨hrelationships, hlinks⟩ := foldl_addNeighbour lower knownAddresses observed
    observed.neighbours ({ state with nodes := mergeNode state.nodes (observationNode observed) },
      {})
  refine foldl_addForwardingEntry lower knownAddresses observed (fun key => ?_) hrelationships _
  rw [hlinks]
  cases lastIndex (neighbourLinkKey lower) key observed.neighbours <;> rfl

end

/-! ## The relationships of a snapshot -/

section

variable (lower : Text → Text)

def foundRelationships (knownAddresses : Dictionary Text Text)
    (nodes : List SnmpNodeObservation) : List TopologyRelationshipCandidate :=
  nodes.flatMap fun observed => nodeRelationships lower knownAddresses observed
    observed.neighbours observed.forwardingEntries

theorem foldl_correlateNode (knownAddresses : Dictionary Text Text)
    (nodes : List SnmpNodeObservation) (state : Correlation) :
    (nodes.foldl (correlateNode lower knownAddresses) state).relationships =
      state.relationships ++ foundRelationships lower knownAddresses nodes := by
  induction nodes generalizing state with
  | nil => simp [foundRelationships]
  | cons observed nodes ih =>
    rw [foldl_cons, ih, correlateNode_relationships, append_assoc]
    rfl

theorem relationships_perm (snapshot : DiscoverySnapshot) :
    (correlateTopology lower snapshot).relationships.Perm
      (foundRelationships lower (knownTargetByAddress snapshot) snapshot.snmpNodes) := by
  refine (sortedBy_perm _ _).trans ?_
  rw [foldl_correlateNode]
  exact List.Perm.refl _

/-- Every corroborated relationship is that of a neighbour row of some observed node, and
an entry of that node carries the row's chassis address on the row's own, known interface. -/
def SoundEvidence (snapshot : DiscoverySnapshot) : Prop :=
  ∀ relationship ∈ (correlateTopology lower snapshot).relationships,
    relationship.confidence = .corroborated →
      ∃ observed ∈ snapshot.snmpNodes, ∃ neighbour ∈ observed.neighbours,
        ∃ entry ∈ observed.forwardingEntries, ∃ interface : Int,
          relationship =
            { neighbourRelationship lower (knownTargetByAddress snapshot) observed neighbour with
              confidence := .corroborated, evidence := relationship.evidence } ∧
          neighbour.localInterfaceIndex = some interface ∧
          entry.interfaceIndex = some interface ∧
          lower entry.macAddress = lower neighbour.remoteChassisId

/-- The same observations, the rows and entries of every node in some order. -/
structure Rearranged (snapshot snapshot' : DiscoverySnapshot) : Prop where
  targets : snapshot'.targets = snapshot.targets
  identities : snapshot'.identities = snapshot.identities
  snmpNodes : List.Forall₂
    (fun observed observed' : SnmpNodeObservation =>
      ∃ neighbours entries, observed.neighbours.Perm neighbours ∧
        observed.forwardingEntries.Perm entries ∧
        observed' = { observed with neighbours, forwardingEntries := entries })
    snapshot.snmpNodes snapshot'.snmpNodes

/-- Rearranged observations give the same relationships. -/
def OrderFree (snapshot : DiscoverySnapshot) : Prop :=
  ∀ snapshot', Rearranged snapshot snapshot' →
    (correlateTopology lower snapshot').relationships.Perm
      (correlateTopology lower snapshot).relationships

/-- No entry finds a neighbour row by a missing interface. -/
def KnownInterfaces (observed : SnmpNodeObservation) : Prop :=
  ∀ neighbour ∈ observed.neighbours, ∀ entry ∈ observed.forwardingEntries,
    neighbour.localInterfaceIndex = none → entry.interfaceIndex = none →
      lower entry.macAddress ≠ lower neighbour.remoteChassisId

/-- Two rows that report the same relationship, where they share their interface. -/
def SameReport (knownAddresses : Dictionary Text Text)
    (first second : SnmpNeighbourObservation) : Prop :=
  first.localPortNumber = second.localPortNumber ∧ first.remotePortId = second.remotePortId ∧
    neighbourTargetKey lower knownAddresses first =
      neighbourTargetKey lower knownAddresses second ∧
    sortedBy compare first.rawOids = sortedBy compare second.rawOids ∧
    (first.rawOids ≠ [] → first.protocol = second.protocol)

/-- Rows of one chassis and interface that an entry finds report the same relationship. -/
def FoundRowsAgree (knownAddresses : Dictionary Text Text) (observed : SnmpNodeObservation) :
    Prop :=
  ∀ first ∈ observed.neighbours, ∀ second ∈ observed.neighbours,
    ∀ entry ∈ observed.forwardingEntries,
      neighbourLinkKey lower first = entryLinkKey lower entry →
      neighbourLinkKey lower second = entryLinkKey lower entry →
        SameReport lower knownAddresses first second

variable {observed : SnmpNodeObservation}

theorem neighbourEvidence_eq_iff {first second : SnmpNeighbourObservation} :
    neighbourEvidence observed first = neighbourEvidence observed second ↔
      sortedBy compare first.rawOids = sortedBy compare second.rawOids ∧
        (first.rawOids ≠ [] → first.protocol = second.protocol) := by
  constructor
  · intro h
    have hoids : sortedBy compare first.rawOids = sortedBy compare second.rawOids := by
      simpa [neighbourEvidence, Function.comp_def] using
        congrArg (List.map TopologyEvidenceReference.identifier) h
    refine ⟨hoids, fun hsome => ?_⟩
    obtain ⟨oid, hoid⟩ := exists_mem_of_ne_nil _ hsome
    have hprotocols := congrArg (List.map TopologyEvidenceReference.protocol) h
    simp only [neighbourEvidence, map_map, Function.comp_def, ← hoids] at hprotocols
    exact map_inj_left.mp hprotocols oid (mem_sortedBy.mpr hoid)
  · intro h
    rw [neighbourEvidence, neighbourEvidence, ← h.1]
    refine map_congr_left fun oid hoid => ?_
    have hprotocol := h.2 (ne_nil_of_mem (mem_sortedBy.mp hoid))
    rw [hprotocol]

variable {knownAddresses : Dictionary Text Text}

theorem neighbourRelationship_eq_iff {first second : SnmpNeighbourObservation}
    (h : first.localInterfaceIndex = second.localInterfaceIndex) :
    neighbourRelationship lower knownAddresses observed first =
        neighbourRelationship lower knownAddresses observed second ↔
      SameReport lower knownAddresses first second := by
  rw [SameReport, ← @neighbourEvidence_eq_iff observed]
  constructor
  · intro hsame
    simp only [neighbourRelationship, TopologyRelationshipCandidate.mk.injEq,
      Option.some.injEq] at hsame
    obtain ⟨-, -, -, htarget, -, hport, hportId, -, hevidence⟩ := hsame
    exact ⟨hport, hportId, htarget, hevidence⟩
  · intro hreport
    obtain ⟨hport, hportId, htarget, hevidence⟩ := hreport
    simp only [neighbourRelationship, h, hport, hportId, htarget, hevidence]

theorem rowsAgree_iff :
    RowsAgree (neighbourLinkKey lower) (entryLinkKey lower)
        (neighbourRelationship lower knownAddresses observed) observed.forwardingEntries
        observed.neighbours ↔
      FoundRowsAgree lower knownAddresses observed := by
  constructor
  · intro h first hfirst second hsecond entry hentry hfound hfound'
    have hsame := h first hfirst second hsecond (hfound.trans hfound'.symm)
      ⟨entry, hentry, hfound.symm⟩
    exact (neighbourRelationship_eq_iff lower
      (congrArg Prod.snd (hfound.trans hfound'.symm))).mp hsame
  · intro h first hfirst second hsecond hkey hupdate
    obtain ⟨entry, hentry, hfound⟩ := hupdate
    exact (neighbourRelationship_eq_iff lower (congrArg Prod.snd hkey)).mpr
      (h first hfirst second hsecond entry hentry hfound.symm (hkey.symm.trans hfound.symm))

/-! ## Soundness -/

variable {entries : List SnmpForwardingEntryObservation}

theorem foldl_corroborate (h : entries ≠ []) (current : TopologyRelationshipCandidate) :
    ∃ evidence, entries.foldl (fun out entry => corroborate observed entry out) current =
      { current with confidence := .corroborated, evidence } := by
  induction entries generalizing current with
  | nil => exact (h rfl).elim
  | cons entry entries ih =>
    by_cases hmore : entries = []
    · subst hmore
      exact ⟨_, rfl⟩
    · obtain ⟨evidence, hfold⟩ := ih hmore (corroborate observed entry current)
      exact ⟨evidence, hfold⟩

theorem corroborated_member {neighbours : List SnmpNeighbourObservation}
    {relationship : TopologyRelationshipCandidate}
    (h : relationship ∈ nodeRelationships lower knownAddresses observed neighbours entries)
    (hconfidence : relationship.confidence = .corroborated) :
    ∃ neighbour ∈ neighbours, ∃ entry ∈ entries,
      neighbourLinkKey lower neighbour = entryLinkKey lower entry ∧
      relationship =
        { neighbourRelationship lower knownAddresses observed neighbour with
          confidence := .corroborated, evidence := relationship.evidence } := by
  rw [nodeRelationships, mem_append] at h
  rcases h with hreported | hreached
  · obtain ⟨neighbour, hneighbour, hplain | hupdated⟩ := mem_updated _ _ _ _ hreported
    · rw [hplain] at hconfidence
      cases hconfidence
    · rcases heq : entries.filter fun entry =>
        entryLinkKey lower entry = neighbourLinkKey lower neighbour with _ | ⟨entry, rest⟩
      · rw [hupdated, updatedRow, heq] at hconfidence
        cases hconfidence
      · have hentry : entry ∈ entries.filter fun entry =>
            entryLinkKey lower entry = neighbourLinkKey lower neighbour := by
          rw [heq]
          exact mem_cons_self
        rw [mem_filter, decide_eq_true_iff] at hentry
        refine ⟨neighbour, hneighbour, entry, hentry.1, hentry.2.symm, ?_⟩
        obtain ⟨evidence, hfold⟩ := @foldl_corroborate observed _
          (cons_ne_nil entry rest)
          (neighbourRelationship lower knownAddresses observed neighbour)
        rw [hupdated, updatedRow, heq, hfold]
  · obtain ⟨entry, -, hentry⟩ := mem_map.mp hreached
    rw [← hentry] at hconfidence
    cases hconfidence

variable {snapshot : DiscoverySnapshot}

theorem soundEvidence_of_known
    (h : ∀ observed ∈ snapshot.snmpNodes, KnownInterfaces lower observed) :
    SoundEvidence lower snapshot := by
  intro relationship hrelationship hconfidence
  have hfound := (relationships_perm lower snapshot).mem_iff.mp hrelationship
  obtain ⟨observed, hobserved, hmember⟩ := mem_flatMap.mp hfound
  obtain ⟨neighbour, hneighbour, entry, hentry, hkey, hreport⟩ :=
    corroborated_member lower hmember hconfidence
  have hchassis : lower neighbour.remoteChassisId = lower entry.macAddress :=
    congrArg Prod.fst hkey
  have hinterface : neighbour.localInterfaceIndex = entry.interfaceIndex :=
    congrArg Prod.snd hkey
  refine ⟨observed, hobserved, neighbour, hneighbour, entry, hentry, ?_⟩
  cases hindex : entry.interfaceIndex with
  | none =>
    exact (h observed hobserved neighbour hneighbour entry hentry (hinterface.trans hindex)
      hindex hchassis.symm).elim
  | some interface => exact ⟨interface, hreport, hinterface.trans hindex, rfl, hchassis.symm⟩

theorem known_of_soundEvidence (h : SoundEvidence lower snapshot)
    (hobserved : observed ∈ snapshot.snmpNodes) : KnownInterfaces lower observed := by
  intro neighbour hneighbour entry hentry hmissing hmissing' hchassis
  have hkey : entryLinkKey lower entry = neighbourLinkKey lower neighbour := by
    rw [entryLinkKey, neighbourLinkKey, hmissing, hmissing', hchassis]
  -- The last row of the key is corroborated on no interface.
  obtain ⟨last, hlast, hsame, hmember⟩ := updatedRow_mem (neighbourLinkKey lower)
    (entryLinkKey lower) (neighbourRelationship lower (knownTargetByAddress snapshot) observed)
    (corroborate observed) observed.forwardingEntries hneighbour
  have hentries : (observed.forwardingEntries.filter fun entry =>
      entryLinkKey lower entry = neighbourLinkKey lower last) ≠ [] :=
    ne_nil_of_mem (mem_filter.mpr ⟨hentry, by simpa [hsame] using hkey⟩)
  obtain ⟨evidence, hfold⟩ := foldl_corroborate hentries
    (neighbourRelationship lower (knownTargetByAddress snapshot) observed last)
  have hnode := mem_append_left ((observed.forwardingEntries.filter fun entry =>
    ¬Found lower observed.neighbours entry).map (reachability lower observed)) hmember
  have hrelationship := (relationships_perm lower snapshot).mem_iff.mpr
    (mem_flatMap.mpr ⟨observed, hobserved, hnode⟩)
  rw [updatedRow, hfold] at hrelationship
  obtain ⟨_, -, other, -, _, -, interface, hreport, hknown, -⟩ := h _ hrelationship rfl
  have hsource := congrArg TopologyRelationshipCandidate.sourceInterfaceIndex hreport
  have hnone : last.localInterfaceIndex = none := (congrArg Prod.snd hsame).trans hmissing
  simp [neighbourRelationship, hnone, hknown] at hsource

/-! ## Order -/

theorem nodeRelationships_perm {neighbours : List SnmpNeighbourObservation}
    (h : FoundRowsAgree lower knownAddresses observed)
    (hneighbours : observed.neighbours.Perm neighbours)
    (hentries : observed.forwardingEntries.Perm entries) :
    (nodeRelationships lower knownAddresses observed observed.neighbours
        observed.forwardingEntries).Perm
      (nodeRelationships lower knownAddresses observed neighbours entries) := by
  have hfound : ∀ entry, Found lower observed.neighbours entry ↔ Found lower neighbours entry :=
    fun entry => exists_congr fun neighbour => and_congr_left' hneighbours.mem_iff
  refine List.Perm.append ?_ ?_
  · rw [corroborated, corroborated,
      updated_perm_updates _ _ _ _ (corroborate_comm observed) hentries]
    refine updated_perm_rows _ _ _ _ hneighbours fun first hfirst second hsecond hkey hupdate => ?_
    refine (rowsAgree_iff lower).mpr h first hfirst second hsecond hkey ?_
    exact hupdate.imp fun entry hentry => ⟨hentries.mem_iff.mpr hentry.1, hentry.2⟩
  · simp only [hfound]
    exact (hentries.filter _).map _

theorem orderFree_of_agree (h : ∀ observed ∈ snapshot.snmpNodes,
      FoundRowsAgree lower (knownTargetByAddress snapshot) observed) :
    OrderFree lower snapshot := by
  intro snapshot' hrearranged
  have hknown : knownTargetByAddress snapshot' = knownTargetByAddress snapshot := by
    rw [knownTargetByAddress, knownTargetByAddress, hrearranged.targets]
  refine (relationships_perm lower snapshot').trans
    (List.Perm.trans ?_ (relationships_perm lower snapshot).symm)
  rw [hknown]
  generalize knownTargetByAddress snapshot = knownAddresses at h
  have hnodes := hrearranged.snmpNodes
  generalize snapshot.snmpNodes = nodes at h hnodes
  generalize snapshot'.snmpNodes = nodes' at hnodes
  induction hnodes with
  | nil => exact List.Perm.refl _
  | cons hnode hrest ih =>
    rw [forall_mem_cons] at h
    obtain ⟨neighbours, entries, hneighbours, hentries, rfl⟩ := hnode
    exact List.Perm.append (nodeRelationships_perm lower h.1 hneighbours hentries).symm
      (ih h.2)

theorem agree_of_orderFree (h : OrderFree lower snapshot)
    (hobserved : observed ∈ snapshot.snmpNodes) :
    FoundRowsAgree lower (knownTargetByAddress snapshot) observed := by
  rw [← rowsAgree_iff lower]
  obtain ⟨before, after, hnodes⟩ := append_of_mem hobserved
  -- The rows of this node alone are put in some order.
  have hreorder : ∀ neighbours, observed.neighbours.Perm neighbours →
      (correlateTopology lower snapshot).relationships.Perm
        (foundRelationships lower (knownTargetByAddress snapshot) before ++
          (nodeRelationships lower (knownTargetByAddress snapshot) observed neighbours
              observed.forwardingEntries ++
            foundRelationships lower (knownTargetByAddress snapshot) after)) := by
    intro neighbours hneighbours
    have hsame : ∀ node : SnmpNodeObservation, ∃ rows entries, node.neighbours.Perm rows ∧
        node.forwardingEntries.Perm entries ∧
        node = { node with neighbours := rows, forwardingEntries := entries } :=
      fun node => ⟨_, _, List.Perm.refl _, List.Perm.refl _, rfl⟩
    have hrearranged : Rearranged snapshot
        { snapshot with snmpNodes := before ++ { observed with neighbours } :: after } := by
      refine ⟨rfl, rfl, ?_⟩
      rw [hnodes]
      refine rel_append (forall₂_same.mpr fun node _ => hsame node)
        (List.Forall₂.cons ?_ (forall₂_same.mpr fun node _ => hsame node))
      exact ⟨neighbours, _, hneighbours, List.Perm.refl _, rfl⟩
    refine (h _ hrearranged).symm.trans ((relationships_perm lower _).trans ?_)
    rw [foundRelationships, flatMap_append, flatMap_cons]
    exact List.Perm.refl _
  refine rowsAgree_of_perm _ _ _ (corroborate observed) ?_ fun neighbours neighbours' hperm
    hperm' => ?_
  · intro entry out neighbour hsame
    have hconfidence := congrArg TopologyRelationshipCandidate.confidence hsame
    cases hconfidence
  · have hboth := (hreorder neighbours hperm).symm.trans (hreorder neighbours' hperm')
    rw [perm_append_left_iff, perm_append_right_iff] at hboth
    have hfound : ∀ entry, Found lower neighbours entry ↔ Found lower neighbours' entry :=
      fun entry => exists_congr fun neighbour =>
        and_congr_left' (hperm.symm.trans hperm').mem_iff
    simp only [nodeRelationships, hfound, perm_append_right_iff] at hboth
    exact hboth

/-- Correlation is sound and does not depend on the order of rows and entries exactly when
no entry finds a row by a missing interface and the rows that an entry finds agree. -/
theorem topology_evidence (snapshot : DiscoverySnapshot) :
    SoundEvidence lower snapshot ∧ OrderFree lower snapshot ↔
      ∀ observed ∈ snapshot.snmpNodes, KnownInterfaces lower observed ∧
        FoundRowsAgree lower (knownTargetByAddress snapshot) observed := by
  constructor
  · rintro ⟨hsound, hfree⟩ observed hobserved
    exact ⟨known_of_soundEvidence lower hsound hobserved,
      agree_of_orderFree lower hfree hobserved⟩
  · intro h
    exact ⟨soundEvidence_of_known lower fun observed hobserved => (h observed hobserved).1,
      orderFree_of_agree lower fun observed hobserved => (h observed hobserved).2⟩

/-- Two ports of one switch, and what its chassis address was learned from, all of them
without an interface. -/
def unresolvedSwitch : SnmpNodeObservation where
  target := { address := "10.0.0.1" }
  neighbours :=
    [{ protocol := "lldp", localPortNumber := 1, remoteChassisId := "0a:0b", remotePortId := "p1",
       rawOids := ["1.1"] },
     { protocol := "lldp", localPortNumber := 2, remoteChassisId := "0A:0B", remotePortId := "p2",
       rawOids := ["1.2"] }]
  forwardingEntries := [{ macAddress := "0A:0b", bridgePort := 7, rawOids := ["2.1"] }]

/-- A switch without interfaces is corroborated, and which of its ports is depends on the
order of the rows. -/
theorem unresolved_corroborated :
    ¬SoundEvidence (List.map Char.toLower)
        { targets := [], snmpNodes := [unresolvedSwitch] } ∧
      ∃ relationship ∈ (correlateTopology (List.map Char.toLower)
          { targets := [], snmpNodes := [unresolvedSwitch] }).relationships,
        relationship ∉ (correlateTopology (List.map Char.toLower)
          { targets := []
            snmpNodes := [{ unresolvedSwitch with
              neighbours := unresolvedSwitch.neighbours.reverse }] }).relationships := by
  constructor
  · intro hsound
    have hknown := known_of_soundEvidence _ hsound (mem_singleton_self _)
    exact absurd rfl (hknown _ mem_cons_self _ mem_cons_self rfl rfl)
  · decide +kernel

end

end TwinForge.Discovery
