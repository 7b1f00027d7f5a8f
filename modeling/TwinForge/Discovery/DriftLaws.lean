import Mathlib.Logic.Function.Basic
import TwinForge.Discovery.DriftKeys

/-! # The laws of drift

Two states differ by what is found between them: the findings are the additions, removals and
changes on the domains complete in both, they turn around with the states, and the baseline
with its findings applied is the current state.
-/

namespace TwinForge.Discovery

open Guards List

variable {db : CharacterDatabase}

/-! ## Building a state from complete evidence -/

/-- Evidence that backs the domains it is complete for. -/
structure BackedEvidence (db : CharacterDatabase) extends DriftEvidence db where
  aware : capturedAt.isAware = true
  devices : .hardware ∈ completeDomains ∨ .firmware ∈ completeDomains →
    snapshot.isSome = true ∨ routed.isSome = true
  configuration : .configuration ∈ completeDomains → software ≠ []
  network : .network ∈ completeDomains → topology.isSome = true

/-- What an observation describes. -/
inductive DriftSubject (db : CharacterDatabase) where
  | target (target : DiscoveryTarget)
  | slot (route : CipRouteDeclaration db) (slot : Nat)
  | item (route : CipRouteDeclaration db) (capability : CipSoftwareInventoryCapability)
      (parent : Option Text) (name : Text)
  | relationship (relationship : TopologyRelationshipCandidate)

/-- Two observations describe one object. -/
def SameSubject : DriftSubject db → DriftSubject db → Prop
  | .target first, .target second =>
    first.address = second.address ∧ first.route = second.route
  | .slot route slot, .slot other slot' => SameRoute route other ∧ slot = slot'
  | .item route capability parent name, .item other capability' parent' name' =>
    SameRoute route other ∧ capability = capability' ∧ parent = parent' ∧ name = name'
  | .relationship first, .relationship second =>
    first.relationshipType = second.relationshipType ∧
      first.sourceNodeKey = second.sourceNodeKey ∧
      first.sourcePortNumber = second.sourcePortNumber ∧
      first.targetNodeKey = second.targetNodeKey ∧ first.targetPortId = second.targetPortId
  | _, _ => False

theorem sameSubject_refl (subject : DriftSubject db) : SameSubject subject subject := by
  cases subject <;> simp [SameSubject, SameRoute]

def describedRecords (evidence : DriftEvidence db) : List (DriftSubject db × DriftRecord) :=
  let complete := evidence.completeDomains
  ((evidence.snapshot.getD []).flatMap fun identity =>
      (identityRecords complete identity).map (Prod.mk (.target identity.target))) ++
    ((routedSlots evidence).flatMap fun slot =>
      (slotRecords complete slot.1 slot.2).map (Prod.mk (.slot slot.1 slot.2.slot))) ++
    (if .configuration ∈ complete then
      (softwareItems evidence).map fun item =>
        (.item item.1.route item.2.capability item.2.parent item.2.name, itemRecord item.1 item.2)
    else []) ++
    if .network ∈ complete then
      (relationships evidence).map fun item => (.relationship item, relationshipRecord item)
    else []

theorem described_records (evidence : DriftEvidence db) :
    (describedRecords evidence).map Prod.snd = driftRecords evidence := by
  have hkept : ∀ (subject : DriftSubject db) (records : List DriftRecord),
      (records.map (Prod.mk subject)).map Prod.snd = records := by
    intro subject records
    rw [map_map]
    exact map_id' records
  simp only [describedRecords, driftRecords, map_append, map_flatMap, hkept,
    apply_ite (List.map Prod.snd), map_nil, map_map]
  rfl

/-- A state is built, and observations of one place describe one object. -/
def Separates (evidence : DriftEvidence db) : Prop :=
  (∃ state, buildDiscoveryDriftState evidence = .ok state) ∧
    ∀ first ∈ describedRecords evidence, ∀ second ∈ describedRecords evidence,
      first.2.place = second.2.place → SameSubject first.1 second.1

theorem sortedRecords_perm (evidence : DriftEvidence db) :
    (sortedBy (fun first second => comparePlaces first.place second.place)
      (driftRecords evidence)).Perm (driftRecords evidence) :=
  sortedBy_perm _ _

theorem record_domains {evidence : DriftEvidence db} {record : DriftRecord}
    (h : record ∈ driftRecords evidence) : record.domain ∈ evidence.completeDomains := by
  by_contra hincomplete
  have hkeys := domain_keys evidence record.domain
  simp only [hincomplete, and_false, if_false, append_nil] at hkeys
  have hmember : record.key ∈ domainKeys evidence record.domain :=
    mem_map_of_mem (mem_filter.mpr ⟨h, by simp⟩)
  rw [hkeys] at hmember
  cases hmember

theorem sortedDomains_sorted (domains : List DriftDomain) :
    sortedDomains (sortedDomains domains) = sortedDomains domains :=
  (sortedBy_pairwise domains).insertionSort_eq

theorem build_ok (evidence : BackedEvidence db) :
    (∃ state, buildDiscoveryDriftState evidence.toDriftEvidence = .ok state) ↔
      ((driftRecords evidence.toDriftEvidence).map DriftRecord.place).Nodup := by
  have hdevices : ¬ ((.hardware ∈ evidence.completeDomains ∨ .firmware ∈ evidence.completeDomains) ∧
      evidence.snapshot.isNone = true ∧ evidence.routed.isNone = true) := by
    rintro ⟨hdomain, hsnapshot, hrouted⟩
    rcases evidence.devices hdomain with h | h
    · simp [Option.isNone_iff_eq_none.mp hsnapshot] at h
    · simp [Option.isNone_iff_eq_none.mp hrouted] at h
  have hconfiguration : ¬ (.configuration ∈ evidence.completeDomains ∧ evidence.software = []) :=
    fun h => evidence.configuration h.1 h.2
  have hnetwork : ¬ (.network ∈ evidence.completeDomains ∧ evidence.topology.isNone = true) := by
    rintro ⟨hdomain, hnone⟩
    have hsome := evidence.network hdomain
    simp [Option.isNone_iff_eq_none.mp hnone] at hsome
  have hdomains : (sortedDomains evidence.completeDomains.dedup).Nodup :=
    (sortedBy_perm _ _).nodup_iff.mpr (nodup_dedup _)
  have hperm := sortedRecords_perm evidence.toDriftEvidence
  have hcomplete : ∀ record ∈ sortedBy (fun first second =>
      comparePlaces first.place second.place) (driftRecords evidence.toDriftEvidence),
      record.domain ∈ sortedDomains evidence.completeDomains.dedup := by
    intro record hrecord
    rw [sortedDomains, mem_sortedBy, mem_dedup]
    exact record_domains (hperm.mem_iff.mp hrecord)
  rw [← (hperm.map DriftRecord.place).nodup_iff]
  simp only [buildDiscoveryDriftState, bind_eq_ok, refuse_eq_ok, exists_unit, hdevices,
    hconfiguration, hnetwork, not_false_eq_true, true_and]
  unfold discoveryDriftState
  rw [dif_pos evidence.aware, dif_pos hdomains, dif_pos (sortedDomains_sorted _)]
  constructor
  · rintro ⟨state, hstate⟩
    by_contra hrepeated
    rw [dif_neg hrepeated] at hstate
    cases hstate
  · intro hkeys
    exact ⟨_, by rw [dif_pos hkeys, dif_pos hcomplete]⟩

theorem separates_iff (evidence : BackedEvidence db) :
    Separates evidence.toDriftEvidence ↔ DistinctEvidence evidence.toDriftEvidence := by
  rw [Separates, build_ok, ← places_distinct]
  refine and_iff_left_of_imp fun hnodup => ?_
  rw [← described_records, map_map] at hnodup
  intro first hfirst second hsecond hplace
  have hsame := inj_on_of_nodup_map hnodup hfirst hsecond hplace
  rw [hsame]
  exact sameSubject_refl second.1

/-! ## Comparing two states -/

def DriftFinding.place (finding : DriftFinding) : DriftPlace := (finding.domain, finding.key)

def DiscoveryDriftState.recordAt (state : DiscoveryDriftState) (place : DriftPlace) :
    Option DriftRecord :=
  state.records.find? fun record => record.place = place

theorem recordAt_iff (state : DiscoveryDriftState) (place : DriftPlace) (record : DriftRecord) :
    state.recordAt place = some record ↔ record ∈ state.records ∧ record.place = place := by
  unfold DiscoveryDriftState.recordAt
  constructor
  · intro h
    exact ⟨mem_of_find?_eq_some h, by simpa using List.find?_some h⟩
  · rintro ⟨hmember, hplace⟩
    cases hfound : state.records.find? fun record => record.place = place with
    | none =>
      rw [List.find?_eq_none] at hfound
      exact absurd (decide_eq_true hplace) (hfound record hmember)
    | some found =>
      have hother : found.place = place := by simpa using List.find?_some hfound
      exact congrArg some (inj_on_of_nodup_map state.keys_nodup
        (mem_of_find?_eq_some hfound) hmember (hother.trans hplace.symm))

def comparedAt (baseline current state : DiscoveryDriftState) (place : DriftPlace) :
    Option DriftRecord :=
  if place.1 ∈ comparableDomains baseline current then state.recordAt place else none

variable (baseline current : DiscoveryDriftState)

theorem comparable_iff (domain : DriftDomain) :
    domain ∈ comparableDomains baseline current ↔
      domain ∈ baseline.completeDomains ∧ domain ∈ current.completeDomains := by
  simp [comparableDomains]

theorem comparedAt_comm (baseline current state : DiscoveryDriftState) :
    comparedAt current baseline state = comparedAt baseline current state := by
  funext place
  simp only [comparedAt, comparable_iff, and_comm]

theorem recordsByPlace_get (baseline current state : DiscoveryDriftState) (place : DriftPlace) :
    (recordsByPlace (comparableDomains baseline current) state.records).get? place =
      comparedAt baseline current state place := by
  have hentries := @Dictionary.ofItems_entries _ _ _ _ DriftRecord.place id
    (state.records.filter fun record => record.domain ∈ comparableDomains baseline current)
    (state.keys_nodup.sublist (filter_sublist.map _))
  ext record
  rw [← Dictionary.mem_entries_iff, recordsByPlace, hentries, mem_map, comparedAt]
  constructor
  · rintro ⟨found, hfound, hentry⟩
    cases hentry
    have hkept := mem_filter.mp hfound
    refine (if_pos (of_decide_eq_true hkept.2)).trans ?_
    exact (recordAt_iff state _ _).mpr ⟨hkept.1, rfl⟩
  · intro h
    by_cases hcomparable : place.1 ∈ comparableDomains baseline current
    · rw [if_pos hcomparable] at h
      obtain ⟨hmember, rfl⟩ := (recordAt_iff state _ _).mp h
      exact ⟨record, mem_filter.mpr ⟨hmember, decide_eq_true hcomparable⟩, rfl⟩
    · rw [if_neg hcomparable] at h
      cases h

def comparedPlaces (baseline current : DiscoveryDriftState) : List DriftPlace :=
  let comparable := comparableDomains baseline current
  sortedBy comparePlaces ((recordsByPlace comparable baseline.records).keys ++
    (recordsByPlace comparable current.records).keys).dedup

theorem driftFindings_places :
    driftFindings baseline current = (comparedPlaces baseline current).filterMap fun place =>
      findingAt place (comparedAt baseline current baseline place)
        (comparedAt baseline current current place) := by
  simp only [driftFindings, recordsByPlace_get]
  rfl

theorem mem_comparedPlaces (place : DriftPlace) :
    place ∈ comparedPlaces baseline current ↔
      (comparedAt baseline current baseline place).isSome = true ∨
        (comparedAt baseline current current place).isSome = true := by
  simp only [comparedPlaces, mem_sortedBy, mem_dedup, mem_append,
    Dictionary.mem_keys_iff, recordsByPlace_get, Option.isSome_iff_exists]

theorem comparedPlaces_nodup : (comparedPlaces baseline current).Nodup :=
  (sortedBy_perm _ _).nodup_iff.mpr (nodup_dedup _)

theorem domain_value_injective {first second : DriftDomain} (h : first.value = second.value) :
    first = second := by
  cases first <;> cases second <;> simp [DriftDomain.value, Text.of] at h ⊢

theorem comparePlaces_eq {first second : DriftPlace} (h : comparePlaces first second = .eq) :
    first = second := by
  simp only [comparePlaces, compareLex, compareOn, Ordering.then_eq_eq] at h
  exact Prod.ext (domain_value_injective (Std.LawfulEqCmp.eq_of_compare h.1))
    (Std.LawfulEqCmp.eq_of_compare h.2)

instance : Std.TransCmp comparePlaces :=
  inferInstanceAs (Std.TransCmp (compareLex _ _))

theorem comparedPlaces_comm :
    comparedPlaces current baseline = comparedPlaces baseline current := by
  have hmembers := fun place => mem_comparedPlaces current baseline place
  have hmembers' := fun place => mem_comparedPlaces baseline current place
  simp only [comparedPlaces, mem_sortedBy] at hmembers hmembers'
  refine sortedBy_unique (nodup_dedup _) (nodup_dedup _) ?_ ?_
  · intro place
    rw [hmembers, hmembers', comparedAt_comm baseline current baseline,
      comparedAt_comm baseline current current]
    exact or_comm
  · intro place _ other _ heq
    exact comparePlaces_eq heq

/-! ## What is found -/

/-- What differs between two records of a place. -/
def Differs : DriftChangeType → Option DriftRecord → Option DriftRecord → Prop
  | .added, before, after => before = none ∧ after.isSome = true
  | .removed, before, after => before.isSome = true ∧ after = none
  | .changed, before, after => ∃ old new, before = some old ∧ after = some new ∧
      old.attributes ≠ new.attributes

theorem mem_driftFindings (finding : DriftFinding) :
    finding ∈ driftFindings baseline current ↔
      finding.before = comparedAt baseline current baseline finding.place ∧
      finding.after = comparedAt baseline current current finding.place ∧
      Differs finding.changeType finding.before finding.after := by
  rw [driftFindings_places, mem_filterMap]
  constructor
  · rintro ⟨place, hplace, hfinding⟩
    rw [mem_comparedPlaces] at hplace
    cases hold : comparedAt baseline current baseline place with
    | none =>
      have hnew := hplace.resolve_left (by simp [hold])
      rw [hold] at hfinding
      cases hfinding
      exact ⟨hold.symm, rfl, rfl, hnew⟩
    | some old =>
      cases hnew : comparedAt baseline current current place with
      | none =>
        rw [hold, hnew] at hfinding
        cases hfinding
        exact ⟨hold.symm, hnew.symm, rfl, rfl⟩
      | some new =>
        rw [hold, hnew] at hfinding
        by_cases hchanged : old.attributes ≠ new.attributes
        · simp only [findingAt, if_pos hchanged, Option.some.injEq] at hfinding
          subst hfinding
          exact ⟨hold.symm, hnew.symm, old, new, rfl, rfl, hchanged⟩
        · simp only [findingAt, if_neg hchanged] at hfinding
          cases hfinding
  · rintro ⟨hbefore, hafter, hdiffers⟩
    refine ⟨finding.place, ?_, ?_⟩
    · rw [mem_comparedPlaces, ← hbefore, ← hafter]
      cases hchange : finding.changeType with
      | added =>
        rw [hchange] at hdiffers
        exact .inr hdiffers.2
      | removed =>
        rw [hchange] at hdiffers
        exact .inl hdiffers.1
      | changed =>
        rw [hchange] at hdiffers
        obtain ⟨old, -, hold, -⟩ := hdiffers
        exact .inl (by rw [hold]; rfl)
    · rw [← hbefore, ← hafter]
      obtain ⟨domain, key, change, before, after⟩ := finding
      cases change with
      | added =>
        obtain ⟨hnone, -⟩ := hdiffers
        simp only at hnone
        rw [hnone]
        rfl
      | removed =>
        obtain ⟨hsome, hnone⟩ := hdiffers
        obtain ⟨old, hold⟩ := Option.isSome_iff_exists.mp hsome
        simp only at hold hnone
        rw [hold, hnone]
        rfl
      | changed =>
        obtain ⟨old, new, hold, hnew, hchanged⟩ := hdiffers
        simp only at hold hnew
        rw [hold, hnew]
        exact if_pos hchanged

theorem findingAt_place {place : DriftPlace} {old new : Option DriftRecord}
    {finding : DriftFinding} (h : findingAt place old new = some finding) :
    finding.place = place := by
  cases old with
  | none =>
    cases h
    rfl
  | some old =>
    cases new with
    | none =>
      cases h
      rfl
    | some new =>
      simp only [findingAt] at h
      split at h
      · cases h
        rfl
      · cases h

theorem driftFindings_nodup : ((driftFindings baseline current).map DriftFinding.place).Nodup := by
  rw [driftFindings_places]
  have hplaces := comparedPlaces_nodup baseline current
  generalize comparedPlaces baseline current = places at hplaces
  induction places with
  | nil => exact nodup_nil
  | cons place places ih =>
    have hlater := ih (nodup_cons.mp hplaces).2
    cases hfinding : findingAt place (comparedAt baseline current baseline place)
        (comparedAt baseline current current place) with
    | none => simpa [filterMap_cons, hfinding] using hlater
    | some finding =>
      rw [filterMap_cons, hfinding, map_cons, nodup_cons]
      refine ⟨?_, hlater⟩
      intro hmember
      obtain ⟨other, hother, hsame⟩ := mem_map.mp hmember
      obtain ⟨found, hfound, hother⟩ := mem_filterMap.mp hother
      rw [findingAt_place hother, findingAt_place hfinding] at hsame
      exact (nodup_cons.mp hplaces).1 (hsame ▸ hfound)

/-! ## Turning around and applying -/

def DriftChangeType.reversed : DriftChangeType → DriftChangeType
  | .added => .removed
  | .removed => .added
  | .changed => .changed

def DriftFinding.reversed (finding : DriftFinding) : DriftFinding :=
  { finding with
    changeType := finding.changeType.reversed
    before := finding.after
    after := finding.before }

theorem findingAt_reversed (place : DriftPlace) {old new : Option DriftRecord}
    (h : old.isSome = true ∨ new.isSome = true) :
    findingAt place new old = (findingAt place old new).map DriftFinding.reversed := by
  cases old with
  | none =>
    obtain ⟨record, rfl⟩ := Option.isSome_iff_exists.mp (h.resolve_left (by simp))
    rfl
  | some old =>
    cases new with
    | none => rfl
    | some new =>
      by_cases hchanged : old.attributes ≠ new.attributes
      · simp only [findingAt, if_pos hchanged, if_pos hchanged.symm]
        rfl
      · simp only [findingAt, if_neg hchanged, if_neg fun h => hchanged (Ne.symm h)]
        rfl

theorem driftFindings_reversed :
    driftFindings current baseline =
      (driftFindings baseline current).map DriftFinding.reversed := by
  rw [driftFindings_places, driftFindings_places, comparedPlaces_comm, map_filterMap]
  refine filterMap_congr fun place hplace => ?_
  rw [mem_comparedPlaces] at hplace
  rw [comparedAt_comm baseline current baseline, comparedAt_comm baseline current current]
  exact findingAt_reversed place hplace

abbrev AttributesAt := DriftPlace → Option DriftAttributes

def applyFinding (attributes : AttributesAt) (finding : DriftFinding) : AttributesAt :=
  Function.update attributes finding.place (finding.after.map DriftRecord.attributes)

theorem applied_at {findings : List DriftFinding} {target : AttributesAt} (h : ∀ finding ∈ findings,
      finding.after.map DriftRecord.attributes = target finding.place)
    (attributes : AttributesAt) (place : DriftPlace) :
    findings.foldl applyFinding attributes place =
      if place ∈ findings.map DriftFinding.place then target place else attributes place := by
  induction findings generalizing attributes with
  | nil => simp
  | cons finding findings ih =>
    rw [foldl_cons, ih fun other hother => h other (mem_cons_of_mem _ hother)]
    by_cases hlater : place ∈ findings.map DriftFinding.place
    · rw [if_pos hlater, if_pos (by simp [hlater])]
    · rw [if_neg hlater, applyFinding]
      by_cases hplace : place = finding.place
      · rw [hplace, Function.update_self, if_pos (by simp)]
        exact h finding mem_cons_self
      · rw [Function.update_of_ne hplace, if_neg (by simp [hplace, hlater])]

def comparedAttributes (baseline current state : DiscoveryDriftState) : AttributesAt :=
  fun place => (comparedAt baseline current state place).map DriftRecord.attributes

theorem findings_applied :
    (driftFindings baseline current).foldl applyFinding
        (comparedAttributes baseline current baseline) =
      comparedAttributes baseline current current := by
  funext place
  have htarget : ∀ finding ∈ driftFindings baseline current,
      finding.after.map DriftRecord.attributes =
        comparedAttributes baseline current current finding.place := by
    intro finding hfinding
    rw [((mem_driftFindings baseline current finding).mp hfinding).2.1]
    rfl
  rw [applied_at htarget]
  split
  · rfl
  · rename_i hnone
    -- Nothing is found here, so the attributes are the same.
    by_contra hdiffer
    apply hnone
    have hfound : ∀ change, Differs change (comparedAt baseline current baseline place)
        (comparedAt baseline current current place) →
          place ∈ (driftFindings baseline current).map DriftFinding.place := by
      intro change hchange
      refine mem_map.mpr ⟨⟨place.1, place.2, change,
        comparedAt baseline current baseline place,
        comparedAt baseline current current place⟩, ?_, rfl⟩
      exact (mem_driftFindings baseline current _).mpr ⟨rfl, rfl, hchange⟩
    simp only [comparedAttributes] at hdiffer
    cases hold : comparedAt baseline current baseline place with
    | none =>
      cases hnew : comparedAt baseline current current place with
      | none => simp [hold, hnew] at hdiffer
      | some new => exact hfound .added (by simp [Differs, hold, hnew])
    | some old =>
      cases hnew : comparedAt baseline current current place with
      | none => exact hfound .removed (by simp [Differs, hold, hnew])
      | some new =>
        rw [hold, hnew] at hdiffer
        refine hfound .changed ⟨old, new, hold, hnew, ?_⟩
        simpa using hdiffer

/-- The findings are the differences on the domains complete in both states, each once. -/
structure ReportsExactly (baseline current : DiscoveryDriftState)
    (findings : List DriftFinding) : Prop where
  once : (findings.map DriftFinding.place).Nodup
  exactly : ∀ finding, finding ∈ findings ↔
    finding.domain ∈ baseline.completeDomains ∧ finding.domain ∈ current.completeDomains ∧
      finding.before = baseline.recordAt finding.place ∧
      finding.after = current.recordAt finding.place ∧
      Differs finding.changeType finding.before finding.after

theorem findings_exact : ReportsExactly baseline current (driftFindings baseline current) := by
  refine ⟨driftFindings_nodup baseline current, ?_⟩
  intro finding
  rw [mem_driftFindings]
  by_cases hcomparable : finding.domain ∈ comparableDomains baseline current
  · have hat : ∀ state : DiscoveryDriftState, comparedAt baseline current state finding.place =
        state.recordAt finding.place := fun state => if_pos hcomparable
    have hboth := (comparable_iff baseline current finding.domain).mp hcomparable
    rw [hat, hat]
    exact ⟨fun h => ⟨hboth.1, hboth.2, h⟩, fun h => h.2.2⟩
  · have hat : ∀ state : DiscoveryDriftState, comparedAt baseline current state finding.place =
        none := fun state => if_neg hcomparable
    rw [hat, hat]
    constructor
    · rintro ⟨hbefore, hafter, hdiffers⟩
      rw [hbefore, hafter] at hdiffers
      cases hchange : finding.changeType <;> simp [hchange, Differs] at hdiffers
    · rintro ⟨hbaseline, hcurrent, -⟩
      exact absurd ((comparable_iff baseline current _).mpr ⟨hbaseline, hcurrent⟩) hcomparable

/-- Backed evidence makes a state whose places tell objects apart exactly where no two of its
observations are written alike, and the findings between states follow the laws of drift. -/
theorem drift_laws (db : CharacterDatabase) :
    (∀ evidence : BackedEvidence db,
      Separates evidence.toDriftEvidence ↔ DistinctEvidence evidence.toDriftEvidence) ∧
    ∀ baseline current : DiscoveryDriftState,
      ReportsExactly baseline current (detectDiscoveryDrift baseline current).findings ∧
      (detectDiscoveryDrift current baseline).findings =
        (detectDiscoveryDrift baseline current).findings.map DriftFinding.reversed ∧
      (detectDiscoveryDrift baseline current).findings.foldl applyFinding
          (comparedAttributes baseline current baseline) =
        comparedAttributes baseline current current := by
  refine ⟨separates_iff, ?_⟩
  intro baseline current
  exact ⟨findings_exact baseline current, driftFindings_reversed baseline current,
    findings_applied baseline current⟩

/-! ## Names with a bar -/

def barredRoute : CipRouteDeclaration Ascii.database := slotZero

def barredItem (parent name : Text) (hname : name ≠ [])
    (htrimmed : Trimmed Ascii.database name) : CipSoftwareInventoryItem Ascii.database where
  capability := .tagDefinitions
  name := name
  parent := some parent
  name_nonempty := hname
  name_trimmed := htrimmed

/-- The tag `C` of the program `A|B` and the tag `B|C` of the program `A`. -/
def barredEvidence : BackedEvidence Ascii.database where
  capturedAt := .epoch
  completeDomains := [.configuration]
  software := [{ target := { address := "192.168.1.10" }
                 route := barredRoute
                 items := [barredItem "A|B" "C" (by decide) (by decide),
                   barredItem "A" "B|C" (by decide) (by decide)]
                 gateway := rfl }]
  aware := rfl
  devices h := by simp at h
  configuration _ := by simp
  network h := by simp at h

theorem barred_names_refused : ¬ Separates barredEvidence.toDriftEvidence := by
  have hrepeated : ¬ ((softwareItems barredEvidence.toDriftEvidence).map fun item =>
      itemText item.1.route item.2).Nodup := by
    decide +kernel
  rw [separates_iff]
  intro hdistinct
  exact hrepeated (hdistinct.items (by decide))

end TwinForge.Discovery
