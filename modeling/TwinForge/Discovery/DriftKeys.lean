import TwinForge.Discovery.Drift

/-! # What a drift key is about

A state can be built exactly where the keys of each complete domain differ. The keys of targets
never conflate; those of slots, of items and of relationships are as different as the texts
they are made of.
-/

namespace TwinForge.Discovery

open Guards List

variable {db : CharacterDatabase}

/-! ## Keys of targets and slots -/

theorem routeText_injective {first second : List Nat}
    (h : joinText "/" (first.map decimal) = joinText "/" (second.map decimal)) :
    first = second := by
  have hfree : ∀ route : List Nat, ∀ part ∈ route.map decimal, '/' ∉ part := by
    intro route part hpart
    obtain ⟨number, -, rfl⟩ := mem_map.mp hpart
    exact decimal_free rfl
  have hempty : ∀ number (route : List Nat),
      joinText "/" ((number :: route).map decimal) ≠ [] := by
    intro number route hnil
    have hlength := Json.decimal_length_pos number
    cases route with
    | nil =>
      simp [joinText, intercalate] at hnil
      simp [hnil] at hlength
    | cons next route => simp [joinText, intercalate, Text.of] at hnil
  cases first with
  | nil =>
    cases second with
    | nil => rfl
    | cons number second => exact absurd h.symm (hempty number second)
  | cons number first =>
    cases second with
    | nil => exact absurd h (hempty number first)
    | cons other second =>
      have hsplit := congrArg (splitOn '/') h
      rw [joinText, joinText, show Text.of "/" = ['/'] from rfl,
        splitOn_intercalate '/' (hfree _) (by simp),
        splitOn_intercalate '/' (hfree _) (by simp)] at hsplit
      exact map_injective_iff.mpr (fun _ _ => decimal_injective) hsplit

theorem routeText_free (route : List Nat) : '|' ∉ joinText "/" (route.map decimal) := by
  induction route with
  | nil => simp [joinText]
  | cons number route ih =>
    have hnumber : '|' ∉ decimal number := decimal_free rfl
    cases route with
    | nil => simpa [joinText] using hnumber
    | cons next route =>
      rw [joinText, map_cons, map_cons, intercalate_cons_cons]
      have hrest : '|' ∉ intercalate (Text.of "/") (decimal next :: route.map decimal) := ih
      rw [mem_append, mem_append, not_or, not_or]
      exact ⟨⟨hnumber, by simp [Text.of]⟩, hrest⟩

theorem target_key_injective {first second : DiscoveryTarget} (h : first.key = second.key) :
    first.address = second.address ∧ first.route = second.route := by
  have hparts := Delimiters.last_delimiter (routeText_free first.route)
    (routeText_free second.route) h
  exact ⟨hparts.1, routeText_injective hparts.2⟩

theorem slotText_injective {route other : CipRouteDeclaration db} {slot slot' : Nat}
    (h : slotText route slot = slotText other slot') : route.key = other.key ∧ slot = slot' := by
  have hfree : ∀ number, ':' ∉ decimal number := fun number => decimal_free rfl
  have hform : ∀ (route : CipRouteDeclaration db) number,
      slotText route number = (route.key ++ ("|slot" : Text)) ++ ':' :: decimal number := by
    intro route number
    simp [slotText, Text.of]
  rw [hform, hform] at h
  have hparts := Delimiters.last_delimiter (hfree slot) (hfree slot') h
  exact ⟨append_cancel_right hparts.1, decimal_injective hparts.2⟩

/-- Items whose names and parents hold no bar are written alike only where they agree. -/
theorem itemText_injective {route other : CipRouteDeclaration db}
    {first second : CipSoftwareInventoryItem db}
    (hfirst : '|' ∉ first.name ∧ '|' ∉ first.parent.getD [])
    (hsecond : '|' ∉ second.name ∧ '|' ∉ second.parent.getD [])
    (h : itemText route first = itemText other second) :
    route.key = other.key ∧ first.capability = second.capability ∧
      first.parent.getD [] = second.parent.getD [] ∧ first.name = second.name := by
  have hform : ∀ (route : CipRouteDeclaration db) item, itemText route item =
      (((route.key ++ '|' :: item.capability.value) ++ '|' :: item.parent.getD []) ++
        '|' :: item.name) := by
    intro route item
    simp [itemText, joinText, intercalate, Text.of]
  have hcapability : ∀ capability : CipSoftwareInventoryCapability, '|' ∉ capability.value := by
    intro capability
    cases capability <;> simp [CipSoftwareInventoryCapability.value, Text.of]
  rw [hform, hform] at h
  obtain ⟨hfront, hname⟩ := Delimiters.last_delimiter hfirst.1 hsecond.1 h
  obtain ⟨hpath, hparent⟩ := Delimiters.last_delimiter hfirst.2 hsecond.2 hfront
  obtain ⟨hroute, hvalue⟩ := Delimiters.last_delimiter (hcapability _) (hcapability _) hpath
  exact ⟨hroute, capability_value_injective hvalue, hparent, hname⟩

/-! ## The keys of a domain -/

theorem nodup_parts {A B : Type} [DecidableEq B] (part : A → B) (items : List A) :
    items.Nodup ↔ ∀ b, (items.filter fun item => part item = b).Nodup := by
  constructor
  · intro h b
    exact h.filter _
  · intro h
    induction items with
    | nil => exact nodup_nil
    | cons item items ih =>
      have hitem := h (part item)
      rw [filter_cons_of_pos (by simp), nodup_cons, mem_filter] at hitem
      refine nodup_cons.mpr ⟨fun hmember => hitem.1 ⟨hmember, by simp⟩, ih ?_⟩
      intro b
      exact (h b).sublist ((sublist_cons_self item items).filter _)

def domainKeys (evidence : DriftEvidence db) (domain : DriftDomain) : List Text :=
  ((driftRecords evidence).filter fun record => record.domain = domain).map DriftRecord.key

variable (evidence : DriftEvidence db)

theorem places_nodup :
    ((driftRecords evidence).map DriftRecord.place).Nodup ↔
      ∀ domain, (domainKeys evidence domain).Nodup := by
  rw [nodup_parts Prod.fst]
  refine forall_congr' fun domain => ?_
  rw [filter_map]
  have hplaces : ((driftRecords evidence).filter fun record => record.domain = domain).map
      DriftRecord.place = (domainKeys evidence domain).map (Prod.mk domain) := by
    rw [domainKeys, map_map]
    refine map_congr_left fun record hrecord => ?_
    have hdomain := of_decide_eq_true (mem_filter.mp hrecord).2
    simp [DriftRecord.place, hdomain]
  show (((driftRecords evidence).filter fun record => record.domain = domain).map
    DriftRecord.place).Nodup ↔ _
  rw [hplaces]
  exact nodup_map_iff fun _ _ h => (Prod.mk.inj h).2

theorem records_keys {Item : Type} (items : List Item) (records : Item → List DriftRecord)
    (domain : DriftDomain) :
    ((items.flatMap records).filter fun record => record.domain = domain).map DriftRecord.key =
      items.flatMap fun item =>
        ((records item).filter fun record => record.domain = domain).map DriftRecord.key := by
  rw [filter_flatMap, map_flatMap]

theorem identity_keys (complete : List DriftDomain) (identity : CipIdentityRecord)
    (domain : DriftDomain) :
    ((identityRecords complete identity).filter fun record => record.domain = domain).map
      DriftRecord.key =
    if (domain = .hardware ∨ domain = .firmware) ∧ domain ∈ complete then
      [identityKey identity.target] else [] := by
  by_cases hhardware : .hardware ∈ complete <;> by_cases hfirmware : .firmware ∈ complete <;>
    cases domain <;> simp [identityRecords, driftRecord, hhardware, hfirmware]

theorem slot_keys (complete : List DriftDomain) (route : CipRouteDeclaration db)
    (slot : CipChassisSlotObservation) (domain : DriftDomain) :
    ((slotRecords complete route slot).filter fun record => record.domain = domain).map
      DriftRecord.key =
    if (domain = .hardware ∨ domain = .firmware ∧ slot.identity.isSome = true) ∧
        domain ∈ complete then [slotKey route slot.slot] else [] := by
  cases hidentity : slot.identity with
  | none =>
    by_cases hhardware : .hardware ∈ complete <;>
      cases domain <;> simp [slotRecords, driftRecord, hhardware, hidentity]
  | some identity =>
    by_cases hhardware : .hardware ∈ complete <;> by_cases hfirmware : .firmware ∈ complete <;>
      cases domain <;> simp [slotRecords, driftRecord, hhardware, hfirmware, hidentity]

theorem flatMap_kept {A B : Type} (kept : A → Prop) [DecidablePred kept] (result : A → B)
    (items : List A) :
    (items.flatMap fun item => if kept item then [result item] else []) =
      (items.filter kept).map result := by
  induction items with
  | nil => rfl
  | cons item items ih =>
    rw [flatMap_cons, ih]
    by_cases hkept : kept item <;> simp [hkept]

def keptSlots (evidence : DriftEvidence db) (domain : DriftDomain) :
    List (CipRouteDeclaration db × CipChassisSlotObservation) :=
  (routedSlots evidence).filter fun slot => domain = .hardware ∨ slot.2.identity.isSome = true

theorem own_keys {Item : Type} {own : DriftDomain} {record : Item → DriftRecord}
    (hown : ∀ item, (record item).domain = own) (complete : List DriftDomain)
    (items : List Item) (domain : DriftDomain) :
    ((if own ∈ complete then items.map record else []).filter
      fun record => record.domain = domain).map DriftRecord.key =
        if own = domain ∧ domain ∈ complete then items.map fun item => (record item).key
        else [] := by
  by_cases hsame : own = domain
  · subst hsame
    by_cases hcomplete : own ∈ complete
    · have hall : (items.map record).filter (fun record => record.domain = own) =
          items.map record := by
        rw [filter_eq_self]
        intro found hfound
        obtain ⟨item, -, rfl⟩ := mem_map.mp hfound
        simp [hown]
      simp only [hcomplete, if_true, and_self, hall, map_map]
      rfl
    · simp [hcomplete]
  · have hother : ¬ (own = domain ∧ domain ∈ complete) := fun h => hsame h.1
    rw [if_neg hother, map_eq_nil_iff, filter_eq_nil_iff]
    intro found hfound
    split at hfound
    · obtain ⟨item, -, rfl⟩ := mem_map.mp hfound
      simp [hown, hsame]
    · cases hfound

theorem domain_keys (domain : DriftDomain) :
    domainKeys evidence domain =
      (if (domain = .hardware ∨ domain = .firmware) ∧ domain ∈ evidence.completeDomains then
        (evidence.snapshot.getD []).map fun identity => identityKey identity.target else []) ++
      (if (domain = .hardware ∨ domain = .firmware) ∧ domain ∈ evidence.completeDomains then
        (keptSlots evidence domain).map fun slot => slotKey slot.1 slot.2.slot else []) ++
      (if .configuration = domain ∧ domain ∈ evidence.completeDomains then
        (softwareItems evidence).map fun item => itemKey item.1.route item.2 else []) ++
      if .network = domain ∧ domain ∈ evidence.completeDomains then
        (relationships evidence).map TopologyRelationshipCandidate.key else [] := by
  have hidentities := flatMap_kept (fun _ => (domain = .hardware ∨ domain = .firmware) ∧
    domain ∈ evidence.completeDomains) (fun identity : CipIdentityRecord =>
      identityKey identity.target) (evidence.snapshot.getD [])
  have hslots := flatMap_kept (fun slot => (domain = .hardware ∨ domain = .firmware ∧
    slot.2.identity.isSome = true) ∧ domain ∈ evidence.completeDomains)
      (fun slot : CipRouteDeclaration db × CipChassisSlotObservation =>
        slotKey slot.1 slot.2.slot) (routedSlots evidence)
  have hitems := @own_keys _ .configuration
    (fun item : CipSoftwareInventoryObservation db × CipSoftwareInventoryItem db =>
      itemRecord item.1 item.2) (fun item => rfl) evidence.completeDomains
        (softwareItems evidence) domain
  have hrelationships := @own_keys _ .network relationshipRecord (fun item => rfl)
    evidence.completeDomains (relationships evidence) domain
  simp only [domainKeys, driftRecords, filter_append, map_append, records_keys,
    identity_keys, slot_keys, hidentities, hslots, hitems, hrelationships]
  congr 2
  congr 1
  · by_cases hdevices : (domain = .hardware ∨ domain = .firmware) ∧
      domain ∈ evidence.completeDomains <;> simp [hdevices]
  · rw [keptSlots]
    by_cases hdevices : (domain = .hardware ∨ domain = .firmware) ∧
      domain ∈ evidence.completeDomains
    · rw [if_pos hdevices]
      refine congrArg (List.map _) (filter_congr fun slot _ => ?_)
      rcases hdevices.1 with rfl | rfl <;> simp [hdevices.2]
    · rw [if_neg hdevices, map_eq_nil_iff, filter_eq_nil_iff]
      intro slot _
      rw [decide_eq_true_eq]
      exact fun h => hdevices ⟨h.1.imp_right And.left, h.2⟩

/-! ## Distinct evidence -/

/-- No two observations of a complete domain are written alike: no two identities of one target,
no two slots of one number behind routes of one key, no two items of one text, and no two
relationships of one key. -/
structure DistinctEvidence (evidence : DriftEvidence db) : Prop where
  targets : (.hardware ∈ evidence.completeDomains ∨ .firmware ∈ evidence.completeDomains) →
    ((evidence.snapshot.getD []).map fun identity =>
      (identity.target.address, identity.target.route)).Nodup
  slots : .hardware ∈ evidence.completeDomains →
    ((routedSlots evidence).map fun slot => (slot.1.key, slot.2.slot)).Nodup
  firmwareSlots : .firmware ∈ evidence.completeDomains →
    (((routedSlots evidence).filter fun slot => slot.2.identity.isSome = true).map fun slot =>
      (slot.1.key, slot.2.slot)).Nodup
  items : .configuration ∈ evidence.completeDomains →
    ((softwareItems evidence).map fun item => itemText item.1.route item.2).Nodup
  relationships : .network ∈ evidence.completeDomains →
    ((relationships evidence).map TopologyRelationshipCandidate.key).Nodup

theorem nodup_congr {A B C : Type} {first : A → B} {second : A → C} {items : List A}
    (h : ∀ item other, first item = first other ↔ second item = second other) :
    (items.map first).Nodup ↔ (items.map second).Nodup := by
  simp only [List.Nodup, pairwise_map, ne_eq, h]

theorem device_keys_nodup (domain : DriftDomain) :
    (((evidence.snapshot.getD []).map fun identity => identityKey identity.target) ++
      (keptSlots evidence domain).map fun slot => slotKey slot.1 slot.2.slot).Nodup ↔
    ((evidence.snapshot.getD []).map fun identity =>
      (identity.target.address, identity.target.route)).Nodup ∧
    ((keptSlots evidence domain).map fun slot => (slot.1.key, slot.2.slot)).Nodup := by
  have htargets : ∀ first second : CipIdentityRecord,
      identityKey first.target = identityKey second.target ↔
        (first.target.address, first.target.route) =
          (second.target.address, second.target.route) := by
    intro first second
    rw [identityKey, identityKey, append_cancel_left_eq, Prod.mk.injEq]
    refine ⟨target_key_injective, ?_⟩
    rintro ⟨haddress, hroute⟩
    rw [DiscoveryTarget.key, DiscoveryTarget.key, haddress, hroute]
  have hslots : ∀ first second : CipRouteDeclaration db × CipChassisSlotObservation,
      slotKey first.1 first.2.slot = slotKey second.1 second.2.slot ↔
        (first.1.key, first.2.slot) = (second.1.key, second.2.slot) := by
    intro first second
    rw [slotKey, slotKey, append_cancel_left_eq, Prod.mk.injEq]
    refine ⟨slotText_injective, ?_⟩
    rintro ⟨hroute, hslot⟩
    rw [slotText, slotText, hroute, hslot]
  rw [nodup_append, nodup_congr htargets, nodup_congr hslots]
  refine and_congr_right fun _ => and_iff_left ?_
  -- A colon follows in the one kind of key, a dash in the other.
  intro key hkey other hother
  obtain ⟨identity, -, rfl⟩ := mem_map.mp hkey
  obtain ⟨slot, -, rfl⟩ := mem_map.mp hother
  simp [identityKey, slotKey, Text.of]

theorem places_distinct :
    ((driftRecords evidence).map DriftRecord.place).Nodup ↔ DistinctEvidence evidence := by
  have hhardware : keptSlots evidence .hardware = routedSlots evidence := by
    simp [keptSlots]
  have hfirmware : keptSlots evidence .firmware =
      (routedSlots evidence).filter fun slot => slot.2.identity.isSome = true := by
    simp [keptSlots]
  have hitems : ∀ first second : CipSoftwareInventoryObservation db × CipSoftwareInventoryItem db,
      itemKey first.1.route first.2 = itemKey second.1.route second.2 ↔
        itemText first.1.route first.2 = itemText second.1.route second.2 := by
    intro first second
    rw [itemKey, itemKey, append_cancel_left_eq]
  rw [places_nodup]
  simp only [domain_keys]
  constructor
  · intro h
    have hdevices : ∀ domain, domain = .hardware ∨ domain = .firmware →
        domain ∈ evidence.completeDomains → _ := fun domain hdomain hcomplete =>
      (device_keys_nodup evidence domain).mp (by
        have hkeys := h domain
        rcases hdomain with rfl | rfl <;> simpa [hcomplete] using hkeys)
    constructor
    · rintro (hcomplete | hcomplete)
      · exact (hdevices _ (.inl rfl) hcomplete).1
      · exact (hdevices _ (.inr rfl) hcomplete).1
    · intro hcomplete
      exact hhardware ▸ (hdevices _ (.inl rfl) hcomplete).2
    · intro hcomplete
      exact hfirmware ▸ (hdevices _ (.inr rfl) hcomplete).2
    · intro hcomplete
      have hkeys := h .configuration
      simpa [hcomplete, nodup_congr hitems] using hkeys
    · intro hcomplete
      have hkeys := h .network
      simpa [hcomplete] using hkeys
  · intro h domain
    by_cases hcomplete : domain ∈ evidence.completeDomains
    · cases domain with
      | hardware =>
        have hkeys := (device_keys_nodup evidence .hardware).mpr
          ⟨h.targets (.inl hcomplete), hhardware.symm ▸ h.slots hcomplete⟩
        simpa [hcomplete] using hkeys
      | firmware =>
        have hkeys := (device_keys_nodup evidence .firmware).mpr
          ⟨h.targets (.inr hcomplete), hfirmware.symm ▸ h.firmwareSlots hcomplete⟩
        simpa [hcomplete] using hkeys
      | configuration => simpa [hcomplete, nodup_congr hitems] using h.items hcomplete
      | network => simpa [hcomplete] using h.relationships hcomplete
    · simp [hcomplete]

end TwinForge.Discovery
