import TwinForge.Analysis.CallLines
import TwinForge.Plx50.LogixMapping

/-! # Accounts of the Logix mapping

Every point is correlated or left unresolved. The mapping returns exactly where each correlation
stays below its own tag and no two of them bind one path to one module operand.
-/

namespace TwinForge.Plx50.LogixMapping

open Model Guards Fuel SoftwareCalls List

/-! ## Resolved points -/

/-- The station, the slot and the only candidate of a point. -/
structure Resolution where
  station : Int
  slot : Int
  tag : Tag
  transfer : Plx50LogixTransfer

def Resolution.correlation (site : PointSite) (found : Resolution) : Plx50LogixPointCorrelation :=
  correlationOf site found.station found.slot found.transfer

def Resolution.binding (site : PointSite) (found : Resolution) : GatewayTagBinding :=
  gatewayTagBinding (found.correlation site) found.tag

def resolve (controller : Controller) (evidence : Evidence) (site : PointSite) : Option Resolution :=
  match site.device.stationAddress, site.slot.slotId with
  | some station, some slot =>
    if pointNameOf site = [] ∨ pointTypeOf site ∉ (["Input", "Output"] : List Text) then none
    else
      match pointCandidates controller (evidence.tagsOf station) evidence.transfers
          (pointTypeOf site) (pointNameOf site) with
      | [(tag, transfer)] => some ⟨station, slot, tag, transfer⟩
      | _ => none
  | _, _ => none

def resolutions (controller : Controller) (evidence : Evidence) (sites : List PointSite) :
    List (PointSite × Resolution) :=
  sites.filterMap fun site => (resolve controller evidence site).map fun found => (site, found)

/-- A controller tag with a member of the point's name in the container of its type. -/
def HasPoint (controller : Controller) (site : PointSite) (base : Text) (tag : Tag) : Prop :=
  controller.tags.get? base = some tag ∧
    hasMember tag.dataTypeDefinition (pointTypeOf site) (pointNameOf site) = true

/-- The transfers of the container that a base tag has for points of the type. -/
def containerTransfers (evidence : Evidence) (site : PointSite) (base : Text) :
    List Plx50LogixTransfer :=
  evidence.transfers.filter fun transfer =>
    transfer.controllerTag = base ++ '.' :: pointTypeOf site

/-- `base.container.point`. -/
def pointPath (site : PointSite) (base : Text) : Text :=
  base ++ '.' :: (pointTypeOf site ++ '.' :: pointNameOf site)

/-- Of the tags assigned to the point's station only one has the point and a transfer of its
container, and it has one transfer. -/
structure SoleTransfer (controller : Controller) (evidence : Evidence) (site : PointSite)
    (base : Text) (tag : Tag) (transfer : Plx50LogixTransfer) : Prop where
  named : pointNameOf site ≠ []
  typed : pointTypeOf site ∈ (["Input", "Output"] : List Text)
  slotted : site.slot.slotId.isSome = true
  point : HasPoint controller site base tag
  transfers : containerTransfers evidence site base = [transfer]
  assigned : ∃ station ∈ site.device.stationAddress, base ∈ evidence.tagsOf station ∧
    ∀ other ∈ evidence.tagsOf station, other ≠ base → ∀ tag, HasPoint controller site other tag →
      containerTransfers evidence site other = []

section

variable {db : CharacterDatabase} {controller : Controller} {evidence : Evidence}

variable {state : Mapping} {site : PointSite} {found : Resolution}

/-- The rest is filtered before it is gone through, so the induction is on the length. -/
theorem nodup_eraseDups (items : List Text) : items.eraseDups.Nodup := by
  induction hlength : items.length using Nat.strong_induction_on generalizing items with
  | _ length ih =>
    subst hlength
    cases items with
    | nil => exact nodup_nil
    | cons item rest =>
      rw [eraseDups_cons]
      have hshorter : (rest.filter fun other => !other == item).length < (item :: rest).length :=
        Nat.lt_succ_of_le (length_filter_le _ rest)
      have habsent : item ∉ (rest.filter fun other => !other == item).eraseDups := by
        simp [mem_eraseDups]
      exact nodup_cons.mpr ⟨habsent, ih _ hshorter _ rfl⟩

theorem flatMap_eq_singleton {A B : Type} {items : List A} {f : A → List B} {b : B}
    (honce : items.Nodup) : items.flatMap f = [b] ↔
      ∃ a ∈ items, f a = [b] ∧ ∀ other ∈ items, other ≠ a → f other = [] := by
  induction items with
  | nil => simp
  | cons item items ih =>
    have ⟨hitem, honce⟩ := nodup_cons.mp honce
    rw [flatMap_cons, append_eq_singleton_iff, ih honce, flatMap_eq_nil_iff]
    constructor
    · rintro (⟨hnil, a, ha, hone, hothers⟩ | ⟨hone, hnil⟩)
      · refine ⟨a, mem_cons_of_mem _ ha, hone, fun other hother hne => ?_⟩
        cases mem_cons.mp hother with
        | inl hsame => rw [hsame, hnil]
        | inr hlater => exact hothers other hlater hne
      · refine ⟨item, mem_cons_self, hone, fun other hother hne => ?_⟩
        exact hnil other ((mem_cons.mp hother).resolve_left hne)
    · rintro ⟨a, ha, hone, hothers⟩
      cases mem_cons.mp ha with
      | inl hsame =>
        subst hsame
        refine .inr ⟨hone, fun other hother => hothers other (mem_cons_of_mem _ hother) ?_⟩
        exact fun hsame => hitem (hsame ▸ hother)
      | inr hlater =>
        have hne : item ≠ a := fun hsame => hitem (hsame ▸ hlater)
        exact .inl ⟨hothers item mem_cons_self hne, a, hlater, hone,
          fun other hother => hothers other (mem_cons_of_mem _ hother)⟩

section

variable {base : Text}

theorem baseCandidates_eq_singleton {tag : Tag} {transfer : Plx50LogixTransfer} :
    baseCandidates controller evidence.transfers (pointTypeOf site) (pointNameOf site) base =
        [(tag, transfer)] ↔
      HasPoint controller site base tag ∧ containerTransfers evidence site base = [transfer] := by
  unfold baseCandidates
  cases htag : controller.tags.get? base with
  | none => simp [HasPoint, htag]
  | some found =>
    by_cases hmember :
        hasMember found.dataTypeDefinition (pointTypeOf site) (pointNameOf site) = true
    · simp only [hmember, if_true, HasPoint, htag, Option.some.injEq, containerTransfers,
        map_eq_singleton_iff]
      constructor
      · rintro ⟨only, hone, ⟨⟩⟩
        exact ⟨⟨rfl, hmember⟩, hone⟩
      · rintro ⟨⟨rfl, -⟩, hone⟩
        exact ⟨transfer, hone, rfl⟩
    · simp only [hmember, HasPoint, htag, Option.some.injEq]
      refine iff_of_false (fun hnil => ?_) ?_
      · cases hnil
      · rintro ⟨⟨rfl, h⟩, -⟩
        exact hmember h

theorem baseCandidates_eq_nil :
    baseCandidates controller evidence.transfers (pointTypeOf site) (pointNameOf site) base = [] ↔
      ∀ tag, HasPoint controller site base tag → containerTransfers evidence site base = [] := by
  unfold baseCandidates
  cases htag : controller.tags.get? base with
  | none => simp [HasPoint, htag]
  | some found =>
    by_cases hmember :
        hasMember found.dataTypeDefinition (pointTypeOf site) (pointNameOf site) = true
    · simp only [hmember, if_true, map_eq_nil_iff, HasPoint, htag, Option.some.injEq]
      exact ⟨fun h _ _ => h, fun h => h found ⟨rfl, hmember⟩⟩
    · simp only [hmember, HasPoint, htag, Option.some.injEq]
      refine iff_of_true rfl ?_
      rintro tag ⟨rfl, h⟩
      exact absurd h hmember

end

theorem resolve_iff : resolve controller evidence site = some found ↔
    site.device.stationAddress = some found.station ∧ site.slot.slotId = some found.slot ∧
      ∃ base, SoleTransfer controller evidence site base found.tag found.transfer := by
  obtain ⟨station, slot, tag, transfer⟩ := found
  have hsole : ∀ station, pointCandidates controller (evidence.tagsOf station) evidence.transfers
      (pointTypeOf site) (pointNameOf site) = [(tag, transfer)] ↔
      ∃ base ∈ evidence.tagsOf station, (HasPoint controller site base tag ∧
        containerTransfers evidence site base = [transfer]) ∧
        ∀ other ∈ evidence.tagsOf station, other ≠ base →
          ∀ tag, HasPoint controller site other tag →
            containerTransfers evidence site other = [] := by
    intro station
    have honce : (evidence.tagsOf station).Nodup := nodup_eraseDups _
    rw [pointCandidates, flatMap_eq_singleton honce]
    refine exists_congr fun base => and_congr_right fun _ => and_congr ?_ ?_
    · exact baseCandidates_eq_singleton
    · exact forall₃_congr fun other _ _ => baseCandidates_eq_nil
  constructor
  · intro h
    unfold resolve at h
    cases hstation : site.device.stationAddress with
    | none => simp [hstation] at h
    | some address =>
      cases hslot : site.slot.slotId with
      | none => simp [hstation, hslot] at h
      | some number =>
        simp only [hstation, hslot] at h
        split at h
        · cases h
        · next hplain =>
          rw [not_or, not_not] at hplain
          split at h
          · next hone =>
            cases h
            obtain ⟨base, hbase, ⟨hpoint, htransfers⟩, hothers⟩ := (hsole _).mp hone
            exact ⟨rfl, rfl, base, hplain.1, hplain.2, by simp [hslot], hpoint, htransfers,
              _, hstation, hbase, hothers⟩
          · cases h
  · rintro ⟨hstation, hslot, base, h⟩
    have ⟨address, haddress, hbase, hothers⟩ := h.assigned
    have hsame : station = address := by simpa [hstation] using haddress
    have hone := (hsole station).mpr
      ⟨base, hsame ▸ hbase, ⟨h.point, h.transfers⟩, hsame ▸ hothers⟩
    have hplain : ¬ (pointNameOf site = [] ∨
        pointTypeOf site ∉ (["Input", "Output"] : List Text)) :=
      not_or.mpr ⟨h.named, not_not.mpr h.typed⟩
    simp only [resolve, hstation, hslot, if_neg hplain, hone]

theorem SoleTransfer.resolved {base : Text} {tag : Tag} {transfer : Plx50LogixTransfer}
    (h : SoleTransfer controller evidence site base tag transfer) :
    ∃ station slot, resolve controller evidence site = some ⟨station, slot, tag, transfer⟩ := by
  have ⟨station, hstation, _⟩ := h.assigned
  have ⟨slot, hslot⟩ := Option.isSome_iff_exists.mp h.slotted
  exact ⟨station, slot, resolve_iff.mpr ⟨hstation, hslot, base, h⟩⟩

theorem SoleTransfer.path {base : Text} {tag : Tag} {transfer : Plx50LogixTransfer}
    (h : SoleTransfer controller evidence site base tag transfer) :
    tagPathOf site transfer = pointPath site base := by
  have hmem : transfer ∈ containerTransfers evidence site base :=
    h.transfers ▸ mem_singleton_self _
  have hcontainer := of_decide_eq_true (mem_filter.mp hmem).2
  rw [tagPathOf, hcontainer]
  simp [pointPath]

theorem pointPath_root (site : PointSite) (base : Text) :
    (pointPath site base).takeWhile (· != '.') = base.takeWhile (· != '.') := by
  rw [pointPath, takeWhile_append]
  split
  · next hlength =>
    have hwhole := ( takeWhile_prefix (l := base) (· != '.')).eq_of_length hlength
    rw [hwhole]
    simp
  · rfl

theorem mapPoint_resolved (h : resolve controller evidence site = some found) :
    mapPoint db controller evidence state site =
      attach db state (found.correlation site) found.tag := by
  unfold resolve at h
  unfold mapPoint
  cases hstation : site.device.stationAddress with
  | none => simp [hstation] at h
  | some station =>
    cases hslot : site.slot.slotId with
    | none => simp [hstation, hslot] at h
    | some slot =>
      simp only [hstation, hslot] at h ⊢
      split at h
      · cases h
      · next hplain =>
        rw [if_neg hplain]
        generalize pointCandidates controller (evidence.tagsOf station) evidence.transfers
          (pointTypeOf site) (pointNameOf site) = candidates at h ⊢
        rcases candidates with _ | ⟨⟨tag, transfer⟩, _ | _⟩
        · cases h
        · cases h
          rfl
        · cases h

theorem mapPoint_unresolved {state : Mapping} {site : PointSite}
    (h : resolve controller evidence site = none) :
    ∃ findings, mapPoint db controller evidence state site = .ok (state.unresolve site findings) := by
  unfold resolve at h
  unfold mapPoint
  cases hstation : site.device.stationAddress with
  | none => exact ⟨_, rfl⟩
  | some station =>
    cases hslot : site.slot.slotId with
    | none => exact ⟨_, rfl⟩
    | some slot =>
      simp only [hstation, hslot] at h ⊢
      split
      · exact ⟨_, rfl⟩
      · next hplain =>
        rw [if_neg hplain] at h
        split
        · next hone =>
          rw [hone] at h
          cases h
        · exact ⟨_, rfl⟩

/-! ## Attaching -/

/-- The endpoints of the mapping. -/
structure Connected (gateway : GatewayDevice) : Prop where
  profibus : ("PROFIBUS DP" : Text) ∈ gateway.interfaceNames
  ethernet : ("EtherNet/IP" : Text) ∈ gateway.interfaceNames

/-- Two bindings of one path in one role to one endpoint. -/
def SameBinding (one other : GatewayTagBinding) : Prop :=
  one.interfaceName = other.interfaceName ∧ one.endpointReference = other.endpointReference ∧
    one.tagPath = other.tagPath ∧ one.role = other.role

theorem strip_of_mem {text : Text} {c : Char} (hmem : c ∈ text) (hc : db.isSpace c = false) :
    db.strip text ≠ [] := by
  rw [CharacterDatabase.strip, ne_eq, reverse_eq_nil_iff, dropWhile_eq_nil_iff]
  intro hblank
  have hkept : c ∈ (text.dropWhile db.isSpace).reverse := by
    have hsplit := takeWhile_append_dropWhile (p := db.isSpace) (l := text)
    rw [← hsplit] at hmem
    cases mem_append.mp hmem with
    | inl hfront => exact absurd (mem_takeWhile_imp hfront) (by simp [hc])
    | inr hback => exact mem_reverse.mpr hback
  exact absurd (hblank c hkept) (by simp [hc])

def attached (state : Mapping) (correlation : Plx50LogixPointCorrelation) (tag : Tag) : Mapping :=
  { state with
    gateway := { state.gateway with
      protocolMappings := state.gateway.protocolMappings ++ [gatewayMapping correlation]
      tagBindings := state.gateway.tagBindings ++ [gatewayTagBinding correlation tag] }
    correlations := state.correlations ++ [correlation] }

theorem gatewayMapping_attached {gateway next : GatewayDevice} (h : Connected gateway)
    (correlation : Plx50LogixPointCorrelation) :
    gateway.addProtocolMapping db (gatewayMapping correlation) = .ok next ↔
      next = { gateway with
        protocolMappings := gateway.protocolMappings ++ [gatewayMapping correlation] } := by
  rw [addProtocolMapping_eq_ok]
  have hevidence : db.strip (gatewayMapping correlation).evidence ≠ [] := by
    have hmem : 'P' ∈ (gatewayMapping correlation).evidence := by
      simp only [gatewayMapping]
      decide
    exact strip_of_mem hmem (by rw [db.space_ascii _ (by decide)]; decide)
  by_cases hinput : correlation.pointType = ("Input" : Text)
  · have hsource : (gatewayMapping correlation).sourceInterface = ("PROFIBUS DP" : Text) := by
      simp [gatewayMapping, hinput]
    have htarget : (gatewayMapping correlation).targetInterface = ("EtherNet/IP" : Text) := by
      simp [gatewayMapping, hinput]
    rw [hsource, htarget]
    exact ⟨fun h' => h'.2.2.2, fun hnext => ⟨⟨h.profibus, h.ethernet⟩, by decide, hevidence, hnext⟩⟩
  · have hsource : (gatewayMapping correlation).sourceInterface = ("EtherNet/IP" : Text) := by
      simp [gatewayMapping, hinput]
    have htarget : (gatewayMapping correlation).targetInterface = ("PROFIBUS DP" : Text) := by
      simp [gatewayMapping, hinput]
    rw [hsource, htarget]
    exact ⟨fun h' => h'.2.2.2, fun hnext => ⟨⟨h.ethernet, h.profibus⟩, by decide, hevidence, hnext⟩⟩

variable {next : Mapping}

theorem attach_eq_ok (h : Connected state.gateway) :
    attach db state (found.correlation site) found.tag = .ok next ↔
      (tagPathOf site found.transfer).takeWhile (· != '.') = found.tag.name ∧
      (∀ item ∈ state.gateway.tagBindings, ¬ SameBinding item (found.binding site)) ∧
      next = attached state (found.correlation site) found.tag := by
  have hdot : '.' ∈ tagPathOf site found.transfer := by simp [tagPathOf]
  have hpath : db.strip (tagPathOf site found.transfer) ≠ [] :=
    strip_of_mem hdot (by rw [db.space_ascii _ (by decide)]; decide)
  have hcolon : ':' ∈ found.transfer.assemblyReference := by simp [Plx50LogixTransfer.assemblyReference]
  have hendpoint : db.strip found.transfer.assemblyReference ≠ [] :=
    strip_of_mem hcolon (by rw [db.space_ascii _ (by decide)]; decide)
  have hevidence : db.strip (found.binding site).evidence ≠ [] := by
    have hmem : 'P' ∈ (found.binding site).evidence := by
      simp only [Resolution.binding, gatewayTagBinding]
      decide
    exact strip_of_mem hmem (by rw [db.space_ascii _ (by decide)]; decide)
  unfold attach
  simp only [bind_eq_ok, mapError_eq_ok, gatewayMapping_attached h, exists_eq_left, pure_eq_ok,
    addTagBinding_eq_ok]
  constructor
  · intro ⟨bound, ⟨_, _, _, _, hroot, hfresh, hbound⟩, hnext⟩
    refine ⟨hroot, fun item hitem hsame => hfresh ⟨item, hitem, hsame⟩, ?_⟩
    rw [← hnext, hbound]
    rfl
  · intro ⟨hroot, hfresh, hnext⟩
    refine ⟨_, ⟨h.ethernet, hendpoint, hpath, hevidence, hroot, ?_, rfl⟩, hnext.symm⟩
    intro ⟨item, hitem, hsame⟩
    exact hfresh item hitem hsame

/-! ## Runs -/

/-- What the points of a run add to the state. -/
structure Run (controller : Controller) (evidence : Evidence) (sites : List PointSite)
    (state next : Mapping) : Prop where
  correlations : next.correlations = state.correlations ++
    (resolutions controller evidence sites).map fun entry => entry.2.correlation entry.1
  unresolved : next.unresolved = state.unresolved ++
    (sites.filter fun site => (resolve controller evidence site).isNone).map profibusPointReference
  gateway : next.gateway = { state.gateway with
    protocolMappings := state.gateway.protocolMappings ++
      (resolutions controller evidence sites).map fun entry =>
        gatewayMapping (entry.2.correlation entry.1)
    tagBindings := state.gateway.tagBindings ++
      (resolutions controller evidence sites).map fun entry => entry.2.binding entry.1 }

/-- The bindings of a run are below their tags and new, to the gateway and among themselves. -/
structure Attachable (controller : Controller) (evidence : Evidence) (sites : List PointSite)
    (bound : List GatewayTagBinding) : Prop where
  rooted : ∀ entry ∈ resolutions controller evidence sites,
    (tagPathOf entry.1 entry.2.transfer).takeWhile (· != '.') = entry.2.tag.name
  fresh : ∀ entry ∈ resolutions controller evidence sites, ∀ item ∈ bound,
    ¬ SameBinding item (entry.2.binding entry.1)
  distinct : (resolutions controller evidence sites).Pairwise fun one other =>
    ¬ SameBinding (one.2.binding one.1) (other.2.binding other.1)

theorem resolutions_cons_some (sites : List PointSite)
    (h : resolve controller evidence site = some found) :
    resolutions controller evidence (site :: sites) =
      (site, found) :: resolutions controller evidence sites := by
  rw [resolutions, filterMap_cons, h]
  rfl

theorem resolutions_cons_none (sites : List PointSite)
    (h : resolve controller evidence site = none) :
    resolutions controller evidence (site :: sites) = resolutions controller evidence sites := by
  rw [resolutions, filterMap_cons, h]
  rfl

variable {sites : List PointSite}

theorem attachable_cons_none
    {bound : List GatewayTagBinding} (h : resolve controller evidence site = none) :
    Attachable controller evidence (site :: sites) bound ↔ Attachable controller evidence sites bound := by
  have hsame := resolutions_cons_none sites h
  constructor
  · intro hall
    exact ⟨hsame ▸ hall.rooted, hsame ▸ hall.fresh, hsame ▸ hall.distinct⟩
  · intro hall
    exact ⟨hsame.symm ▸ hall.rooted, hsame.symm ▸ hall.fresh, hsame.symm ▸ hall.distinct⟩

theorem attachable_cons_some
    {bound : List GatewayTagBinding} (h : resolve controller evidence site = some found) :
    Attachable controller evidence (site :: sites) bound ↔
      (tagPathOf site found.transfer).takeWhile (· != '.') = found.tag.name ∧
      (∀ item ∈ bound, ¬ SameBinding item (found.binding site)) ∧
      Attachable controller evidence sites (bound ++ [found.binding site]) := by
  have hcons := resolutions_cons_some sites h
  constructor
  · intro ⟨hrooted, hfresh, hdistinct⟩
    rw [hcons] at hrooted hfresh hdistinct
    have ⟨hfirst, hrest⟩ := pairwise_cons.mp hdistinct
    refine ⟨hrooted _ mem_cons_self, hfresh _ mem_cons_self,
      fun entry hentry => hrooted entry (mem_cons_of_mem _ hentry), fun entry hentry item hitem => ?_,
      hrest⟩
    cases mem_append.mp hitem with
    | inl hbound => exact hfresh entry (mem_cons_of_mem _ hentry) item hbound
    | inr hhere => exact mem_singleton.mp hhere ▸ hfirst entry hentry
  · intro ⟨hroot, hnew, hrooted, hfresh, hdistinct⟩
    constructor
    · rw [hcons, forall_mem_cons]
      exact ⟨hroot, hrooted⟩
    · rw [hcons, forall_mem_cons]
      exact ⟨hnew, fun entry hentry item hitem =>
        hfresh entry hentry item (mem_append_left _ hitem)⟩
    · rw [hcons, pairwise_cons]
      exact ⟨fun entry hentry => hfresh entry hentry _ (by simp), hdistinct⟩

theorem run_cons_none
    {findings : List ConversionDiagnostic} (h : resolve controller evidence site = none)
    (hrun : Run controller evidence sites (state.unresolve site findings) next) :
    Run controller evidence (site :: sites) state next := by
  have hsame := resolutions_cons_none sites h
  constructor
  · rw [hsame, hrun.correlations]
    rfl
  · rw [hrun.unresolved, filter_cons_of_pos (by simp [h]), map_cons]
    exact append_assoc _ [_] _
  · rw [hsame, hrun.gateway]
    rfl

theorem run_cons_some (h : resolve controller evidence site = some found)
    (hrun : Run controller evidence sites (attached state (found.correlation site) found.tag) next) :
    Run controller evidence (site :: sites) state next := by
  have hcons := resolutions_cons_some sites h
  constructor
  · rw [hcons, hrun.correlations, map_cons]
    exact append_assoc _ [_] _
  · rw [hrun.unresolved, filter_cons_of_neg (by simp [h])]
    rfl
  · rw [hcons, hrun.gateway, map_cons, map_cons]
    simp [attached, Resolution.binding]

theorem mapPoints_run (h : Connected state.gateway) :
    (∀ next, sites.foldlM (mapPoint db controller evidence) state = .ok next →
      Attachable controller evidence sites state.gateway.tagBindings ∧
        Run controller evidence sites state next) ∧
    (Attachable controller evidence sites state.gateway.tagBindings →
      ∃ next, sites.foldlM (mapPoint db controller evidence) state = .ok next) := by
  induction sites generalizing state with
  | nil =>
    refine ⟨fun next hnext => ?_, fun _ => ⟨state, rfl⟩⟩
    cases hnext
    constructor <;> constructor <;> simp [resolutions]
  | cons site sites ih =>
    simp only [foldlM_cons_ok]
    cases hresolve : resolve controller evidence site with
    | none =>
      have ⟨findings, hstep⟩ := @mapPoint_unresolved db _ _ state _ hresolve
      have ⟨hread, hreturns⟩ := @ih (state.unresolve site findings) h
      rw [attachable_cons_none hresolve]
      simp only [hstep, Except.ok.injEq, exists_eq_left']
      refine ⟨fun next hnext => ?_, hreturns⟩
      have ⟨hattachable, hrun⟩ := hread next hnext
      exact ⟨hattachable, run_cons_none hresolve hrun⟩
    | some found =>
      have hgateway : Connected (attached state (found.correlation site) found.tag).gateway :=
        ⟨h.profibus, h.ethernet⟩
      have ⟨hread, hreturns⟩ := ih hgateway
      rw [attachable_cons_some hresolve]
      simp only [mapPoint_resolved hresolve, attach_eq_ok h]
      constructor
      · intro next ⟨middle, ⟨hroot, hnew, hmiddle⟩, hrest⟩
        rw [hmiddle] at hrest
        have ⟨hattachable, hrun⟩ := hread next hrest
        exact ⟨⟨hroot, hnew, hattachable⟩, run_cons_some hresolve hrun⟩
      · intro ⟨hroot, hnew, hattachable⟩
        have ⟨next, hnext⟩ := hreturns hattachable
        exact ⟨next, _, ⟨hroot, hnew, rfl⟩, hnext⟩

/-! ## Sound mappings -/

variable (db)

/-- The evidence of a controller, where its calls can be collected. -/
def collectedEvidence (controller : Controller) (moduleName : Option Text) :
    Except IndexError Evidence :=
  (controller.programs.values.mapM fun program => programOutcome db program none).map fun calls =>
    calls.flatten.foldl (collectCall db moduleName) {}

def mappingOutcome (gateway : GatewayDevice) (configuration : Plx50DeviceConfiguration)
    (controller : Controller) :
    Except LogixMappingError (GatewayDevice × Plx50LogixMappingResult) := do
  let evidence ← (collectedEvidence db controller configuration.instanceName).mapError .calls
  (mapPoints db gateway configuration controller evidence).mapError .refused

theorem applyPlx50LogixMapping_converges (gateway : GatewayDevice)
    (configuration : Plx50DeviceConfiguration) (controller : Controller) :
    Converges (fun fuel => applyPlx50LogixMapping db fuel gateway configuration controller)
      (mappingOutcome db gateway configuration controller) := by
  have hprograms := Converges.mapM fun program (_ : program ∈ controller.programs.values) =>
    extractProgramCalls_converges db program none
  have hfound := hprograms.map fun found => (found.mapM id).map fun calls =>
    calls.flatten.foldl (collectCall db configuration.instanceName) {}
  rw [mapM_map] at hfound
  exact hfound.map fun found => found.mapError LogixMappingError.calls >>= fun evidence =>
    (mapPoints db gateway configuration controller evidence).mapError .refused

/-- The transfer goes the way the type of the point says. -/
def Directed (site : PointSite) (transfer : Plx50LogixTransfer) : Prop :=
  (pointTypeOf site = ("Input" : Text) → transfer.direction = .input) ∧
    (pointTypeOf site = ("Output" : Text) → transfer.direction = .output)

/-- Every point is either correlated with a transfer of its direction or left unresolved, no two
correlations claim one path and one module operand, and the gateway gains their mappings and
bindings. -/
structure Mapped (gateway : GatewayDevice) (configuration : Plx50DeviceConfiguration)
    (controller : Controller) (evidence : Evidence) (next : GatewayDevice)
    (result : Plx50LogixMappingResult) : Prop where
  transfers : result.transfers = evidence.transfers
  correlated : result.correlations =
    (resolutions controller evidence (pointSites configuration)).map fun entry =>
      entry.2.correlation entry.1
  unresolved : result.unresolvedPoints =
    ((pointSites configuration).filter fun site => (resolve controller evidence site).isNone).map
      profibusPointReference
  distinct : (result.correlations.map fun item => (item.controllerTagPath, item.assemblyReference)).Nodup
  directed : ∀ entry ∈ resolutions controller evidence (pointSites configuration),
    entry.2.transfer ∈ result.transfers ∧ Directed entry.1 entry.2.transfer
  mappings : next.protocolMappings = gateway.protocolMappings ++ result.correlations.map gatewayMapping
  bindings : next.tagBindings = gateway.tagBindings ++
    (resolutions controller evidence (pointSites configuration)).map fun entry =>
      entry.2.binding entry.1

/-- The mapping returns, and what it returns is sound. -/
def MapsSoundly (gateway : GatewayDevice) (configuration : Plx50DeviceConfiguration)
    (controller : Controller) : Prop :=
  ∃ evidence next result,
    collectedEvidence db controller configuration.instanceName = .ok evidence ∧
    Converges (fun fuel => applyPlx50LogixMapping db fuel gateway configuration controller)
      (.ok (next, result)) ∧
    Mapped gateway configuration controller evidence next result

/-- Every call stands on a captured line. A point with a sole transfer is below a base tag that
starts with the name of its tag, and the transfer goes the way of the point's type; two of them
differ in the path of base tag, type and name, or in the module operand. -/
structure Supported (configuration : Plx50DeviceConfiguration) (controller : Controller) : Prop where
  onLines : ∀ program ∈ controller.programs.values, ∀ routine ∈ program.routines.values,
    ∀ call ∈ parsedCalls db routine,
      physicalLine routine.structuredText call.span.start < routine.structuredTextLines.length
  rooted : ∀ evidence, collectedEvidence db controller configuration.instanceName = .ok evidence →
    ∀ site ∈ pointSites configuration, ∀ base tag transfer,
      SoleTransfer controller evidence site base tag transfer →
        base.takeWhile (· != '.') = tag.name
  directed : ∀ evidence, collectedEvidence db controller configuration.instanceName = .ok evidence →
    ∀ site ∈ pointSites configuration, ∀ base tag transfer,
      SoleTransfer controller evidence site base tag transfer → Directed site transfer
  distinct : ∀ evidence, collectedEvidence db controller configuration.instanceName = .ok evidence →
    (pointSites configuration).Pairwise fun one other => ∀ base base' tag tag' transfer transfer',
      SoleTransfer controller evidence one base tag transfer →
      SoleTransfer controller evidence other base' tag' transfer' →
      pointPath one base = pointPath other base' →
        transfer.assemblyReference ≠ transfer'.assemblyReference

section

variable {db} {configuration : Plx50DeviceConfiguration} {gateway : GatewayDevice}

theorem collectedEvidence_returns {moduleName : Option Text} :
    (∃ evidence, collectedEvidence db controller moduleName = .ok evidence) ↔
      ∀ program ∈ controller.programs.values, ∀ routine ∈ program.routines.values,
        ∀ call ∈ parsedCalls db routine,
          physicalLine routine.structuredText call.span.start < routine.structuredTextLines.length := by
  have hprogram : ∀ program, (∀ routine ∈ program.routines.values, ∀ call ∈ parsedCalls db routine,
      physicalLine routine.structuredText call.span.start < routine.structuredTextLines.length) ↔
      ∃ sites, programOutcome db program none = .ok sites :=
    fun program => programOutcome_returns.symm
  simp only [hprogram, ← exists_mapM_eq_ok, collectedEvidence, map_eq_ok]
  constructor
  · rintro ⟨_, calls, hcalls, _⟩
    exact ⟨calls, hcalls⟩
  · rintro ⟨calls, hcalls⟩
    exact ⟨_, calls, hcalls, rfl⟩

theorem resolve_transfer
    (h : resolve controller evidence site = some found) : found.transfer ∈ evidence.transfers := by
  have ⟨_, _, base, hsole⟩ := resolve_iff.mp h
  have hmem : found.transfer ∈ containerTransfers evidence site base :=
    hsole.transfers ▸ mem_singleton_self _
  exact mem_of_mem_filter hmem

theorem resolutions_mem {entry : PointSite × Resolution}
    (h : entry ∈ resolutions controller evidence sites) :
    entry.1 ∈ sites ∧ resolve controller evidence entry.1 = some entry.2 := by
  have ⟨site, hsite, hfound⟩ := mem_filterMap.mp h
  have ⟨found, hresolve, hentry⟩ := Option.map_eq_some_iff.mp hfound
  rw [← hentry]
  exact ⟨hsite, hresolve⟩

theorem forall_resolutions {P : PointSite → Tag → Plx50LogixTransfer → Prop} :
    (∀ entry ∈ resolutions controller evidence sites, P entry.1 entry.2.tag entry.2.transfer) ↔
      ∀ site ∈ sites, ∀ base tag transfer,
        SoleTransfer controller evidence site base tag transfer → P site tag transfer := by
  constructor
  · intro h site hsite base tag transfer hsole
    have ⟨station, slot, hresolve⟩ := hsole.resolved
    exact h (site, ⟨station, slot, tag, transfer⟩)
      (mem_filterMap.mpr ⟨site, hsite, by rw [hresolve]; rfl⟩)
  · intro h entry hentry
    have ⟨hsite, hresolve⟩ := resolutions_mem hentry
    have ⟨_, _, base, hsole⟩ := resolve_iff.mp hresolve
    exact h entry.1 hsite base _ _ hsole

theorem rooted_iff :
    (∀ entry ∈ resolutions controller evidence sites,
      (tagPathOf entry.1 entry.2.transfer).takeWhile (· != '.') = entry.2.tag.name) ↔
    ∀ site ∈ sites, ∀ base tag transfer,
      SoleTransfer controller evidence site base tag transfer →
        base.takeWhile (· != '.') = tag.name := by
  rw [@forall_resolutions controller evidence sites fun site tag transfer =>
    (tagPathOf site transfer).takeWhile (· != '.') = tag.name]
  refine forall₂_congr fun site _ => forall₃_congr fun base tag transfer => ?_
  refine forall_congr' fun hsole => ?_
  rw [hsole.path, pointPath_root]

theorem distinct_iff :
    ((resolutions controller evidence sites).Pairwise fun one other =>
      tagPathOf one.1 one.2.transfer ≠ tagPathOf other.1 other.2.transfer ∨
        one.2.transfer.assemblyReference ≠ other.2.transfer.assemblyReference) ↔
    sites.Pairwise fun one other => ∀ base base' tag tag' transfer transfer',
      SoleTransfer controller evidence one base tag transfer →
      SoleTransfer controller evidence other base' tag' transfer' →
      pointPath one base = pointPath other base' →
        transfer.assemblyReference ≠ transfer'.assemblyReference := by
  rw [resolutions, pairwise_filterMap]
  refine Pairwise.iff fun {one other} => ?_
  constructor
  · intro h base base' tag tag' transfer transfer' hone hother hpath
    have ⟨station, slot, hresolve⟩ := hone.resolved
    have ⟨station', slot', hresolve'⟩ := hother.resolved
    have hdiffer := h (one, ⟨station, slot, tag, transfer⟩) (by rw [hresolve]; rfl)
      (other, ⟨station', slot', tag', transfer'⟩) (by rw [hresolve']; rfl)
    exact hdiffer.resolve_left (not_not.mpr (by rw [hone.path, hother.path, hpath]))
  · intro h entry hentry entry' hentry'
    have ⟨found, hresolve, hfound⟩ := Option.map_eq_some_iff.mp hentry
    have ⟨found', hresolve', hfound'⟩ := Option.map_eq_some_iff.mp hentry'
    have ⟨_, _, base, hone⟩ := resolve_iff.mp hresolve
    have ⟨_, _, base', hother⟩ := resolve_iff.mp hresolve'
    rw [← hfound, ← hfound', ← imp_iff_not_or, hone.path, hother.path]
    exact h base base' _ _ _ _ hone hother

theorem distinct_bindings {entries : List (PointSite × Resolution)}
    (h : entries.Pairwise fun one other =>
      tagPathOf one.1 one.2.transfer ≠ tagPathOf other.1 other.2.transfer ∨
        one.2.transfer.assemblyReference ≠ other.2.transfer.assemblyReference) :
    entries.Pairwise fun one other =>
      ¬ SameBinding (one.2.binding one.1) (other.2.binding other.1) := by
  refine h.imp fun {one other} hdiffer hsame => ?_
  have ⟨_, hendpoint, hpath, _⟩ := hsame
  exact hdiffer.elim (fun hne => hne hpath) fun hne => hne hendpoint

theorem distinct_correlations (entries : List (PointSite × Resolution)) :
    ((entries.map fun entry => entry.2.correlation entry.1).map fun item =>
      (item.controllerTagPath, item.assemblyReference)).Nodup ↔
    entries.Pairwise fun one other =>
      tagPathOf one.1 one.2.transfer ≠ tagPathOf other.1 other.2.transfer ∨
        one.2.transfer.assemblyReference ≠ other.2.transfer.assemblyReference := by
  rw [map_map, List.Nodup, pairwise_map]
  refine pairwise_iff_forall_sublist.trans ?_ |>.trans pairwise_iff_forall_sublist.symm
  simp only [Function.comp, Resolution.correlation, correlationOf, ne_eq, Prod.mk.injEq, not_and_or]

theorem mappingOutcome_eq_ok {next : GatewayDevice} {result : Plx50LogixMappingResult}
    (hevidence : collectedEvidence db controller configuration.instanceName = .ok evidence) :
    mappingOutcome db gateway configuration controller = .ok (next, result) ↔
      mapPoints db gateway configuration controller evidence = .ok (next, result) := by
  have hread : mappingOutcome db gateway configuration controller =
      (mapPoints db gateway configuration controller evidence).mapError .refused := by
    rw [mappingOutcome, hevidence]
    rfl
  rw [hread, mapError_eq_ok]

theorem mapPoints_mapped {next : GatewayDevice} {result : Plx50LogixMappingResult}
    (hgateway : Connected gateway)
    (h : mapPoints db gateway configuration controller evidence = .ok (next, result)) :
    Attachable controller evidence (pointSites configuration) gateway.tagBindings ∧
      result.transfers = evidence.transfers ∧
      Run controller evidence (pointSites configuration) { gateway }
        { gateway := { next with protocolMappingStatus := gateway.protocolMappingStatus }
          correlations := result.correlations
          unresolved := result.unresolvedPoints } := by
  unfold mapPoints at h
  simp only [bind_eq_ok, pure_eq_ok, Prod.mk.injEq] at h
  have ⟨mapped, hrun, hnext, hresult⟩ := h
  have ⟨hattachable, hrows⟩ := (mapPoints_run hgateway).1 mapped hrun
  have hkept : ({ next with protocolMappingStatus := gateway.protocolMappingStatus } : GatewayDevice) =
      mapped.gateway := by
    rw [← hnext, hrows.gateway]
    split <;> rfl
  refine ⟨hattachable, ?_, ?_⟩
  · rw [← hresult]
  · rw [hkept, ← hresult]
    exact ⟨hrows.correlations, hrows.unresolved, hrows.gateway⟩

theorem mapsSoundly_iff (hprofibus : ("PROFIBUS DP" : Text) ∈ gateway.interfaceNames)
    (hethernet : ("EtherNet/IP" : Text) ∈ gateway.interfaceNames)
    (hunbound : gateway.tagBindings = []) :
    MapsSoundly db gateway configuration controller ↔ Supported db configuration controller := by
  have hgateway : Connected gateway := ⟨hprofibus, hethernet⟩
  have houtcome := applyPlx50LogixMapping_converges db gateway configuration controller
  constructor
  · intro ⟨evidence, next, result, hevidence, hreturned, hmapped⟩
    have hok := houtcome.unique hreturned
    have ⟨hattachable, _⟩ := mapPoints_mapped hgateway ((mappingOutcome_eq_ok hevidence).mp hok)
    have hdistinct := hmapped.distinct
    rw [hmapped.correlated, distinct_correlations] at hdistinct
    have hsame : ∀ other,
        collectedEvidence db controller configuration.instanceName = .ok other → other = evidence :=
      fun other hother => Except.ok.inj (hother.symm.trans hevidence)
    refine ⟨collectedEvidence_returns.mp ⟨evidence, hevidence⟩, fun other hother => ?_,
      fun other hother => ?_, fun other hother => ?_⟩
    · exact hsame other hother ▸ rooted_iff.mp hattachable.rooted
    · rw [hsame other hother]
      exact (forall_resolutions (P := fun site _ transfer => Directed site transfer)).mp
        fun entry hentry => (hmapped.directed entry hentry).2
    · exact hsame other hother ▸ distinct_iff.mp hdistinct
  · intro hsupported
    have hcollected : ∃ evidence,
        collectedEvidence db controller configuration.instanceName = .ok evidence :=
      collectedEvidence_returns.mpr hsupported.onLines
    have ⟨evidence, hevidence⟩ := hcollected
    have hdistinct := distinct_iff.mpr (hsupported.distinct evidence hevidence)
    have hdirected := (forall_resolutions (P := fun site _ transfer => Directed site transfer)).mpr
      (hsupported.directed evidence hevidence)
    have hattachable : Attachable controller evidence (pointSites configuration) gateway.tagBindings := by
      refine ⟨rooted_iff.mpr (hsupported.rooted evidence hevidence), fun entry _ item hitem => ?_,
        distinct_bindings hdistinct⟩
      rw [hunbound] at hitem
      exact absurd hitem not_mem_nil
    have hruns : ∃ mapped, (pointSites configuration).foldlM (mapPoint db controller evidence)
        { gateway, diagnostics := evidenceFindings db configuration.instanceName evidence } =
          .ok mapped := (mapPoints_run hgateway).2 hattachable
    have ⟨mapped, hrun⟩ := hruns
    have hread : ∃ next result,
        mapPoints db gateway configuration controller evidence = .ok (next, result) := by
      unfold mapPoints
      simp only [bind_eq_ok, pure_eq_ok]
      exact ⟨_, _, mapped, hrun, rfl⟩
    have ⟨next, result, hmap⟩ := hread
    have hok := (mappingOutcome_eq_ok hevidence).mpr hmap
    have ⟨_, htransfers, hrows⟩ := mapPoints_mapped hgateway hmap
    have hcorrelations : result.correlations =
        (resolutions controller evidence (pointSites configuration)).map fun entry =>
          entry.2.correlation entry.1 := hrows.correlations
    refine ⟨evidence, next, result, hevidence, hok ▸ houtcome, htransfers, hcorrelations,
      hrows.unresolved, ?_, fun entry hentry => ⟨?_, ?_⟩, ?_, ?_⟩
    · rw [hcorrelations, distinct_correlations]
      exact hdistinct
    · rw [htransfers]
      exact resolve_transfer (resolutions_mem hentry).2
    · exact hdirected entry hentry
    · have hmappings := congrArg GatewayDevice.protocolMappings hrows.gateway
      rw [hcorrelations, map_map]
      exact hmappings
    · exact congrArg GatewayDevice.tagBindings hrows.gateway

end

end

/-! ### Two points of one name -/

def levelController : Controller where
  tags := .ofItems (·.name) id [{
    name := "Drive"
    dataTypeDefinition := some (.mk [.mk "Input" (some (.mk [.mk "Level" none]))]) }]
  programs := .ofItems (·.name) id [{
    name := "Main"
    routines := .ofItems (·.name) id [{
      name := "Map"
      ladderRungs := [{
        number := some 0
        comment := none
        text := some "MOV(3,Drive.Output.Control.StationNumber)CPS(G:I1.Data[72],Drive.Input,1);" }] }] }]

/-- A station with a point `Level` in each of its slots. -/
def levelConfiguration (slots : List Int) : Plx50DeviceConfiguration where
  instanceName := some "G"
  profibusDevices := [{
    stationAddress := some 3
    slots := slots.map fun slot => {
      slotId := some slot
      dataPoints := [{ dataPointType := some "Input", description := some "Level" }] } }]

def levelGateway : GatewayDevice where
  communicationInterfaces := [⟨"EtherNet/IP", "EtherNet/IP", .adapter, none⟩,
    ⟨"PROFIBUS DP", "PROFIBUS DP", .master, none⟩]

theorem mapsSoundly_iff_single :
    MapsSoundly Ascii.database levelGateway (levelConfiguration [1]) levelController ↔
      Supported Ascii.database (levelConfiguration [1]) levelController :=
  mapsSoundly_iff (by decide) (by decide) rfl

/-- The second point is refused when its protocol mapping is attached already. -/
theorem repeated_point_refused :
    (∃ refusal, Converges (fun fuel => applyPlx50LogixMapping Ascii.database fuel levelGateway
        (levelConfiguration [1, 2]) levelController) (.error (.refused refusal)) ∧
      refusal.error = .duplicateBinding "Drive.Input.Level" ∧
      refusal.gateway.protocolMappings.length = 2 ∧ refusal.gateway.tagBindings.length = 1) ∧
    ¬ MapsSoundly Ascii.database levelGateway (levelConfiguration [1, 2]) levelController := by
  have houtcome := applyPlx50LogixMapping_converges Ascii.database levelGateway
    (levelConfiguration [1, 2]) levelController
  have hrefused : (match mappingOutcome Ascii.database levelGateway (levelConfiguration [1, 2])
      levelController with
      | .error (.refused refusal) => some (refusal.error, refusal.gateway.protocolMappings.length,
          refusal.gateway.tagBindings.length)
      | _ => none) = some (.duplicateBinding "Drive.Input.Level", 2, 1) := by
    decide +kernel
  split at hrefused
  · next refusal hread =>
    rw [Option.some.injEq, Prod.mk.injEq, Prod.mk.injEq] at hrefused
    rw [hread] at houtcome
    refine ⟨⟨refusal, houtcome, hrefused⟩, fun ⟨_, _, _, _, hreturned, _⟩ => ?_⟩
    exact absurd (houtcome.unique hreturned) (by simp)
  · cases hrefused

end TwinForge.Plx50.LogixMapping
