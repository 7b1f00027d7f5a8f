import Mathlib.Algebra.GroupWithZero.Nat
import TwinForge.Plx50.GatewayConfiguration

/-! # What becomes of configured data points

Each data point with an interface connection offset contributes to the register map and the
gateway, or to the diagnostics, or to nothing at all. A run adds the contributions in order,
so it accounts for every point exactly when no contribution is empty.
-/

namespace TwinForge.Plx50

open Model Guards List

/-- What a data point adds. -/
structure Contribution where
  points : List ModbusPoint := []
  mappings : List GatewayProtocolMapping := []
  diagnostics : List ConversionDiagnostic := []

def Lowering.add (state : Lowering) (contribution : Contribution) : Lowering where
  gateway := { state.gateway with
    protocolMappings := state.gateway.protocolMappings ++ contribution.mappings }
  registerMap := { state.registerMap with
    points := state.registerMap.points ++ contribution.points }
  diagnostics := state.diagnostics ++ contribution.diagnostics

/-- The quantity of an area covers a length in bytes: single bits, or registers of two. -/
def Covers (area : ModbusArea) (quantity length : Int) : Prop :=
  if ModbusArea.isBits area then quantity = 8 * length else 2 * quantity = length

/-- The data point has an offset that is not zero. -/
def IsConnected (site : PointSite) : Prop :=
  ∃ entered, site.point.interfaceConnectionOffset = some entered ∧ entered ≠ 0

instance (site : PointSite) : Decidable (IsConnected site) :=
  match h : site.point.interfaceConnectionOffset with
  | none => isFalse (by simp [IsConnected, h])
  | some entered =>
    if hzero : entered = 0 then isFalse (by simp [IsConnected, h, hzero])
    else isTrue ⟨entered, h, hzero⟩

/-- One register-map point and one mapping, or one diagnostic. -/
inductive Accounted (convention : ModbusAddressingConvention) (site : PointSite) :
    Contribution → Prop where
  | lowered {entered offset length quantity : Int} {area : ModbusArea} {point : ModbusPoint}
      {mapping : GatewayProtocolMapping}
      (entered_eq : site.point.interfaceConnectionOffset = some entered)
      (length_eq : site.point.byteLength = some length)
      (area_eq : dataPointArea site.point.modbusRegisterType = some area)
      (point_area : point.address.area = area)
      (point_offset : point.address.offset = some offset)
      (point_quantity : point.address.quantity = some quantity)
      (oneBased : convention = .oneBased → offset = entered - 1)
      (zeroBased : convention = .zeroBased → offset = entered)
      (nonnegative : 0 ≤ offset)
      (covers : Covers area quantity length)
      (ends : (mapping.sourceInterface = ("PROFIBUS DP" : Text) ∧
          mapping.targetInterface = ("Modbus TCP" : Text)) ∨
        (mapping.sourceInterface = ("Modbus TCP" : Text) ∧
          mapping.targetInterface = ("PROFIBUS DP" : Text))) :
      Accounted convention site ⟨[point], [mapping], []⟩
  | diagnosed (finding : ConversionDiagnostic) : Accounted convention site ⟨[], [], [finding]⟩

/-- The length fills whole registers, in an area of registers. -/
def Aligned (area : ModbusArea) (length : Int) : Prop :=
  ModbusArea.isBits area = false → length % 2 = 0

/-- A point of a known area has a positive length; if it is aligned, its offset is positive
and the gateway has the PROFIBUS endpoint that its mapping starts or ends at. -/
def Lowerable (gateway : GatewayDevice) (site : PointSite) : Prop :=
  ∀ area, dataPointArea site.point.modbusRegisterType = some area →
    ∃ length, site.point.byteLength = some length ∧ 1 ≤ length ∧
      (Aligned area length → (∃ entered, site.point.interfaceConnectionOffset = some entered ∧
        0 < entered) ∧ ("PROFIBUS DP" : Text) ∈ gateway.interfaceNames)

/-! ## Endpoints -/

variable {name : Text}

section

variable {gateway next : GatewayDevice} {configuration : Plx50DeviceConfiguration}
  {db : CharacterDatabase}

variable {change : CommunicationInterface → CommunicationInterface}

theorem changeInterface_names (h : ∀ interface, (change interface).name = interface.name)
    (interfaces : List CommunicationInterface) :
    (changeInterface name change interfaces).map (·.name) = interfaces.map (·.name) := by
  induction interfaces with
  | nil => rfl
  | cons interface interfaces ih =>
    unfold changeInterface
    split
    · rw [map_cons, map_cons, h]
    · rw [map_cons, map_cons, ih]

theorem withInterface_names (h : ∀ interface, (change interface).name = interface.name) :
    (withInterface gateway name change).interfaceNames = gateway.interfaceNames :=
  changeInterface_names h gateway.communicationInterfaces

theorem configureMode_keeps (db : CharacterDatabase) (gateway : GatewayDevice)
    (configuration : Plx50DeviceConfiguration) :
    (configureMode db gateway configuration).1.interfaceNames = gateway.interfaceNames ∧
      (configureMode db gateway configuration).1.protocolMappings = gateway.protocolMappings := by
  unfold configureMode
  split
  · exact ⟨rfl, rfl⟩
  · split
    · exact ⟨withInterface_names (fun _ => rfl), rfl⟩
    · split <;> exact ⟨rfl, rfl⟩

theorem configured_names (name : Text) (role : CommunicationRole) (address : Option Text) :
    (withInterface gateway name
      (fun interface => { interface with role, address })).interfaceNames =
        gateway.interfaceNames :=
  withInterface_names fun _ => rfl

theorem configureEndpoint_ok (gateway : GatewayDevice) (configuration : Plx50DeviceConfiguration)
    (name protocol : Text) (role : CommunicationRole) :
    ∃ next, configureEndpoint gateway configuration name protocol role = .ok next ∧
      (∀ other, other ∈ next.interfaceNames ↔ other ∈ gateway.interfaceNames ∨ other = name) ∧
      next.protocolMappings = gateway.protocolMappings := by
  unfold configureEndpoint
  cases hfound : findInterface gateway name with
  | none =>
    have habsent : name ∉ gateway.interfaceNames := by
      intro hname
      have ⟨interface, hinterface, hsame⟩ := mem_map.mp hname
      have hnot := List.find?_eq_none.mp hfound interface hinterface
      simp [hsame] at hnot
    have hadded : gateway.addCommunicationInterface { name, protocol, role } =
        .ok { gateway with communicationInterfaces :=
          gateway.communicationInterfaces ++ [{ name, protocol, role }] } := by
      simp only [GatewayDevice.addCommunicationInterface, bind_eq_ok, refuse_eq_ok, exists_unit,
        pure_eq_ok]
      exact ⟨habsent, trivial⟩
    rw [hadded]
    refine ⟨_, rfl, fun other => ?_, rfl⟩
    rw [configured_names]
    simp [GatewayDevice.interfaceNames]
  | some interface =>
    refine ⟨_, rfl, fun other => ?_, rfl⟩
    rw [configured_names]
    constructor
    · exact Or.inl
    · intro h
      cases h with
      | inl hother => exact hother
      | inr hsame =>
        have hname := List.find?_some hfound
        have hmem := mem_map_of_mem (f := CommunicationInterface.name)
          (mem_of_find?_eq_some hfound)
        rw [hsame, ← of_decide_eq_true hname]
        exact hmem

end

/-! ## Built-in registers -/

variable {endpoint : ModbusEndpointConfiguration}

section

variable (db : CharacterDatabase) (configuration : Plx50DeviceConfiguration)

def UnitInRange (endpoint : ModbusEndpointConfiguration) : Prop :=
  ∀ unitId ∈ endpoint.unitId, 0 ≤ unitId ∧ unitId ≤ 255

theorem modbusConfiguration_spec :
    (modbusConfiguration db configuration).1.addressingConvention =
        nativeConvention configuration ∧
      UnitInRange (modbusConfiguration db configuration).1 := by
  unfold modbusConfiguration
  simp only
  split
  · next endpoint hvalid =>
    have ⟨hunit, _, hsame⟩ := ModbusEndpointConfiguration.validate_eq_ok.mp hvalid
    rw [hsame]
    exact ⟨rfl, hunit⟩
  · exact ⟨rfl, fun _ h => nomatch h⟩

variable {db} {configuration}

theorem strip_of_readInt {text : Text} {value : Int} (h : readInt db text = some value) :
    db.strip text ≠ [] := by
  intro hblank
  rw [readInt, hblank] at h
  cases h

theorem nativeInteger_some {entered : Int} {findings : List ConversionDiagnostic}
    (h : nativeInteger db configuration name = (some entered, findings)) :
    ∃ value, configuration.configValue name = some value ∧ db.strip value ≠ [] := by
  unfold nativeInteger at h
  split at h
  · cases h
  · next value hvalue =>
    split at h
    · next hread => exact ⟨value, hvalue, strip_of_readInt hread⟩
    · cases h

theorem configuredModbusPoint_ok (hunit : UnitInRange endpoint) (nativeField name : Text)
    (area : ModbusArea) {quantity : Option Int} (hquantity : ∀ count ∈ quantity, 1 ≤ count)
    (access : ModbusAccess) :
    ∃ step, configuredModbusPoint db configuration endpoint nativeField name area quantity access =
      .ok step := by
  unfold configuredModbusPoint
  split
  · exact ⟨_, rfl⟩
  · next sourceReference hsource =>
    split
    · exact ⟨_, rfl⟩
    · next entered findings hnative =>
      split
      · exact ⟨_, rfl⟩
      · next hknown =>
        simp only
        split
        · exact ⟨_, rfl⟩
        · next hoffset =>
          have ⟨value, hvalue, hstrip⟩ := nativeInteger_some hnative
          rw [hsource, Option.some.injEq] at hvalue
          refine ⟨_, bind_eq_ok.mpr ⟨_, ModbusAddress.validate_eq_ok.mpr
            ⟨hvalue ▸ hstrip, ?_, hquantity, hunit, ?_, rfl⟩, rfl⟩⟩
          · intro offset h
            rw [← Option.some.inj h]
            exact Int.not_lt.mp hoffset
          · exact fun hunknown => absurd hunknown hknown

theorem modbusRegisterMap_ok (db : CharacterDatabase) (configuration : Plx50DeviceConfiguration)
    (hunit : UnitInRange endpoint) (interfaceName : Text) :
    ∃ built findings, modbusRegisterMap db configuration interfaceName endpoint =
      .ok (built, findings) := by
  have hcontrol : ∃ step, masterControlPoint db configuration endpoint = .ok step := by
    unfold masterControlPoint
    split
    · exact configuredModbusPoint_ok hunit _ _ _ (by simp) _
    · exact ⟨_, rfl⟩
  have hstatus : ∃ step, statusPoint db configuration endpoint = .ok step := by
    unfold statusPoint
    simp only
    split
    · exact ⟨_, rfl⟩
    · exact configuredModbusPoint_ok hunit _ _ _ (by simp) _
  have ⟨control, hcontrol⟩ := hcontrol
  have ⟨status, hstatus⟩ := hstatus
  exact ⟨_, _, by rw [modbusRegisterMap, hcontrol, hstatus]; rfl⟩

end

/-! ## Contributions -/

variable {site : PointSite}

section

variable (endpoint : ModbusEndpointConfiguration)

/-- What a data point adds where its endpoints exist. -/
def contribution (site : PointSite) : Contribution :=
  match site.point.interfaceConnectionOffset with
  | none => {}
  | some entered =>
    if entered = 0 then {}
    else match dataPointArea site.point.modbusRegisterType with
      | none => { diagnostics := [warning "plx50_data_point_modbus_area_unresolved"
          "unrecognized PLX50 data-point Modbus register type" site.point.modbusRegisterType] }
      | some area =>
        match modbusQuantity site.point.byteLength area with
        | (none, findings) => { diagnostics := findings }
        | (some quantity, _) =>
          let offset := dataModelOffset endpoint.addressingConvention entered
          if offset < 0 then {}
          else
            { points := [loweredPoint site
                { area, sourceReference := optionalText (some entered), offset := some offset
                  convention := endpoint.addressingConvention, unitId := endpoint.unitId
                  quantity := some quantity }]
              mappings := [loweredMapping site area entered quantity] }

variable {endpoint}

/-- The quantity of a length, if it has one, is positive and covers it; there is a finding
exactly for an odd number of bytes in registers. -/
theorem modbusQuantity_cases (byteLength : Option Int) (area : ModbusArea) :
    (modbusQuantity byteLength area = (none, []) ∧ ∀ length, byteLength = some length → length < 1) ∨
      (∃ length, byteLength = some length ∧ 1 ≤ length ∧ ¬ Aligned area length ∧
        ∃ finding, modbusQuantity byteLength area = (none, [finding])) ∨
      ∃ length quantity, byteLength = some length ∧ 1 ≤ length ∧ Aligned area length ∧
        1 ≤ quantity ∧ Covers area quantity length ∧
        modbusQuantity byteLength area = (some quantity, []) := by
  unfold modbusQuantity
  cases byteLength with
  | none => exact .inl ⟨rfl, fun _ h => nomatch h⟩
  | some length =>
    simp only
    by_cases hshort : length < 1
    · left
      rw [if_pos hshort]
      refine ⟨rfl, fun other h => ?_⟩
      cases h
      exact hshort
    · rw [if_neg hshort]
      right
      cases hbits : ModbusArea.isBits area with
      | true =>
        right
        refine ⟨length, length * 8, rfl, by omega, by simp [Aligned, hbits], by omega, ?_, rfl⟩
        simp only [Covers, hbits, if_true]
        omega
      | false =>
        by_cases hodd : length % 2 ≠ 0
        · left
          refine ⟨length, rfl, by omega, by simpa [Aligned, hbits] using hodd, _, if_pos hodd⟩
        · right
          have heven : length % 2 = 0 := by simpa using hodd
          refine ⟨length, length / 2, rfl, by omega, fun _ => heven, by omega, ?_, ?_⟩
          · simp only [Covers, hbits, Bool.false_eq_true, if_false]
            omega
          · rw [if_neg (by simp), if_neg hodd]

theorem loweredMapping_ends (site : PointSite) (area : ModbusArea) (entered quantity : Int) :
    ((loweredMapping site area entered quantity).sourceInterface = ("PROFIBUS DP" : Text) ∧
        (loweredMapping site area entered quantity).targetInterface = ("Modbus TCP" : Text)) ∨
      ((loweredMapping site area entered quantity).sourceInterface = ("Modbus TCP" : Text) ∧
        (loweredMapping site area entered quantity).targetInterface = ("PROFIBUS DP" : Text)) := by
  unfold loweredMapping
  by_cases hinput : site.point.dataPointType = some ("Input" : Text)
  · left
    simp [hinput]
  · right
    simp [hinput]

/-- What is known of the contribution of a connected point. -/
inductive Outcome (endpoint : ModbusEndpointConfiguration) (site : PointSite) : Prop where
  | lowered {area : ModbusArea} {length : Int}
      (area_eq : dataPointArea site.point.modbusRegisterType = some area)
      (length_eq : site.point.byteLength = some length) (positive : 1 ≤ length)
      (aligned : Aligned area length)
      (offset : ∃ entered, site.point.interfaceConnectionOffset = some entered ∧ 0 < entered)
      (accounted : Accounted endpoint.addressingConvention site (contribution endpoint site))
      (mapped : (contribution endpoint site).mappings ≠ [])
  | reported (finding : ConversionDiagnostic)
      (fails : ∀ area, dataPointArea site.point.modbusRegisterType = some area →
        ∃ length, site.point.byteLength = some length ∧ 1 ≤ length ∧ ¬ Aligned area length)
      (contributes : contribution endpoint site = { diagnostics := [finding] })
  | silent {area : ModbusArea} (area_eq : dataPointArea site.point.modbusRegisterType = some area)
      (fails : ∀ length, site.point.byteLength = some length → 1 ≤ length →
        Aligned area length ∧ ∀ entered, site.point.interfaceConnectionOffset = some entered →
          entered < 0)
      (contributes : contribution endpoint site = {})

theorem outcome_of_connected (endpoint : ModbusEndpointConfiguration)
    (h : IsConnected site) : Outcome endpoint site := by
  have ⟨entered, hentered, hzero⟩ := h
  cases harea : dataPointArea site.point.modbusRegisterType with
  | none =>
    refine .reported _ (fun area h => ?_) (by simp only [contribution, hentered, hzero, harea]; rfl)
    rw [harea] at h
    cases h
  | some area =>
    rcases modbusQuantity_cases site.point.byteLength area with
      hshort | ⟨length, hlength, hpositive, hodd, finding, hquantity⟩ |
      ⟨length, quantity, hlength, hpositive, haligned, hcount, hcovers, hquantity⟩
    · refine .silent harea (fun length hlength hpositive => ?_) ?_
      · have := hshort.2 length hlength
        omega
      · simp only [contribution, hentered, hzero, harea, hshort.1, if_false]
    · refine .reported finding (fun other hother => ?_) ?_
      · rw [harea, Option.some.injEq] at hother
        exact ⟨length, hlength, hpositive, hother ▸ hodd⟩
      · simp only [contribution, hentered, hzero, harea, hquantity, if_false]
    · by_cases hoffset : dataModelOffset endpoint.addressingConvention entered < 0
      · refine .silent harea (fun other hother _ => ?_) ?_
        · rw [hlength, Option.some.injEq] at hother
          refine ⟨hother ▸ haligned, fun value hvalue => ?_⟩
          rw [hentered, Option.some.injEq] at hvalue
          unfold dataModelOffset at hoffset
          split at hoffset <;> omega
        · simp only [contribution, hentered, hzero, harea, hquantity, hoffset, if_false, if_true]
      · have hcontribution : contribution endpoint site = ⟨[loweredPoint site
            { area, sourceReference := optionalText (some entered)
              offset := some (dataModelOffset endpoint.addressingConvention entered)
              convention := endpoint.addressingConvention, unitId := endpoint.unitId
              quantity := some quantity }], [loweredMapping site area entered quantity], []⟩ := by
          simp only [contribution, hentered, hzero, harea, hquantity, hoffset, if_false]
        refine .lowered harea hlength hpositive haligned ⟨entered, hentered, ?_⟩ ?_ ?_
        · unfold dataModelOffset at hoffset
          split at hoffset <;> omega
        · rw [hcontribution]
          refine .lowered hentered hlength harea rfl rfl rfl ?_ ?_ (Int.not_lt.mp hoffset) hcovers
            (loweredMapping_ends site area entered quantity)
          · intro hone
            rw [dataModelOffset, if_pos hone]
          · intro hzeroBased
            rw [dataModelOffset, if_neg (by rw [hzeroBased]; simp)]
        · rw [hcontribution]
          simp

theorem contribution_unconnected (h : ¬ IsConnected site) :
    contribution endpoint site = {} := by
  unfold contribution
  split
  · rfl
  · next entered hentered =>
    rw [if_pos]
    by_contra hzero
    exact h ⟨entered, hentered, hzero⟩


/-- A connected point is accounted for unless it is silent; no point adds two results. -/
def Contribution.weight (contribution : Contribution) : Nat :=
  contribution.points.length + contribution.diagnostics.length

theorem Accounted.weight_eq {convention : ModbusAddressingConvention}
    {contribution : Contribution} (h : Accounted convention site contribution) :
    contribution.weight = 1 := by
  cases h <;> rfl

theorem contribution_weight (site : PointSite) : (contribution endpoint site).weight ≤ 1 := by
  by_cases hconnected : IsConnected site
  · cases outcome_of_connected endpoint hconnected with
    | lowered _ _ _ _ _ haccounted _ => exact Nat.le_of_eq haccounted.weight_eq
    | reported finding _ hcontributes => rw [hcontributes]; exact Nat.le_refl 1
    | silent _ _ hcontributes => rw [hcontributes]; exact Nat.zero_le 1
  · rw [contribution_unconnected hconnected]
    exact Nat.zero_le 1

end

/-! ## Steps -/

section

variable {db : CharacterDatabase} {endpoint : ModbusEndpointConfiguration}

theorem Lowering.add_empty (state : Lowering) : state.add {} = state := by
  simp [Lowering.add]

theorem optionalText_solid (entered : Int) : db.strip (optionalText (some entered)) ≠ [] := by
  have hsolid : ∀ c ∈ optionalText (some entered), db.isSpace c = false := by
    cases entered with
    | ofNat n => exact decimal_solid n
    | negSucc n =>
      intro c hc
      cases mem_cons.mp hc with
      | inl hsign => rw [hsign, db.space_ascii _ (by decide)]; rfl
      | inr hdigit => exact decimal_solid (n + 1) c hdigit
  rw [strip_solid hsolid]
  cases entered with
  | ofNat n => exact Nat.toDigits_ne_nil
  | negSucc n => exact cons_ne_nil _ _

/-- A mapping of a data point is attached exactly where the gateway has both endpoints. -/
theorem loweredMapping_eq_ok {gateway next : GatewayDevice} {area : ModbusArea}
    {entered quantity : Int} :
    gateway.addProtocolMapping db (loweredMapping site area entered quantity) = .ok next ↔
      (("PROFIBUS DP" : Text) ∈ gateway.interfaceNames ∧
        ("Modbus TCP" : Text) ∈ gateway.interfaceNames) ∧
      next = { gateway with protocolMappings :=
        gateway.protocolMappings ++ [loweredMapping site area entered quantity] } := by
  have hevidence : db.strip (loweredMapping site area entered quantity).evidence ≠ [] :=
    strip_ne_nil (by rw [db.space_ascii _ (by decide)]; rfl)
  have hdistinct : ("PROFIBUS DP" : Text) ≠ "Modbus TCP" := by decide
  rw [addProtocolMapping_eq_ok]
  rcases loweredMapping_ends site area entered quantity with ⟨hsource, htarget⟩ | ⟨hsource, htarget⟩
  · rw [hsource, htarget]
    simp only [hevidence, hdistinct, ne_eq, not_false_eq_true, true_and]
  · rw [hsource, htarget, and_comm (a := ("Modbus TCP" : Text) ∈ gateway.interfaceNames)]
    simp only [hevidence, hdistinct.symm, ne_eq, not_false_eq_true, true_and]

/-- One data point adds its contribution, unless an endpoint of its mapping is missing. -/
theorem lowerPoint_eq_ok (hunit : UnitInRange endpoint)
    (hknown : endpoint.addressingConvention ≠ .unknown) {state next : Lowering} :
    lowerPoint db endpoint state site = .ok next ↔
      ((contribution endpoint site).mappings ≠ [] →
        ("PROFIBUS DP" : Text) ∈ state.gateway.interfaceNames ∧
          ("Modbus TCP" : Text) ∈ state.gateway.interfaceNames) ∧
      next = state.add (contribution endpoint site) := by
  have hquiet : ∀ findings, (Except.ok (ε := ConfigurationError)
      { state with diagnostics := state.diagnostics ++ findings } = .ok next ↔
        next = state.add { diagnostics := findings }) := by
    intro findings
    simp only [Lowering.add, append_nil, Except.ok.injEq, @eq_comm _ _ next]
  have hsame : Except.ok (ε := ConfigurationError) state = .ok next ↔ next = state.add {} := by
    rw [state.add_empty, Except.ok.injEq, @eq_comm _ _ next]
  unfold lowerPoint contribution
  cases site.point.interfaceConnectionOffset with
  | none => simp [hsame]
  | some entered =>
    by_cases hzero : entered = 0
    · simp [hzero, hsame]
    · simp only [hzero, hknown, if_false]
      cases dataPointArea site.point.modbusRegisterType with
      | none => simp [hquiet]
      | some area =>
        simp only
        rcases modbusQuantity_cases site.point.byteLength area with
          ⟨hquantity, _⟩ | ⟨length, _, _, _, finding, hquantity⟩ |
          ⟨length, quantity, _, _, _, hcount, _, hquantity⟩
        · simpa [hquantity] using hsame
        · simp [hquantity, hquiet]
        · simp only [hquantity]
          by_cases hoffset : dataModelOffset endpoint.addressingConvention entered < 0
          · simp [hoffset, hsame]
          · rw [if_neg hoffset, if_neg hoffset]
            simp only [bind_eq_ok, mapError_eq_ok, pure_eq_ok, ModbusAddress.validate_eq_ok]
            constructor
            · rintro ⟨address, ⟨_, _, _, _, _, haddress⟩, gateway, hgateway, hnext⟩
              rcases loweredMapping_eq_ok.mp hgateway with ⟨hnames, hadded⟩
              rw [← hnext, haddress, hadded]
              exact ⟨fun _ => hnames, by simp [Lowering.add, ModbusRegisterMap.addPoint]⟩
            · rintro ⟨hnames, hnext⟩
              refine ⟨_, ⟨optionalText_solid entered, ?_, ?_, hunit, ?_, rfl⟩, _,
                loweredMapping_eq_ok.mpr ⟨hnames (by simp), rfl⟩, ?_⟩
              · intro offset h
                rw [← Option.some.inj h]
                exact Int.not_lt.mp hoffset
              · intro count h
                rw [← Option.some.inj h]
                exact hcount
              · exact fun hunknown => absurd hunknown hknown
              · rw [hnext]
                simp [Lowering.add, ModbusRegisterMap.addPoint]

/-! ## Runs -/

/-- What several contributions add up to. -/
def Contribution.total (contributions : List Contribution) : Contribution where
  points := contributions.flatMap (·.points)
  mappings := contributions.flatMap (·.mappings)
  diagnostics := contributions.flatMap (·.diagnostics)

theorem Lowering.add_total (state : Lowering) (contribution : Contribution)
    (contributions : List Contribution) :
    (state.add contribution).add (.total contributions) =
      state.add (.total (contribution :: contributions)) := by
  simp [Lowering.add, Contribution.total, append_assoc]

theorem lowerPoints_eq_ok (hunit : UnitInRange endpoint)
    (hknown : endpoint.addressingConvention ≠ .unknown) {state next : Lowering}
    {sites : List PointSite} :
    sites.foldlM (lowerPoint db endpoint) state = .ok next ↔
      ((∃ site ∈ sites, (contribution endpoint site).mappings ≠ []) →
        ("PROFIBUS DP" : Text) ∈ state.gateway.interfaceNames ∧
          ("Modbus TCP" : Text) ∈ state.gateway.interfaceNames) ∧
      next = state.add (.total (sites.map (contribution endpoint))) := by
  induction sites generalizing state with
  | nil =>
    have hnone : Contribution.total [] = {} := rfl
    rw [map_nil, hnone, state.add_empty]
    simp [@eq_comm _ _ next]
  | cons site sites ih =>
    simp only [foldlM_cons_ok, lowerPoint_eq_ok hunit hknown, ih, map_cons]
    constructor
    · intro ⟨middle, ⟨hhere, hmiddle⟩, hrest, hnext⟩
      rw [hmiddle, Lowering.add_total] at hnext
      rw [hmiddle] at hrest
      refine ⟨?_, hnext⟩
      intro ⟨other, hother, hmapped⟩
      cases mem_cons.mp hother with
      | inl hsame => exact hhere (hsame ▸ hmapped)
      | inr hmem => exact hrest ⟨other, hmem, hmapped⟩
    · intro ⟨hnames, hnext⟩
      refine ⟨_, ⟨fun hmapped => hnames ⟨site, mem_cons_self, hmapped⟩, rfl⟩, ?_, ?_⟩
      · intro ⟨other, hmem, hmapped⟩
        exact hnames ⟨other, mem_cons_of_mem site hmem, hmapped⟩
      · rw [Lowering.add_total]
        exact hnext

end

/-! ## Accounts -/

section

variable (db : CharacterDatabase)

def connectedSites (configuration : Plx50DeviceConfiguration) : List PointSite :=
  (pointSites configuration).filter (fun site => IsConnected site)

/-- The configuration is applied, and what its data points add, after the built-in registers
and the findings about the settings, is one account for each connected point. -/
def PointsAccounted (gateway : GatewayDevice) (configuration : Plx50DeviceConfiguration) : Prop :=
  ∃ next result builtIn mapFindings contributions,
    applyPlx50GatewayConfiguration db gateway configuration = .ok (next, result) ∧
      modbusRegisterMap db configuration "Modbus TCP" (modbusConfiguration db configuration).1 =
        .ok (builtIn, mapFindings) ∧
      List.Forall₂ (Accounted (nativeConvention configuration)) (connectedSites configuration)
        contributions ∧
      result.modbusRegisterMap = some { builtIn with
        points := builtIn.points ++ contributions.flatMap (·.points) } ∧
      next.protocolMappings =
        gateway.protocolMappings ++ contributions.flatMap (·.mappings) ∧
      result.diagnostics = (configureMode db gateway configuration).2 ++
        (modbusConfiguration db configuration).2 ++ mapFindings ++ contributions.flatMap (·.diagnostics)

def addedContribution (configuration : Plx50DeviceConfiguration) : Contribution :=
  .total ((pointSites configuration).map (contribution (modbusConfiguration db configuration).1))

variable {db} {gateway next : GatewayDevice} {configuration : Plx50DeviceConfiguration}
  {result : Plx50GatewayConfigurationResult}

theorem applyModbus_eq (db : CharacterDatabase) (gateway : GatewayDevice)
    (hmodbus : configuration.primaryInterface = some ("ModbusTCPSlave" : Text)) :
    ∃ configured builtIn mapFindings,
      (∀ other, other ∈ configured.interfaceNames ↔
        other ∈ gateway.interfaceNames ∨ other = ("Modbus TCP" : Text)) ∧
      configured.protocolMappings = gateway.protocolMappings ∧
      modbusRegisterMap db configuration "Modbus TCP" (modbusConfiguration db configuration).1 =
        .ok (builtIn, mapFindings) ∧
      applyPlx50GatewayConfiguration db gateway configuration = (do
        let lowered ← lowerProfibusModbusMappings db configuration
          (modbusConfiguration db configuration).1
          ⟨configured, builtIn, (configureMode db gateway configuration).2 ++
            (modbusConfiguration db configuration).2 ++ mapFindings⟩
        return (lowered.gateway, {
          primaryInterface := findInterface lowered.gateway "Modbus TCP"
          modbusRegisterMap := some lowered.registerMap
          diagnostics := lowered.diagnostics })) := by
  have hdefinition : endpointDefinition configuration.primaryInterface =
      some (("Modbus TCP" : Text), ("Modbus TCP" : Text), .server) := by
    rw [hmodbus]
    rfl
  have ⟨hmodeNames, hmodeMappings⟩ := configureMode_keeps db gateway configuration
  have ⟨configured, hconfigured, hnames, hmappings⟩ := configureEndpoint_ok
    (configureMode db gateway configuration).1 configuration "Modbus TCP" "Modbus TCP" .server
  have ⟨builtIn, mapFindings, hbuilt⟩ := modbusRegisterMap_ok db configuration
    (modbusConfiguration_spec db configuration).2 "Modbus TCP"
  refine ⟨configured, builtIn, mapFindings, ?_, hmappings.trans hmodeMappings, hbuilt, ?_⟩
  · rw [← hmodeNames]
    exact hnames
  · unfold applyPlx50GatewayConfiguration
    simp only [hdefinition, hconfigured, hbuilt]
    rfl

/-- A Modbus configuration is applied unless a data point needs the PROFIBUS endpoint and the
gateway has none. -/
theorem applyModbus_eq_ok (db : CharacterDatabase) (gateway : GatewayDevice)
    (hmodbus : configuration.primaryInterface = some ("ModbusTCPSlave" : Text))
    (hknown : nativeConvention configuration ≠ .unknown) :
    ∃ builtIn mapFindings,
      modbusRegisterMap db configuration "Modbus TCP" (modbusConfiguration db configuration).1 =
        .ok (builtIn, mapFindings) ∧
      ((∃ applied, applyPlx50GatewayConfiguration db gateway configuration = .ok applied) ↔
        ((∃ site ∈ pointSites configuration,
            (contribution (modbusConfiguration db configuration).1 site).mappings ≠ []) →
          ("PROFIBUS DP" : Text) ∈ gateway.interfaceNames)) ∧
      ∀ next result, applyPlx50GatewayConfiguration db gateway configuration = .ok (next, result) →
        result.modbusRegisterMap = some { builtIn with
          points := builtIn.points ++ (addedContribution db configuration).points } ∧
        next.protocolMappings =
          gateway.protocolMappings ++ (addedContribution db configuration).mappings ∧
        result.diagnostics = (configureMode db gateway configuration).2 ++
          (modbusConfiguration db configuration).2 ++ mapFindings ++
          (addedContribution db configuration).diagnostics := by
  have ⟨hconvention, hunit⟩ := modbusConfiguration_spec db configuration
  rw [← hconvention] at hknown
  have ⟨configured, builtIn, mapFindings, hnames, hmappings, hbuilt, happly⟩ :=
    applyModbus_eq db gateway hmodbus
  have hprofibus : ("PROFIBUS DP" : Text) ∈ configured.interfaceNames ↔
      ("PROFIBUS DP" : Text) ∈ gateway.interfaceNames := by
    rw [hnames, or_iff_left (by decide)]
  have hserver : ("Modbus TCP" : Text) ∈ configured.interfaceNames := (hnames _).mpr (.inr rfl)
  refine ⟨builtIn, mapFindings, hbuilt, ?_, ?_⟩
  · simp only [happly, lowerProfibusModbusMappings, bind_eq_ok, pure_eq_ok,
      lowerPoints_eq_ok hunit hknown, hprofibus, hserver, and_true]
    constructor
    · intro ⟨_, _, ⟨_, ⟨hprofibus, _⟩, _⟩, _⟩
      exact hprofibus
    · intro hprofibus
      exact ⟨_, _, ⟨_, ⟨hprofibus, rfl⟩, rfl⟩, rfl⟩
  · intro next result happlied
    simp only [happly, lowerProfibusModbusMappings, bind_eq_ok, pure_eq_ok,
      lowerPoints_eq_ok hunit hknown] at happlied
    have ⟨finished, ⟨lowered, ⟨_, hlowered⟩, hfinished⟩, hresult⟩ := happlied
    have ⟨hnext, hresult⟩ := Prod.mk.inj hresult
    have hkept : finished.gateway.protocolMappings = lowered.gateway.protocolMappings := by
      rw [← hfinished]
      dsimp only
      split <;> rfl
    rw [← hnext, ← hresult, hkept, ← hfinished, hlowered]
    simp only [Lowering.add, hmappings]
    exact ⟨rfl, rfl, rfl⟩

theorem total_weight (contributions : List Contribution) :
    (Contribution.total contributions).weight = (contributions.map Contribution.weight).sum := by
  induction contributions with
  | nil => rfl
  | cons contribution contributions ih =>
    rw [map_cons, sum_cons, ← ih]
    simp only [Contribution.total, Contribution.weight, flatMap_cons, length_append]
    omega

/-- Weights of at most one that add up to the number of the marked items, none elsewhere, are
one on every marked item. -/
theorem weight_of_marked {Item : Type} {weight : Item → Nat} {marked : Item → Prop}
    [DecidablePred marked] {items : List Item} (hle : ∀ item, weight item ≤ 1)
    (hnone : ∀ item, ¬ marked item → weight item = 0)
    (hsum : (items.map weight).sum = (items.filter (fun item => marked item)).length) :
    ∀ item ∈ items, marked item → weight item = 1 := by
  have hbound : ∀ items : List Item,
      (items.map weight).sum ≤ (items.filter (fun item => marked item)).length := by
    intro items
    induction items with
    | nil => exact Nat.le_refl 0
    | cons item items ih =>
      rw [map_cons, sum_cons]
      by_cases hmarked : marked item
      · have := hle item
        simp only [filter_cons, hmarked, decide_true, if_true, length_cons]
        omega
      · have := hnone item hmarked
        simp only [filter_cons, hmarked, decide_false, Bool.false_eq_true, if_false]
        omega
  induction items with
  | nil => exact fun _ h => absurd h not_mem_nil
  | cons item items ih =>
    have := hbound items
    have := hle item
    rw [map_cons, sum_cons] at hsum
    by_cases hmarked : marked item
    · simp only [filter_cons, hmarked, decide_true, if_true, length_cons] at hsum
      intro other hother hmark
      cases mem_cons.mp hother with
      | inl hsame => rw [hsame]; omega
      | inr hmem => exact ih (by omega) other hmem hmark
    · have hzero := hnone item hmarked
      simp only [filter_cons, hmarked, decide_false, Bool.false_eq_true, if_false] at hsum
      intro other hother hmark
      cases mem_cons.mp hother with
      | inl hsame => exact absurd (hsame ▸ hmark) hmarked
      | inr hmem => exact ih (by omega) other hmem hmark

theorem accounted_weight {convention : ModbusAddressingConvention} {sites : List PointSite}
    {contributions : List Contribution}
    (h : List.Forall₂ (Accounted convention) sites contributions) :
    (Contribution.total contributions).weight = sites.length := by
  rw [total_weight]
  induction h with
  | nil => rfl
  | cons haccounted _ ih =>
    rw [map_cons, sum_cons, ih, haccounted.weight_eq, length_cons, Nat.add_comm]

theorem total_connected (endpoint : ModbusEndpointConfiguration) (sites : List PointSite) :
    Contribution.total (sites.map (contribution endpoint)) =
      .total ((sites.filter (fun site => IsConnected site)).map (contribution endpoint)) := by
  induction sites with
  | nil => rfl
  | cons site sites ih =>
    by_cases hconnected : IsConnected site
    · simp only [filter_cons, hconnected, decide_true, if_true, map_cons]
      simp only [Contribution.total, flatMap_cons, Contribution.mk.injEq] at ih ⊢
      rw [ih.1, ih.2.1, ih.2.2]
      exact ⟨rfl, rfl, rfl⟩
    · simp only [filter_cons, hconnected, decide_false, Bool.false_eq_true, if_false]
      rw [map_cons, contribution_unconnected hconnected, ← ih]
      simp [Contribution.total]

theorem lowerable_of_weight (hconnected : IsConnected site)
    (hweight : (contribution endpoint site).weight = 1)
    (hprofibus : (contribution endpoint site).mappings ≠ [] →
      ("PROFIBUS DP" : Text) ∈ gateway.interfaceNames) : Lowerable gateway site := by
  intro area harea
  cases outcome_of_connected endpoint hconnected with
  | lowered _ hlength hpositive _ hoffset _ hmapped =>
    exact ⟨_, hlength, hpositive, fun _ => ⟨hoffset, hprofibus hmapped⟩⟩
  | reported _ hfails _ =>
    have ⟨length, hlength, hpositive, hodd⟩ := hfails area harea
    exact ⟨length, hlength, hpositive, fun haligned => absurd haligned hodd⟩
  | silent _ _ hcontributes =>
    rw [hcontributes] at hweight
    cases hweight

theorem accounted_of_lowerable (hconnected : IsConnected site) (h : Lowerable gateway site) :
    Accounted endpoint.addressingConvention site (contribution endpoint site) ∧
      ((contribution endpoint site).mappings ≠ [] →
        ("PROFIBUS DP" : Text) ∈ gateway.interfaceNames) := by
  cases outcome_of_connected endpoint hconnected with
  | lowered harea hlength hpositive haligned _ haccounted _ =>
    have ⟨length, hsame, _, hneeds⟩ := h _ harea
    rw [hlength, Option.some.injEq] at hsame
    exact ⟨haccounted, fun _ => (hneeds (hsame ▸ haligned)).2⟩
  | reported finding _ hcontributes =>
    rw [hcontributes]
    exact ⟨.diagnosed finding, fun hmapped => absurd rfl hmapped⟩
  | silent harea hfails _ =>
    have ⟨length, hlength, hpositive, hneeds⟩ := h _ harea
    have ⟨haligned, hnegative⟩ := hfails length hlength hpositive
    have ⟨entered, hentered, hoffset⟩ := (hneeds haligned).1
    have := hnegative entered hentered
    omega

theorem mem_connectedSites :
    site ∈ connectedSites configuration ↔ site ∈ pointSites configuration ∧ IsConnected site := by
  simp [connectedSites]

section

variable (hmodbus : configuration.primaryInterface = some ("ModbusTCPSlave" : Text))
  (hknown : nativeConvention configuration ≠ .unknown)
include hmodbus hknown

theorem lowerable_of_pointsAccounted : PointsAccounted db gateway configuration →
    ∀ site ∈ connectedSites configuration, Lowerable gateway site := by
  have ⟨_, hunit⟩ := modbusConfiguration_spec db configuration
  have ⟨builtIn, mapFindings, hbuilt, happlied, hadded⟩ :=
    applyModbus_eq_ok db gateway hmodbus hknown
  intro ⟨next, result, built, findings, contributions, hrun, hmap, haccounted, hpoints, _,
    hdiagnostics⟩ site hsite
  rw [hbuilt, Except.ok.injEq, Prod.mk.injEq] at hmap
  have ⟨haddedPoints, _, haddedDiagnostics⟩ := hadded next result hrun
  have hsamePoints : contributions.flatMap (·.points) =
      (addedContribution db configuration).points := by
    rw [hpoints, ← hmap.1] at haddedPoints
    exact append_cancel_left (congrArg ModbusRegisterMap.points
      (Option.some.inj haddedPoints))
  have hsameDiagnostics : contributions.flatMap (·.diagnostics) =
      (addedContribution db configuration).diagnostics := by
    rw [hdiagnostics, ← hmap.2] at haddedDiagnostics
    exact append_cancel_left haddedDiagnostics
  have hweights := accounted_weight haccounted
  have htotal : (Contribution.total contributions).weight =
      (addedContribution db configuration).weight := by
    rw [Contribution.weight, Contribution.weight, ← hsamePoints, ← hsameDiagnostics]
    rfl
  rw [htotal, addedContribution, total_weight, map_map] at hweights
  have ⟨hmem, hmarked⟩ := mem_connectedSites.mp hsite
  have hweight := weight_of_marked contribution_weight
    (fun site hnot => by
      show (contribution _ site).weight = 0
      rw [contribution_unconnected hnot]
      rfl)
    hweights site hmem hmarked
  exact lowerable_of_weight hmarked hweight fun hmapped =>
    happlied.mp ⟨_, hrun⟩ ⟨site, hmem, hmapped⟩

theorem pointsAccounted_of_lowerable :
    (∀ site ∈ connectedSites configuration, Lowerable gateway site) →
      PointsAccounted db gateway configuration := by
  have ⟨hconvention, hunit⟩ := modbusConfiguration_spec db configuration
  have ⟨builtIn, mapFindings, hbuilt, happlied, hadded⟩ :=
    applyModbus_eq_ok db gateway hmodbus hknown
  intro hlowerable
  have hneeds : ∀ site ∈ pointSites configuration,
      (contribution (modbusConfiguration db configuration).1 site).mappings ≠ [] →
        ("PROFIBUS DP" : Text) ∈ gateway.interfaceNames := by
    intro site hsite hmapped
    have hmarked : IsConnected site := by
      by_contra hnot
      rw [contribution_unconnected hnot] at hmapped
      exact hmapped rfl
    exact (accounted_of_lowerable hmarked (hlowerable site (mem_connectedSites.mpr ⟨hsite, hmarked⟩))).2
      hmapped
  have ⟨⟨next, result⟩, hrun⟩ := happlied.mpr fun ⟨site, hsite, hmapped⟩ =>
    hneeds site hsite hmapped
  have haddedRun := hadded next result hrun
  rw [addedContribution, total_connected] at haddedRun
  refine ⟨next, result, builtIn, mapFindings, (connectedSites configuration).map
    (contribution (modbusConfiguration db configuration).1), hrun, hbuilt, ?_, haddedRun⟩
  rw [forall₂_map_right_iff, forall₂_same, ← hconvention]
  intro site hsite
  exact (accounted_of_lowerable (mem_connectedSites.mp hsite).2 (hlowerable site hsite)).1

end

/-- Every connected data point is accounted for exactly when each of them can be lowered. -/
theorem pointsAccounted_iff (gateway : GatewayDevice)
    (hmodbus : configuration.primaryInterface = some ("ModbusTCPSlave" : Text))
    (hknown : nativeConvention configuration ≠ .unknown) :
    PointsAccounted db gateway configuration ↔
      ∀ site ∈ connectedSites configuration, Lowerable gateway site :=
  ⟨lowerable_of_pointsAccounted hmodbus hknown, pointsAccounted_of_lowerable hmodbus hknown⟩

def profibusGateway : GatewayDevice where
  communicationInterfaces := [{ name := "PROFIBUS DP", protocol := "PROFIBUS DP" }]

def holdingRegisterInput (byteLength : Option Int) : Plx50DeviceConfiguration where
  primaryInterface := some ("ModbusTCPSlave" : Text)
  configAttributes := [("ModbusAddressOffset", "PLC")]
  profibusDevices := [{ stationAddress := some 3, slots := [{ slotId := some 1, dataPoints :=
    [{ dataPointType := some ("Input" : Text), byteLength
       modbusRegisterType := some ("HR" : Text), interfaceConnectionOffset := some 101 }] }] }]

theorem pointsAccounted_even :
    PointsAccounted Ascii.database profibusGateway (holdingRegisterInput (some 4)) := by
  refine (pointsAccounted_iff profibusGateway rfl (by decide)).mpr ?_
  intro site hsite area _
  have hpoint : site.point.byteLength = some 4 ∧
      site.point.interfaceConnectionOffset = some 101 := by
    have hone : ∀ site ∈ connectedSites (holdingRegisterInput (some 4)),
        site.point.byteLength = some 4 ∧ site.point.interfaceConnectionOffset = some 101 := by
      decide
    exact hone site hsite
  exact ⟨4, hpoint.1, by omega, fun _ => ⟨⟨101, hpoint.2, by omega⟩, by decide⟩⟩

/-- A data point without a length is left out silently. -/
theorem pointsAccounted_silent :
    ¬ ∀ (gateway : GatewayDevice) (configuration : Plx50DeviceConfiguration),
      configuration.primaryInterface = some ("ModbusTCPSlave" : Text) →
      nativeConvention configuration ≠ .unknown →
      PointsAccounted Ascii.database gateway configuration := by
  intro hall
  have haccounted := hall profibusGateway (holdingRegisterInput none) rfl (by decide)
  have hlowerable := lowerable_of_pointsAccounted rfl (by decide) haccounted
    ((pointSites (holdingRegisterInput none)).head (by decide)) (by decide)
  have ⟨_, hlength, _⟩ := hlowerable .holdingRegisters (by decide)
  cases hlength

end

end TwinForge.Plx50
