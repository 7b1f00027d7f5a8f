import TwinForge.Plx50.LogixEvidence

/-! # Correlation of PLX50 points with generated Logix mapping logic

A PROFIBUS point is correlated where a single tag of its station has a member of its name and is
copied from or into a module assembly. Every correlation is attached to the gateway as a protocol
mapping and a tag binding.
-/

namespace TwinForge.Plx50.LogixMapping

open Model Guards

/-! ## Candidates -/

def hasMember (dataType : Option Datatype) (containerName memberName : Text) : Bool :=
  match dataType with
  | none => false
  | some dataType =>
    match dataType.members.find? (fun member => member.name = containerName) with
    | none => false
    | some container =>
      match container.dataType with
      | none => false
      | some inner => inner.members.any fun member => member.name = memberName

/-- One turn of the loop of `_point_candidates`. -/
def baseCandidates (controller : Controller) (transfers : List Plx50LogixTransfer)
    (pointType pointName base : Text) : List (Tag × Plx50LogixTransfer) :=
  match controller.tags.get? base with
  | none => []
  | some tag =>
    if hasMember tag.dataTypeDefinition pointType pointName then
      (transfers.filter fun transfer => transfer.controllerTag = base ++ '.' :: pointType).map
        fun transfer => (tag, transfer)
    else []

def pointCandidates (controller : Controller) (baseTags : List Text)
    (transfers : List Plx50LogixTransfer) (pointType pointName : Text) :
    List (Tag × Plx50LogixTransfer) :=
  baseTags.flatMap (baseCandidates controller transfers pointType pointName)

/-! ## Correlations -/

/-- One PROFIBUS point tied to generated Logix tag and assembly evidence. -/
structure Plx50LogixPointCorrelation where
  stationAddress : Int
  slotId : Int
  pointType : Text
  pointName : Text
  dataType : Option Text
  byteLength : Option Int
  profibusReference : Text
  controllerTagPath : Text
  assemblyReference : Text
  copyLength : Int
  evidence : List Text
deriving DecidableEq, Repr

/-- Applied mappings plus unresolved source evidence and diagnostics. -/
structure Plx50LogixMappingResult where
  transfers : List Plx50LogixTransfer
  correlations : List Plx50LogixPointCorrelation
  unresolvedPoints : List Text
  diagnostics : List ConversionDiagnostic
deriving DecidableEq, Repr

def pointTypeOf (site : PointSite) : Text := site.point.dataPointType.getD []

def pointNameOf (site : PointSite) : Text := site.point.description.getD []

def tagPathOf (site : PointSite) (transfer : Plx50LogixTransfer) : Text :=
  transfer.controllerTag ++ '.' :: pointNameOf site

def correlationOf (site : PointSite) (station slot : Int) (transfer : Plx50LogixTransfer) :
    Plx50LogixPointCorrelation where
  stationAddress := station
  slotId := slot
  pointType := pointTypeOf site
  pointName := pointNameOf site
  dataType := site.point.dataFormat
  byteLength := site.point.byteLength
  profibusReference := profibusPointReference site
  controllerTagPath := tagPathOf site transfer
  assemblyReference := transfer.assemblyReference
  copyLength := transfer.copyLength
  evidence := [("generated station assignment for station " : Text) ++ optionalText (some station),
    transfer.sourceText]

def gatewayMapping (item : Plx50LogixPointCorrelation) : GatewayProtocolMapping :=
  let logixReference := item.assemblyReference ++ (" via " : Text) ++ item.controllerTagPath
  let input := item.pointType = ("Input" : Text)
  { sourceInterface := if input then "PROFIBUS DP" else "EtherNet/IP"
    sourceReference := some (if input then item.profibusReference else logixReference)
    targetInterface := if input then "EtherNet/IP" else "PROFIBUS DP"
    targetReference := some (if input then logixReference else item.profibusReference)
    evidence := "PLX50 PSJ point plus generated Logix MOV/CPS mapping"
    metadata :=
      [("profibus_station", .integer item.stationAddress),
       ("profibus_slot", .integer item.slotId),
       ("data_point", .text item.pointName),
       ("controller_tag_path", .text item.controllerTagPath),
       ("assembly_reference", .text item.assemblyReference),
       ("copy_length", .integer item.copyLength)] }

def gatewayTagBinding (item : Plx50LogixPointCorrelation) (tag : Tag) : GatewayTagBinding where
  interfaceName := "EtherNet/IP"
  endpointReference := item.assemblyReference
  tagName := tag.name
  tagPath := item.controllerTagPath
  role := if item.pointType = ("Input" : Text) then .target else .source
  evidence := "PLX50 generated Logix MOV/CPS mapping"

/-! ## The mapping -/

structure Mapping where
  gateway : GatewayDevice
  correlations : List Plx50LogixPointCorrelation := []
  unresolved : List Text := []
  diagnostics : List ConversionDiagnostic := []
deriving DecidableEq, Repr

def Mapping.unresolve (state : Mapping) (site : PointSite) (findings : List ConversionDiagnostic) :
    Mapping :=
  { state with
    unresolved := state.unresolved ++ [profibusPointReference site]
    diagnostics := state.diagnostics ++ findings }

/-- A refusal, with the gateway as it stands then. -/
structure Refusal where
  gateway : GatewayDevice
  error : GatewayError
deriving DecidableEq, Repr

inductive LogixMappingError where
  | calls (error : SoftwareCalls.IndexError)
  | refused (refusal : Refusal)
deriving DecidableEq, Repr

section

variable (db : CharacterDatabase)

/-- Attach a correlation: its mapping first, and then its binding. -/
def attach (state : Mapping) (correlation : Plx50LogixPointCorrelation) (tag : Tag) :
    Except Refusal Mapping := do
  let mapped ← (state.gateway.addProtocolMapping db (gatewayMapping correlation)).mapError
    (Refusal.mk state.gateway)
  let bound ← (mapped.addTagBinding db (gatewayTagBinding correlation tag)).mapError
    (Refusal.mk mapped)
  return { state with gateway := bound, correlations := state.correlations ++ [correlation] }

def mapPoint (controller : Controller) (evidence : Evidence) (state : Mapping) (site : PointSite) :
    Except Refusal Mapping :=
  match site.device.stationAddress, site.slot.slotId with
  | some station, some slot =>
    if pointNameOf site = [] ∨ pointTypeOf site ∉ (["Input", "Output"] : List Text) then
      .ok (state.unresolve site [])
    else
      match pointCandidates controller (evidence.tagsOf station) evidence.transfers
          (pointTypeOf site) (pointNameOf site) with
      | [(tag, transfer)] => attach db state (correlationOf site station slot transfer) tag
      | candidates => .ok (state.unresolve site [mappingWarning
          "plx50_logix_point_mapping_unresolved"
          (profibusPointReference site ++ (" resolved to " : Text) ++ decimal candidates.length ++
            (" generated Logix mapping candidates" : Text)) site.point.description])
  | _, _ => .ok (state.unresolve site [mappingWarning "plx50_logix_profibus_location_unresolved"
      (profibusPointReference site ++ (" has no complete station/slot location" : Text))
      site.point.description])

def mapPoints (gateway : GatewayDevice) (configuration : Plx50DeviceConfiguration)
    (controller : Controller) (evidence : Evidence) :
    Except Refusal (GatewayDevice × Plx50LogixMappingResult) := do
  let mapped ← (pointSites configuration).foldlM (mapPoint db controller evidence)
    { gateway, diagnostics := evidenceFindings db configuration.instanceName evidence }
  return (if mapped.correlations = [] then mapped.gateway
      else { mapped.gateway with protocolMappingStatus := some "partially_evidenced" },
    { transfers := evidence.transfers
      correlations := mapped.correlations
      unresolvedPoints := mapped.unresolved
      diagnostics := mapped.diagnostics })

def applyPlx50LogixMapping (fuel : Nat) (gateway : GatewayDevice)
    (configuration : Plx50DeviceConfiguration) (controller : Controller) :
    Option (Except LogixMappingError (GatewayDevice × Plx50LogixMappingResult)) :=
  (generatedEvidence db fuel controller configuration.instanceName).map fun found => do
    let evidence ← found.mapError .calls
    (mapPoints db gateway configuration controller evidence).mapError .refused

end

end TwinForge.Plx50.LogixMapping
