import TwinForge.Foundation.BasedIntegers
import TwinForge.Foundation.Guards

/-! # CIP infrastructure candidates from EDS paths

The path of an EDS connection is free text. Its items become bytes, the bytes logical
segments, and the segments of an Assembly path read requests.
-/

namespace TwinForge.Eds

open Guards

/-! ## Connections -/

structure EdsConnectionEndpoint where
  declaredSize : Option Int := none
  assemblyReference : Option Text := none
deriving DecidableEq, Repr

structure EdsConnection where
  reference : Text
  originatorToTarget : EdsConnectionEndpoint := {}
  targetToOriginator : EdsConnectionEndpoint := {}
  targetConfigSize : Option Int := none
  targetConfigReference : Option Text := none
  path : Option (List Int)
  pathText : Option Text
deriving DecidableEq, Repr

structure EdsDocument where
  sourcePath : Text
  connections : List EdsConnection
deriving DecidableEq, Repr

/-- `_connection_path`: the items of a path text, where each is hexadecimal. -/
def connectionPath (db : CharacterDatabase) (value : Option Text) : Option (List Int) :=
  match value with
  | none => none
  | some text => (splitWhite db text).mapM (readSigned db readHex)

/-! ## Logical paths -/

inductive EdsLogicalSegmentType where
  | classSegment | instanceSegment | connectionPoint
deriving DecidableEq, Repr

structure EdsLogicalPathSegment where
  segmentType : EdsLogicalSegmentType
  value : Nat
  offset : Nat
  encodedHex : Text
deriving DecidableEq, Repr

/-- Type, width and padding of the segments that are supported. -/
def segmentDefinition (code : UInt8) : Option (EdsLogicalSegmentType × Nat × Nat) :=
  if code = 0x20 then some (.classSegment, 1, 0)
  else if code = 0x21 then some (.classSegment, 2, 1)
  else if code = 0x24 then some (.instanceSegment, 1, 0)
  else if code = 0x25 then some (.instanceSegment, 2, 1)
  else if code = 0x2C then some (.connectionPoint, 1, 0)
  else if code = 0x2D then some (.connectionPoint, 2, 1)
  else none

/-- `bytes.hex()`. -/
def hexText (bytes : List UInt8) : Text := bytes.flatMap (fun byte => Ascii.hexByte byte.toNat)

/-- `int.from_bytes(bytes, "little")`. -/
def littleEndian : List UInt8 → Nat
  | [] => 0
  | byte :: rest => byte.toNat + 256 * littleEndian rest

def segmentMessage (problem : Text) (code : UInt8) (offset : Nat) : Text :=
  problem ++ (" logical path segment 0x" : Text) ++ (hexText [code]).map Char.toUpper ++
    (" at byte " : Text) ++ decimal offset

def decodeFrom (offset : Nat) (path : List UInt8) : Except Text (List EdsLogicalPathSegment) :=
  match path with
  | [] => .ok []
  | code :: rest =>
    match segmentDefinition code with
    | none => .error (segmentMessage "unsupported" code offset)
    | some (segmentType, width, pad) =>
      if rest.length < pad + width then .error (segmentMessage "truncated" code offset)
      else do
        let encoded := code :: rest.take (pad + width)
        let more ← decodeFrom (offset + 1 + pad + width) (rest.drop (pad + width))
        return { segmentType, value := littleEndian ((rest.take (pad + width)).drop pad), offset
                 encodedHex := hexText encoded } :: more
termination_by path.length
decreasing_by
  simp only [List.length_drop, List.length_cons]
  omega

def decodeEdsLogicalPath (path : List UInt8) : Except Text (List EdsLogicalPathSegment) :=
  decodeFrom 0 path

/-! ## Read requests -/

/-- A request for a metadata attribute of an Assembly instance. -/
structure CipInfrastructureReadRequest where
  instanceId : Nat
  attributeId : Nat
  specificationReference : Text
  purpose : Option Text
deriving DecidableEq, Repr

section

variable (db : CharacterDatabase)

def CipInfrastructureReadRequest.validate (request : CipInfrastructureReadRequest) :
    Except Text CipInfrastructureReadRequest := do
  refuse (request.instanceId = 0) "CIP infrastructure instance must be positive"
  refuse (request.specificationReference = [] ∨
      request.specificationReference ≠ db.strip request.specificationReference)
    "specification_reference must be non-empty and trimmed"
  refuse (∃ purpose ∈ request.purpose, purpose = [] ∨ purpose ≠ db.strip purpose)
    "purpose must be non-empty and trimmed when set"
  refuse (request.attributeId = 0) "CIP infrastructure attribute must be positive"
  return request

structure EdsCipInfrastructureCandidate where
  request : CipInfrastructureReadRequest
  connectionReference : Text
  pathPosition : Nat
  segmentType : EdsLogicalSegmentType
  endpointReference : Option Text
  declaredSize : Option Int
deriving DecidableEq, Repr

structure EdsCipInfrastructureDiagnostic where
  connectionReference : Text
  code : Text
  message : Text
  pathHex : Option Text
deriving DecidableEq, Repr

structure EdsCipInfrastructureAssessment where
  sourcePath : Text
  segments : List (Text × List EdsLogicalPathSegment) := []
  candidates : List EdsCipInfrastructureCandidate := []
  diagnostics : List EdsCipInfrastructureDiagnostic := []
deriving DecidableEq, Repr

/-! ## Assessment -/

/-- `bytes(path)`. -/
def bytesOf (path : List Int) : Except Text (List UInt8) := do
  refuse (∃ item ∈ path, ¬ (0 ≤ item ∧ item < 256)) "bytes must be in range(0, 256)"
  return path.map (fun item => UInt8.ofNat item.toNat)

def endpoints (connection : EdsConnection) : List (Option Text × Option Int) :=
  [(connection.targetConfigReference, connection.targetConfigSize),
   (connection.originatorToTarget.assemblyReference, connection.originatorToTarget.declaredSize),
   (connection.targetToOriginator.assemblyReference, connection.targetToOriginator.declaredSize)]

def isInstanceSegment (segment : EdsLogicalPathSegment) : Bool :=
  segment.segmentType ∈ [EdsLogicalSegmentType.instanceSegment, .connectionPoint]

/-- Exactly one class segment, of the Assembly class. -/
def isAssemblyPath (segments : List EdsLogicalPathSegment) : Bool :=
  (segments.filter (·.segmentType = .classSegment)).map (·.value) = [4]

def candidateAt (sourcePath : Text) (connection : EdsConnection)
    (entry : EdsLogicalPathSegment × Nat) : Except Text EdsCipInfrastructureCandidate :=
  let (segment, position) := entry
  let (endpointReference, declaredSize) := ((endpoints connection)[position]?).getD (none, none)
  do
    let request ← CipInfrastructureReadRequest.validate db {
      instanceId := segment.value
      attributeId := 3
      specificationReference := ("EDS " : Text) ++ sourcePath ++ ("; " : Text) ++
        connection.reference ++ (" path segment " : Text) ++ decimal (position + 1)
      purpose := some "read EDS-declared Assembly instance data" }
    return { request, connectionReference := connection.reference, pathPosition := position
             segmentType := segment.segmentType, endpointReference, declaredSize }

def diagnose (assessment : EdsCipInfrastructureAssessment) (connection : EdsConnection)
    (code message : Text) (pathHex : Option Text) : EdsCipInfrastructureAssessment :=
  { assessment with diagnostics := assessment.diagnostics ++
      [{ connectionReference := connection.reference, code, message, pathHex }] }

def assessSegments (assessment : EdsCipInfrastructureAssessment) (connection : EdsConnection)
    (path : List Int) (segments : List EdsLogicalPathSegment) :
    Except Text EdsCipInfrastructureAssessment := do
  let assessment := { assessment with
    segments := assessment.segments ++ [(connection.reference, segments)] }
  if isAssemblyPath segments then
    let candidates ← ((segments.filter isInstanceSegment).zipIdx).mapM
      (candidateAt db assessment.sourcePath connection)
    return { assessment with candidates := assessment.candidates ++ candidates }
  else
    let bytes ← bytesOf path
    return diagnose assessment connection "eds_connection_path_not_assembly"
      "path does not contain exactly one Assembly class segment" (some (hexText bytes))

def assessConnection (assessment : EdsCipInfrastructureAssessment) (connection : EdsConnection) :
    Except Text EdsCipInfrastructureAssessment :=
  match connection.path with
  | none => .ok (diagnose assessment connection "eds_connection_path_unavailable"
      "connection has no decodable hexadecimal path" connection.pathText)
  | some path =>
    match bytesOf path >>= decodeEdsLogicalPath with
    | .ok segments => assessSegments db assessment connection path segments
    | .error message => do
      -- the conversion stands outside the `try` here
      let bytes ← bytesOf path
      return diagnose assessment connection "eds_connection_path_unsupported" message
        (some (hexText bytes))

def assessEdsCipInfrastructure (document : EdsDocument) :
    Except Text EdsCipInfrastructureAssessment :=
  document.connections.foldlM (assessConnection db) { sourcePath := document.sourcePath }

end

end TwinForge.Eds
