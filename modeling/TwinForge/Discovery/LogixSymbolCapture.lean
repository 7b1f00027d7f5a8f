import TwinForge.Discovery.LogixSymbolCodec
import TwinForge.Foundation.Integers

/-! # Capture of symbol pages

A transport reads one page of symbols for each cursor and remembers the programs it has seen; an
executor follows the cursors within the budget of its plan. `isIpv6` reads addresses that are
no IPv4 literals.
-/

namespace TwinForge.Discovery

open Guards

/-! ## Targets and routes -/

/-- A decimal octet without leading zeros. -/
def readOctet (text : Text) : Option Nat :=
  if text = [] ∨ 3 < text.length ∨ (text.length ≠ 1 ∧ text.head? = some '0') then none
  else (digitsValue text).filter (· ≤ 255)

def readIpv4 (address : Text) : Option (Nat × Nat × Nat × Nat) :=
  match (address.splitOn '.').mapM readOctet with
  | some [first, second, third, fourth] => some (first, second, third, fourth)
  | _ => none

/-- RFC 1918, loopback and link-local addresses. -/
def isPermittedLocalAddress (address : Nat × Nat × Nat × Nat) : Bool :=
  address.1 = 10 || (address.1 = 172 && 16 ≤ address.2.1 && address.2.1 < 32) ||
    (address.1 = 192 && address.2.1 = 168) || address.1 = 127 ||
    (address.1 = 169 && address.2.1 = 254)

def validateLiveCipTargetAddress (isIpv6 : Text → Bool) (target : DiscoveryTarget) :
    Except CaptureFailure Unit :=
  match readIpv4 target.address with
  | none =>
    if isIpv6 target.address then
      .error (providerFailure "cip_ipv4_literal_required"
        "live CIP discovery currently supports IPv4 only")
    else
      .error (providerFailure "cip_ipv4_literal_required"
        "live CIP discovery requires an IPv4 address literal")
  | some address =>
    refuse (isPermittedLocalAddress address = false)
      (providerFailure "cip_public_target_rejected"
        (("public target " : Text) ++ target.address ++
          (" is not permitted by the local-only policy" : Text)))

/-- The port and the link of a segment, as the driver's path has them. -/
def logixPathParts (segment : CipRouteSegment) : Except CaptureFailure (List Text) :=
  match segment.link with
  | .bytes _ _ => .error (.value "LogixDriver path does not accept binary route links")
  | .integer value => .ok [decimal segment.port, decimal value]
  | .text value _ => do
    refuse ('/' ∈ value ∨ ',' ∈ value ∨ '\\' ∈ value)
      (.value "LogixDriver text route links must not contain separators")
    pure [decimal segment.port, value]

section

variable {db : CharacterDatabase}

def pycomm3LogixPath (route : CipRouteDeclaration db) : Except CaptureFailure Text := do
  let parts ← route.segments.mapM logixPathParts
  pure (joinText "/" (route.gateway.address :: parts.flatten))

/-! ## Plans -/

structure CipSoftwareInventoryPlan (db : CharacterDatabase) where
  target : DiscoveryTarget
  authorizationReference : Text
  capabilities : List CipSoftwareInventoryCapability
  maximumRequests : Nat
  route : Option (CipRouteDeclaration db) := none
  capabilities_nonempty : capabilities ≠ []
  capabilities_nodup : capabilities.Nodup
  capabilities_sorted :
    sortedBy (compareOn CipSoftwareInventoryCapability.value) capabilities = capabilities
  budget_pos : 0 < maximumRequests
  gateway : ∀ declared ∈ route, declared.gateway.key = target.key

/-! ## Cursors -/

inductive SymbolScope where
  | controller | program
  deriving DecidableEq, Repr

def SymbolScope.value : SymbolScope → Text
  | .controller => "controller"
  | .program => "program"

/-- Where a page starts; the program is the number of a remembered one. -/
structure SymbolCursor where
  scope : SymbolScope
  programIndex : Int
  startInstance : Int
  deriving DecidableEq, Repr

def encodeCursor (cursor : SymbolCursor) : Text :=
  cursor.scope.value ++ ':' :: (Json.writeInt cursor.programIndex ++
    ':' :: Json.writeInt cursor.startInstance)

/-- `cursor.split(":", maxsplit=2)` into three parts. -/
def splitCursor (cursor : Text) : Option (Text × Text × Text) :=
  match cursor.dropWhile (· ≠ ':') with
  | [] => none
  | _ :: rest =>
    match rest.dropWhile (· ≠ ':') with
    | [] => none
    | _ :: last => some (cursor.takeWhile (· ≠ ':'), rest.takeWhile (· ≠ ':'), last)

/-- `urllib.parse.quote(text)`. -/
def quoteText (text : Text) : Text :=
  (encodeUtf8 text).flatMap fun byte =>
    let c := Char.ofNat byte.toNat
    if byte.toNat < 128 ∧ (c.isAlphanum = true ∨ c ∈ ['_', '.', '-', '~', '/']) then [c]
    else '%' :: (Ascii.hexByte byte.toNat).map Char.toUpper

variable (db) in
def decodeCursor (cursor : Option Text) : Except CaptureFailure SymbolCursor :=
  match cursor with
  | none => .ok ⟨.controller, 0, 0⟩
  | some cursor =>
    let invalid := providerFailure "logix_symbol_cursor_invalid"
      (("invalid Logix Symbol cursor: " : Text) ++ quoteText cursor)
    match splitCursor cursor with
    | none => .error invalid
    | some (scope, programIndex, startInstance) =>
      match readInt db programIndex, readInt db startInstance with
      | some programIndex, some startInstance =>
        if scope = SymbolScope.controller.value then
          .ok ⟨.controller, programIndex, startInstance⟩
        else if scope = SymbolScope.program.value then
          .ok ⟨.program, programIndex, startInstance⟩
        else .error invalid
      | _, _ => .error invalid

/-! ## The transport -/

/-- One connected request; its path is the class and the instance. -/
structure GenericMessage where
  service : Nat
  classCode : Nat
  startInstance : Nat
  requestData : List UInt8
  deriving DecidableEq, Repr

inductive DriverResult where
  | notOpened
  | noPacket (error : Text)
  | packet (payload : List UInt8) (status : Nat)
  deriving DecidableEq, Repr

structure LogixSymbolTransport where
  includeExternalAccess : Bool := true
  programs : List Text := []
  deriving DecidableEq, Repr

structure CipSoftwareInventoryPage (db : CharacterDatabase) where
  items : List (CipSoftwareInventoryItem db)
  nextCursor : Option Text := none

/-- `items[index]`, from the end for a negative index. -/
def itemAt {Item : Type} (items : List Item) (index : Int) : Option Item :=
  if 0 ≤ index then items[index.toNat]?
  else if -index ≤ items.length then items[(items.length + index).toNat]? else none

def announcedProgram (name : Text) : Option Text :=
  if ("Program:" : Text).isPrefixOf name then some (name.drop 8) else none

def rememberProgram (programs : List Text) (name : Text) : List Text :=
  if name ∈ programs then programs else programs ++ [name]

def rememberPrograms (programs : List Text) (records : List LogixSymbolRecord) : List Text :=
  (records.filterMap fun record => announcedProgram record.name).foldl rememberProgram programs

/-- Routines and tags live in the scopes of programs too. -/
def programScopesRequired (capabilities : List CipSoftwareInventoryCapability) : Prop :=
  .routines ∈ capabilities ∨ .tagDefinitions ∈ capabilities

instance (capabilities : List CipSoftwareInventoryCapability) :
    Decidable (programScopesRequired capabilities) :=
  inferInstanceAs (Decidable (_ ∨ _))

def nextCursor (cursor : SymbolCursor) (numericCursor : Option Int) (programs : List Text)
    (capabilities : List CipSoftwareInventoryCapability) : Option SymbolCursor :=
  match numericCursor with
  | some startInstance => some { cursor with startInstance }
  | none =>
    match cursor.scope with
    | .controller =>
      if programScopesRequired capabilities ∧ programs ≠ [] then some ⟨.program, 0, 0⟩
      else none
    | .program =>
      if cursor.programIndex + 1 < programs.length then
        some ⟨.program, cursor.programIndex + 1, 0⟩
      else none

section

variable (isIpv6 : Text → Bool) (unicodeError : List UInt8 → Text)

def cursorProgram (transport : LogixSymbolTransport) (cursor : SymbolCursor) :
    Except CaptureFailure (Option Text) :=
  match cursor.scope with
  | .controller => .ok none
  | .program =>
    match itemAt transport.programs cursor.programIndex with
    | some program => .ok (some program)
    | none =>
      .error (providerFailure "logix_symbol_cursor_invalid"
        "Logix Symbol cursor references an unknown program scope")

def symbolMessage (transport : LogixSymbolTransport) (startInstance : Nat) : GenericMessage where
  service := getInstanceAttributeList
  classCode := logixSymbolClass
  startInstance := startInstance
  requestData := symbolRequestData transport.includeExternalAccess

def readInventoryPage (driver : GenericMessage → DriverResult) (transport : LogixSymbolTransport)
    (plan : CipSoftwareInventoryPlan db) (cursor : Option Text) :
    Except CaptureFailure (CipSoftwareInventoryPage db × LogixSymbolTransport) := do
  validateLiveCipTargetAddress isIpv6 plan.target
  match plan.route with
  | none =>
    .error (providerFailure "logix_symbol_route_required"
      "the experimental Logix Symbol transport requires a route")
  | some route =>
    let cursor ← decodeCursor db cursor
    let scopeProgram ← cursorProgram transport cursor
    refuse (cursor.startInstance < 0)
      (.value "start_instance must be a non-negative integer")
    let _path ← pycomm3LogixPath route
    match driver (symbolMessage transport cursor.startInstance.toNat) with
    | .notOpened =>
      .error (providerFailure "logix_symbol_connection_failed"
        (("pycomm3 could not connect to " : Text) ++ plan.target.address))
    | .noPacket error =>
      .error (providerFailure "logix_symbol_invalid_reply"
        (if error = [] then "pycomm3 returned no Symbol page packet" else error))
    | .packet payload status =>
      let decoded ← decodeLogixSymbolPage unicodeError payload status plan.capabilities
        scopeProgram transport.includeExternalAccess
      let programs :=
        match cursor.scope with
        | .controller => rememberPrograms transport.programs decoded.records
        | .program => transport.programs
      let next := nextCursor cursor (decoded.nextCursor.bind (readInt db)) programs
        plan.capabilities
      pure (⟨decoded.items, next.map encodeCursor⟩, { transport with programs })

/-! ## The executor -/

structure CaptureState (db : CharacterDatabase) where
  transport : LogixSymbolTransport
  used : Nat := 0
  items : List (CipSoftwareInventoryItem db) := []
  seen : List Text := []
  cursor : Option Text := none

def budgetExceeded : CaptureFailure :=
  providerFailure "cip_software_request_budget_exceeded"
    "software inventory request budget is exhausted"

/-- The pages from a cursor on, with what is left of the budget; `wire` answers the requests by
their numbers. -/
def capturePages (wire : Nat → GenericMessage → DriverResult) (plan : CipSoftwareInventoryPlan db) :
    Nat → CaptureState db → Except CaptureFailure (CaptureState db)
  | 0, _ => .error budgetExceeded
  | budget + 1, state => do
    let (page, transport) ← readInventoryPage isIpv6 unicodeError (wire state.used)
      state.transport plan state.cursor
    refuse (∃ item ∈ page.items, item.capability ∉ plan.capabilities)
      (providerFailure "cip_software_unrequested_evidence"
        "provider returned an item outside the requested plan")
    let state := { state with
      transport
      used := state.used + 1
      items := state.items ++ page.items }
    match page.nextCursor with
    | none => pure state
    | some cursor =>
      refuse (cursor ∈ state.seen)
        (providerFailure "cip_software_cursor_repeated"
          "software inventory provider repeated a page cursor")
      capturePages wire plan budget
        { state with
          seen := state.seen ++ [cursor]
          cursor := some cursor }

def compareItems : CipSoftwareInventoryItem db → CipSoftwareInventoryItem db → Ordering :=
  compareLex (compareOn fun item => item.capability.value)
    (compareLex (compareOn fun item => item.parent.getD []) (compareOn fun item => item.name))

def supportedCapabilities : List CipSoftwareInventoryCapability :=
  [.programs, .routines, .tagDefinitions, .tasks]

/-- The checks before any request, for an executor that may have run. -/
def preflight (executed : Bool) (plan : CipSoftwareInventoryPlan db)
    (permit : Option RoutedExecutionPermit) : Except CaptureFailure (CipRouteDeclaration db) :=
  match plan.route with
  | none =>
    .error (providerFailure "cip_software_route_required"
      "software inventory execution currently requires a routed plan")
  | some route => do
    match validateRoutedExecution permit plan.authorizationReference [route.key] with
    | .error error => .error (.provider error)
    | .ok () =>
      let missing := plan.capabilities.filter fun item => item ∉ supportedCapabilities
      refuse (missing ≠ [])
        (providerFailure "cip_software_capability_unsupported"
          (("software inventory provider does not support: " : Text) ++
            joinText ", " ((sortedBy (compareOn CipSoftwareInventoryCapability.value)
              missing).map CipSoftwareInventoryCapability.value)))
      refuse (executed = true)
        (providerFailure "cip_software_plan_already_executed"
          "software inventory plans may execute only once")
      pure route

/-- `PermittedSoftwareInventoryExecutor.capture`. -/
def captureInventory (wire : Nat → GenericMessage → DriverResult) (executed : Bool)
    (transport : LogixSymbolTransport) (plan : CipSoftwareInventoryPlan db)
    (permit : Option RoutedExecutionPermit) (capturedAt : DateTime) :
    Except CaptureFailure (Nat × List (CipSoftwareInventoryItem db)) := do
  refuse (capturedAt.isAware = false) (.value "captured_at must include a timezone")
  let _route ← preflight executed plan permit
  let state ← capturePages isIpv6 unicodeError wire plan plan.maximumRequests { transport }
  pure (state.used, sortedBy compareItems state.items)

end

end

end TwinForge.Discovery
