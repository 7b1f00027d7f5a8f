import TwinForge.Discovery.LogixSymbolCapture
import TwinForge.Foundation.Attempts

/-! # One capture of a software inventory

An executor follows the pages of a transport within the budget of its plan, once. Nothing is
assumed of the transport: it answers every call as it likes, by all that it was asked and answered
before.
-/

namespace TwinForge.Discovery

variable {db : CharacterDatabase} {Evidence Metadata Failure : Type}

/-! ## Plans, permits and pages -/

structure EngagedInventoryPlan (db : CharacterDatabase) extends CipSoftwareInventoryPlan db where
  engagement : Text
  engagement_valid : engagement ≠ [] ∧ Trimmed db engagement
  reference_valid : authorizationReference ≠ [] ∧ Trimmed db authorizationReference

structure ConfirmedPermit (db : CharacterDatabase) extends RoutedExecutionPermit where
  confirmedBy : Text
  confirmedAt : DateTime
  reference_present : db.strip authorizationReference ≠ []
  confirmedBy_present : db.strip confirmedBy ≠ []
  confirmedAt_aware : confirmedAt.isAware = true

structure EvidencedInventoryPage (db : CharacterDatabase) (Evidence : Type) extends
    CipSoftwareInventoryPage db where
  objectEvidence : List Evidence
  cursor_valid : ∀ cursor ∈ nextCursor, cursor ≠ [] ∧ Trimmed db cursor

inductive TransportExchange (db : CharacterDatabase) (Evidence Metadata Failure : Type) where
  | capabilities (answer : Except Failure (List CipSoftwareInventoryCapability))
  | page (cursor : Option Text) (answer : Except Failure (EvidencedInventoryPage db Evidence))
  | metadata (answer : Except Failure Metadata)

abbrev TransportLog (db : CharacterDatabase) (Evidence Metadata Failure : Type) :=
  List (TransportExchange db Evidence Metadata Failure)

/-- A transport answers by the calls before, or fails. -/
structure CipSoftwareInventoryTransport (db : CharacterDatabase)
    (Evidence Metadata Failure : Type) where
  capabilities : TransportLog db Evidence Metadata Failure →
    Except Failure (List CipSoftwareInventoryCapability)
  readInventoryPage : TransportLog db Evidence Metadata Failure → Option Text →
    Except Failure (EvidencedInventoryPage db Evidence)
  providerMetadata : TransportLog db Evidence Metadata Failure → Except Failure Metadata

/-- What was observed, by whose leave, and with how many requests. -/
structure CapturedInventory (db : CharacterDatabase) (Evidence Metadata : Type) extends
    CipSoftwareInventoryObservation db where
  engagement : Text
  authorizationReference : Text
  confirmedBy : Text
  confirmedAt : DateTime
  capturedAt : DateTime
  capabilities : List CipSoftwareInventoryCapability
  requestsUsed : Nat
  providerMetadata : Metadata
  objectEvidence : List Evidence

/-! ## The executor -/

/-- A failure of the executor's own, or the transport's. -/
inductive ExecutorFailure (Failure : Type) where
  | refused (failure : CaptureFailure)
  | transport (failure : Failure)

/-- Whether the plan was executed, and every exchange with the transport so far. -/
structure ExecutorState (db : CharacterDatabase) (Evidence Metadata Failure : Type) where
  executed : Bool := false
  log : TransportLog db Evidence Metadata Failure := []

structure PermittedSoftwareInventoryExecutor (db : CharacterDatabase)
    (Evidence Metadata Failure : Type) where
  plan : EngagedInventoryPlan db
  permit : Option (ConfirmedPermit db)
  transport : CipSoftwareInventoryTransport db Evidence Metadata Failure

abbrev ExecutorAttempt (db : CharacterDatabase) (Evidence Metadata Failure Result : Type) :=
  Attempt (ExecutorState db Evidence Metadata Failure) (ExecutorFailure Failure) Result

def executorFailure (code message : Text) : ExecutorFailure Failure :=
  .refused (providerFailure code message)

def callTransport {Answer : Type}
    (ask : TransportLog db Evidence Metadata Failure → Except Failure Answer)
    (logged : Except Failure Answer → TransportExchange db Evidence Metadata Failure) :
    ExecutorAttempt db Evidence Metadata Failure Answer := do
  let state ← Attempt.get
  Attempt.set { state with log := state.log ++ [logged (ask state.log)] }
  match ask state.log with
  | .ok answer => pure answer
  | .error failure => Attempt.fail (.transport failure)

structure InventoryProgress (db : CharacterDatabase) (Evidence : Type) where
  requestsUsed : Nat := 0
  items : List (CipSoftwareInventoryItem db) := []
  evidence : List Evidence := []
  cursor : Option Text := none
  seenCursors : List Text := []

def InventoryProgress.extend (progress : InventoryProgress db Evidence)
    (page : EvidencedInventoryPage db Evidence) : InventoryProgress db Evidence :=
  { progress with
    requestsUsed := progress.requestsUsed + 1
    items := progress.items ++ page.items
    evidence := progress.evidence ++ page.objectEvidence }

namespace PermittedSoftwareInventoryExecutor

variable (executor : PermittedSoftwareInventoryExecutor db Evidence Metadata Failure)

def preflight : ExecutorAttempt db Evidence Metadata Failure (CipRouteDeclaration db) := do
  match executor.plan.route with
  | none =>
    Attempt.fail (executorFailure "cip_software_route_required"
      "software inventory execution currently requires a routed plan")
  | some route =>
    match validateRoutedExecution (executor.permit.map ConfirmedPermit.toRoutedExecutionPermit)
        executor.plan.authorizationReference [route.key] with
    | .error error => Attempt.fail (.refused (.provider error))
    | .ok () =>
      let supported ← callTransport executor.transport.capabilities .capabilities
      let missing := executor.plan.capabilities.filter fun item => item ∉ supported
      Attempt.refuse (missing ≠ [])
        (executorFailure "cip_software_capability_unsupported"
          (("software inventory provider does not support: " : Text) ++
            joinText ", " ((sortedBy (compareOn CipSoftwareInventoryCapability.value)
              missing).map CipSoftwareInventoryCapability.value)))
      let state ← Attempt.get
      Attempt.refuse (state.executed = true)
        (executorFailure "cip_software_plan_already_executed"
          "software inventory plans may execute only once")
      pure route

/-- The pages from a cursor on, with what is left of the budget. -/
def readPages : Nat → InventoryProgress db Evidence →
    ExecutorAttempt db Evidence Metadata Failure (InventoryProgress db Evidence)
  | 0, _ =>
    Attempt.fail (executorFailure "cip_software_request_budget_exceeded"
      "software inventory request budget is exhausted")
  | budget + 1, progress => do
    let page ← callTransport (executor.transport.readInventoryPage · progress.cursor)
      (.page progress.cursor)
    Attempt.refuse (∃ item ∈ page.items, item.capability ∉ executor.plan.capabilities)
      (executorFailure "cip_software_unrequested_evidence"
        "provider returned an item outside the requested plan")
    match page.nextCursor with
    | none => pure (progress.extend page)
    | some cursor => do
      Attempt.refuse (cursor ∈ progress.seenCursors)
        (executorFailure "cip_software_cursor_repeated"
          "software inventory provider repeated a page cursor")
      readPages budget
        { progress.extend page with
          cursor := some cursor
          seenCursors := progress.seenCursors ++ [cursor] }

/-- The observation of what was read; its own checks may refuse it. -/
def observe (route : CipRouteDeclaration db) (permit : ConfirmedPermit db)
    (capturedAt : DateTime) (providerMetadata : Metadata)
    (progress : InventoryProgress db Evidence) :
    Except (ExecutorFailure Failure) (CapturedInventory db Evidence Metadata) := do
  let plan := executor.plan
  let untrimmed (name : Text) : ExecutorFailure Failure :=
    .refused (.value (name ++ (" must be non-empty and trimmed" : Text)))
  Guards.refuse (plan.engagement = [] ∨ ¬ Trimmed db plan.engagement) (untrimmed "engagement")
  Guards.refuse (plan.authorizationReference = [] ∨ ¬ Trimmed db plan.authorizationReference)
    (untrimmed "authorization_reference")
  Guards.refuse (permit.confirmedBy = [] ∨ ¬ Trimmed db permit.confirmedBy)
    (untrimmed "confirmed_by")
  Guards.refuse (capturedAt.isAware = false)
    (.refused (.value "captured_at must include a timezone"))
  Guards.refuse (permit.confirmedAt.isAware = false)
    (.refused (.value "confirmed_at must include a timezone"))
  if hgateway : route.gateway.key = plan.target.key then
    Guards.refuse (progress.requestsUsed = 0)
      (.refused (.value "requests_used must be positive"))
    pure {
      target := plan.target
      route
      items := sortedBy compareItems progress.items
      gateway := hgateway
      engagement := plan.engagement
      authorizationReference := plan.authorizationReference
      confirmedBy := permit.confirmedBy
      confirmedAt := permit.confirmedAt
      capturedAt
      capabilities := plan.capabilities
      requestsUsed := progress.requestsUsed
      providerMetadata
      objectEvidence := progress.evidence }
  else
    .error (.refused (.value "observation route gateway does not match target"))

def capture (capturedAt : DateTime) :
    ExecutorAttempt db Evidence Metadata Failure (CapturedInventory db Evidence Metadata) := do
  Attempt.refuse (capturedAt.isAware = false)
    (.refused (.value "captured_at must include a timezone"))
  let route ← executor.preflight
  match executor.permit with
  | none =>
    Attempt.fail (executorFailure "cip_software_execution_permit_required"
      "software inventory execution requires a routed permit")
  | some permit =>
    let state ← Attempt.get
    Attempt.set { state with executed := true }
    let progress ← executor.readPages executor.plan.maximumRequests {}
    let providerMetadata ← callTransport executor.transport.providerMetadata .metadata
    Attempt.ofExcept (executor.observe route permit capturedAt providerMetadata progress)

/-! ## Calls of an executor -/

/-- What one call left: the state before and after it, and its outcome. -/
structure CaptureCall (db : CharacterDatabase) (Evidence Metadata Failure : Type) where
  before : ExecutorState db Evidence Metadata Failure
  outcome : Except (ExecutorFailure Failure) (CapturedInventory db Evidence Metadata)
  after : ExecutorState db Evidence Metadata Failure

def captures : List DateTime → ExecutorState db Evidence Metadata Failure →
    List (CaptureCall db Evidence Metadata Failure)
  | [], _ => []
  | capturedAt :: later, before =>
    let call := executor.capture capturedAt before
    ⟨before, call.1, call.2⟩ :: captures later call.2

end PermittedSoftwareInventoryExecutor

end TwinForge.Discovery
