import TwinForge.Foundation.Guards
import TwinForge.Foundation.Sorting
import TwinForge.Foundation.Timestamps

/-! # Lifecycle of accepted discovery identities

Accepted observations are appended to a ledger as numbered generations, and operator
directives supersede, merge or split identities. A set of keys is a list whose order no
one reads before it is sorted.
-/

namespace TwinForge.Discovery

open Guards

structure TopologyEvidenceReference where
  protocol : Text
  observationTarget : Text
  identifier : Text
  description : Text
  deriving DecidableEq, Repr

inductive CandidateDisposition where
  | accept | reject | defer
  deriving DecidableEq, Repr

structure CandidateReview where
  candidateKey : Text
  disposition : CandidateDisposition
  reviewedBy : Text
  reviewedAt : DateTime
  rationale : Text
  durableIdentityKey : Option Text := none
  overrideConflict : Bool := false
  deriving DecidableEq, Repr

structure AcceptedIdentityRecord where
  key : Text
  candidateKeys : List Text
  targetKeys : List Text
  reviews : List CandidateReview
  evidence : List TopologyEvidenceReference
  conflictOverridden : Bool
  deriving DecidableEq, Repr

structure AcceptanceResult where
  acceptedIdentities : List AcceptedIdentityRecord
  deriving DecidableEq, Repr

inductive IdentityTransition where
  | supersede | merge | split
  deriving DecidableEq, Repr

inductive IdentityLifecycleEventType where
  | created | observed | superseded | merged | split
  deriving DecidableEq, Repr

namespace IdentityTransition

def value : IdentityTransition → Text
  | .supersede => "supersede"
  | .merge => "merge"
  | .split => "split"

/-- How many sources and targets a transition needs at least. -/
def expected : IdentityTransition → Nat × Nat
  | .supersede => (1, 1)
  | .merge => (2, 1)
  | .split => (1, 2)

def eventType : IdentityTransition → IdentityLifecycleEventType
  | .supersede => .superseded
  | .merge => .merged
  | .split => .split

end IdentityTransition

def IdentityLifecycleEventType.value : IdentityLifecycleEventType → Text
  | .created => "created"
  | .observed => "observed"
  | .superseded => "superseded"
  | .merged => "merged"
  | .split => "split"

structure IdentityTransitionDirective where
  transition : IdentityTransition
  sourceKeys : List Text
  targetKeys : List Text
  directedBy : Text
  directedAt : DateTime
  rationale : Text
  deriving DecidableEq, Repr

structure DurableIdentityGeneration where
  identityKey : Text
  generation : Int
  observedAt : DateTime
  candidateKeys : List Text
  targetKeys : List Text
  acceptanceReviews : List CandidateReview
  evidence : List TopologyEvidenceReference
  conflictOverridden : Bool
  deriving DecidableEq, Repr

structure IdentityLifecycleEvent where
  eventType : IdentityLifecycleEventType
  occurredAt : DateTime
  sourceKeys : List Text
  targetKeys : List Text
  actor : Text
  rationale : Text
  deriving DecidableEq, Repr

structure IdentityLifecycleState where
  generations : List DurableIdentityGeneration := []
  events : List IdentityLifecycleEvent := []
  inactiveIdentityKeys : List Text := []
  deriving DecidableEq, Repr

def IdentityLifecycleState.activeIdentityKeys (state : IdentityLifecycleState) : List Text :=
  sortedSet ((state.generations.map (·.identityKey)).filter (· ∉ state.inactiveIdentityKeys))

inductive IdentityLifecycleError where
  | noReviewTimestamp (key : Text)
  | naiveReviewTimestamps
  | repeatedAcceptedKeys
  | inactiveObserved (key : Text)
  | naiveDirectedAt
  | blank (field : Text)
  | untrimmed (field : Text)
  | repeatedSources
  | repeatedTargets
  | overlap
  | fewSources (transition : IdentityTransition)
  | fewTargets (transition : IdentityTransition)
  | supersedeShape
  | mergeShape
  | splitShape
  | sourcesNotActive (keys : List Text)
  | transitionedTwice (keys : List Text)
  | targetsNotAccepted (keys : List Text)
  | predatesSource
  | predatesTarget
  deriving DecidableEq, Repr

section

variable (db : CharacterDatabase)

def IdentityLifecycleError.message : IdentityLifecycleError → Text
  | .noReviewTimestamp key =>
    ("accepted identity " : Text) ++ db.reprText key ++ (" has no review timestamp" : Text)
  | .naiveReviewTimestamps => "accepted review timestamps must be timezone-aware"
  | .repeatedAcceptedKeys => "accepted identity keys must be unique"
  | .inactiveObserved key =>
    ("inactive identity " : Text) ++ db.reprText key ++
      (" cannot be observed again under the same key" : Text)
  | .naiveDirectedAt => "directed_at must include a timezone"
  | .blank field => field ++ (" must not be blank" : Text)
  | .untrimmed field => field ++ (" must be trimmed" : Text)
  | .repeatedSources => "transition source keys must be unique"
  | .repeatedTargets => "transition target keys must be unique"
  | .overlap => "transition sources and targets must not overlap"
  | .fewSources transition =>
    transition.value ++ (" requires at least " : Text) ++ decimal transition.expected.1 ++
      (" source(s)" : Text)
  | .fewTargets transition =>
    transition.value ++ (" requires at least " : Text) ++ decimal transition.expected.2 ++
      (" target(s)" : Text)
  | .supersedeShape => "supersede requires exactly one source and target"
  | .mergeShape => "merge requires exactly one target"
  | .splitShape => "split requires exactly one source"
  | .sourcesNotActive keys =>
    ("transition sources are not active: " : Text) ++ joinText ", " keys
  | .transitionedTwice keys =>
    ("identity transitioned more than once: " : Text) ++ joinText ", " keys
  | .targetsNotAccepted keys =>
    ("transition targets require acceptance in the current capture: " : Text) ++
      joinText ", " keys
  | .predatesSource => "transition cannot predate its latest source observation"
  | .predatesTarget => "transition cannot predate its target acceptance"

def reviewTime (record : AcceptedIdentityRecord) : Except IdentityLifecycleError DateTime :=
  let times := record.reviews.map (·.reviewedAt)
  match DateTime.latest times with
  | none => .error (.noReviewTimestamp record.key)
  | some time => if times.all (·.isAware) then .ok time else .error .naiveReviewTimestamps

def durableGeneration (record : AcceptedIdentityRecord) (generation : Int) :
    Except IdentityLifecycleError DurableIdentityGeneration := do
  let observedAt ← reviewTime record
  return {
    identityKey := record.key, generation, observedAt, candidateKeys := record.candidateKeys
    targetKeys := record.targetKeys, acceptanceReviews := record.reviews
    evidence := record.evidence, conflictOverridden := record.conflictOverridden }

def validateText (value field : Text) : Except IdentityLifecycleError Unit :=
  if (db.strip value).isEmpty then .error (.blank field)
  else if value ≠ db.strip value then .error (.untrimmed field)
  else .ok ()

/-- The checks of one directive alone, in their order. -/
def validateDirective (directive : IdentityTransitionDirective) :
    Except IdentityLifecycleError Unit := do
  refuse (directive.directedAt.isAware = false) .naiveDirectedAt
  validateText db directive.directedBy "directed_by"
  validateText db directive.rationale "rationale"
  refuse (¬ directive.sourceKeys.Nodup) .repeatedSources
  refuse (¬ directive.targetKeys.Nodup) .repeatedTargets
  refuse (∃ key ∈ directive.sourceKeys, key ∈ directive.targetKeys) .overlap
  refuse (directive.sourceKeys.length < directive.transition.expected.1)
    (.fewSources directive.transition)
  refuse (directive.targetKeys.length < directive.transition.expected.2)
    (.fewTargets directive.transition)
  refuse (directive.transition = .supersede ∧
    (directive.sourceKeys.length ≠ 1 ∨ directive.targetKeys.length ≠ 1)) .supersedeShape
  refuse (directive.transition = .merge ∧ directive.targetKeys.length ≠ 1) .mergeShape
  refuse (directive.transition = .split ∧ directive.sourceKeys.length ≠ 1) .splitShape

/-- The highest generation recorded of a key: the `known_generations` of the loop, which
follow the generations appended so far. -/
def knownGeneration (generations : List DurableIdentityGeneration) (key : Text) : Int :=
  ((generations.filter (·.identityKey = key)).map (·.generation)).foldl max 0

def observationEvent (record : AcceptedIdentityRecord) (generation : DurableIdentityGeneration) :
    IdentityLifecycleEvent where
  eventType := if generation.generation = 1 then .created else .observed
  occurredAt := generation.observedAt
  sourceKeys := []
  targetKeys := [record.key]
  actor := joinText ", " (sortedSet (record.reviews.map (·.reviewedBy)))
  rationale :=
    if generation.generation = 1 then "Durable staging identity created from accepted candidates."
    else "Durable staging identity observed in a later acceptance."

def observe (ledger : IdentityLifecycleState) (record : AcceptedIdentityRecord) :
    Except IdentityLifecycleError IdentityLifecycleState := do
  refuse (record.key ∈ ledger.inactiveIdentityKeys) (.inactiveObserved record.key)
  let generation ←
    durableGeneration record (knownGeneration ledger.generations record.key + 1)
  return { ledger with
    generations := ledger.generations ++ [generation]
    events := ledger.events ++ [observationEvent record generation] }

def transitionEvent (directive : IdentityTransitionDirective) : IdentityLifecycleEvent where
  eventType := directive.transition.eventType
  occurredAt := directive.directedAt
  sourceKeys := sortedBy compare directive.sourceKeys
  targetKeys := sortedBy compare directive.targetKeys
  actor := directive.directedBy
  rationale := directive.rationale

/-- What the directives of one call have changed so far. -/
structure Transitions where
  events : List IdentityLifecycleEvent
  inactive : List Text
  active : List Text
  transitionedSources : List Text
  deriving DecidableEq, Repr

def direct (generations : List DurableIdentityGeneration)
    (accepted : List AcceptedIdentityRecord) (changed : Transitions)
    (directive : IdentityTransitionDirective) : Except IdentityLifecycleError Transitions := do
  validateDirective db directive
  let missingSources := directive.sourceKeys.filter (· ∉ changed.active)
  refuse (missingSources ≠ []) (.sourcesNotActive (sortedSet missingSources))
  let repeated := directive.sourceKeys.filter (· ∈ changed.transitionedSources)
  refuse (repeated ≠ []) (.transitionedTwice (sortedSet repeated))
  let missingTargets := directive.targetKeys.filter (· ∉ accepted.map (·.key))
  refuse (missingTargets ≠ []) (.targetsNotAccepted (sortedSet missingTargets))
  -- Neither maximum is empty: an active source has a generation, a target is accepted.
  let latestSourceTime := DateTime.latest <|
    (generations.filter (·.identityKey ∈ directive.sourceKeys)).map (·.observedAt)
  let targetAcceptanceTime := DateTime.latest <| directive.targetKeys.filterMap fun key =>
    (accepted.find? (·.key = key)).bind fun record => (reviewTime record).toOption
  refuse (latestSourceTime.any (directive.directedAt.instant < ·.instant) = true) .predatesSource
  refuse (targetAcceptanceTime.any (directive.directedAt.instant < ·.instant) = true)
    .predatesTarget
  return {
    events := changed.events ++ [transitionEvent directive]
    inactive := changed.inactive ++ directive.sourceKeys
    active := changed.active.filter (· ∉ directive.sourceKeys) ++ directive.targetKeys
    transitionedSources := changed.transitionedSources ++ directive.sourceKeys }

def compareGenerations (first second : DurableIdentityGeneration) : Ordering :=
  (compare first.identityKey second.identityKey).then
    (compare first.generation second.generation)

def compareEvents (first second : IdentityLifecycleEvent) : Ordering :=
  (compare first.occurredAt.instant second.occurredAt.instant).then <|
    (compare first.eventType.value second.eventType.value).then <|
      (compare first.sourceKeys second.sourceKeys).then
        (compare first.targetKeys second.targetKeys)

/-- The transitions a call starts its directives with. -/
def openTransitions (observed : IdentityLifecycleState) : Transitions where
  events := observed.events
  inactive := observed.inactiveIdentityKeys
  active := (observed.generations.map (·.identityKey)).filter
    (· ∉ observed.inactiveIdentityKeys)
  transitionedSources := []

def advanceIdentityLifecycle (previous : IdentityLifecycleState) (acceptance : AcceptanceResult)
    (directives : List IdentityTransitionDirective) :
    Except IdentityLifecycleError IdentityLifecycleState := do
  let accepted := acceptance.acceptedIdentities
  refuse (¬ (accepted.map (·.key)).Nodup) .repeatedAcceptedKeys
  let records := sortedBy (fun first second => compare first.key second.key) accepted
  let observed ← records.foldlM observe previous
  let changed ← directives.foldlM (direct db observed.generations accepted)
    (openTransitions observed)
  return {
    generations := sortedBy compareGenerations observed.generations
    events := sortedBy compareEvents changed.events
    inactiveIdentityKeys := sortedSet changed.inactive }

end

end TwinForge.Discovery
