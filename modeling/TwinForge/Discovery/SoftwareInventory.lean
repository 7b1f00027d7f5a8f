import TwinForge.Discovery.CipRoutes

/-! # Structural software inventory

Programs, routines, tasks and tag definitions that a controller was seen to hold.
-/

namespace TwinForge.Discovery

inductive CipSoftwareInventoryCapability where
  | programs | routines | tasks | tagDefinitions
  deriving DecidableEq, Repr

def CipSoftwareInventoryCapability.value : CipSoftwareInventoryCapability → Text
  | .programs => "programs"
  | .routines => "routines"
  | .tasks => "tasks"
  | .tagDefinitions => "tag_definitions"

theorem capability_value_injective {first second : CipSoftwareInventoryCapability}
    (h : first.value = second.value) : first = second := by
  cases first <;> cases second <;>
    simp [CipSoftwareInventoryCapability.value, Text.of] at h ⊢

structure CipSoftwareInventoryItem (db : CharacterDatabase) where
  capability : CipSoftwareInventoryCapability
  name : Text
  parent : Option Text := none
  instanceId : Option Nat := none
  dataType : Option Text := none
  language : Option Text := none
  name_nonempty : name ≠ []
  name_trimmed : Trimmed db name

structure CipSoftwareInventoryObservation (db : CharacterDatabase) where
  target : DiscoveryTarget
  route : CipRouteDeclaration db
  items : List (CipSoftwareInventoryItem db)
  gateway : route.gateway.key = target.key

end TwinForge.Discovery
