import RegionAccess.Session.Registry

/-! Moves of vehicles, judged for the players who ride them. A refused rider whose last valid
position is elsewhere is moved there alone. -/
namespace RegionAccess

structure VehicleMove where
  vehicle : EntityId
  source : Location
  target : Location

/-- Where to put a rider, facing as they do. -/
structure RiderCorrection where
  actor : EntityId
  target : Location

inductive VehicleVerdict where
  | allowed
  | rejected (vehicle : EntityId) (rollback : Location) (rider : Option RiderCorrection)

namespace VehicleVerdict

def isRejected : VehicleVerdict → Bool
  | .allowed => false
  | .rejected .. => true

end VehicleVerdict

/-- A correction for a rider who has to go back to another block than the vehicle's. -/
def VehicleMove.correction? (m : VehicleMove) (rider : LiveActor) (back : Location) :
    Option RiderCorrection :=
  if back.leavesBlock m.source then
    some ⟨rider.id, back.facing rider.location.yaw rider.location.pitch⟩
  else none

namespace Registry
variable {σ : Type} [RegionIndex σ]

/-- Riders are judged in turn, up to the first who is refused. -/
def judgeRiders (r : Registry) (m : VehicleMove) :
    List Turn → HostM σ (VehicleVerdict × Registry)
  | [] => pure (.allowed, r)
  | ⟨rider, moment⟩ :: riders => do
      match ← r.judgeMove rider m.target .ride moment with
      | (none, r) => r.judgeRiders m riders
      | (some back, r) =>
          return (.rejected m.vehicle m.source (m.correction? rider back), r)

def judgeVehicle (r : Registry) (m : VehicleMove) (riders : List Turn) :
    HostM σ (VehicleVerdict × Registry) :=
  if (r.worlds.policyOf m.source.world).useRegions && m.source.leavesBlock m.target then
    r.judgeRiders m riders
  else pure (.allowed, r)

end Registry
end RegionAccess
