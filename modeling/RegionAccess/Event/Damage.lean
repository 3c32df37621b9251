import RegionAccess.Platform
import RegionAccess.Query
import RegionAccess.World

/-! Damage to players from hitting the ground or a wall. -/
namespace RegionAccess

inductive DamageCause where
  | fall | flyIntoWall | other
  deriving DecidableEq, Repr

instance : Labelled DamageCause where
  all := [.fall, .flyIntoWall, .other]
  label
    | .fall => "Fall"
    | .flyIntoWall => "FlyIntoWall"
    | .other => "Other"
  find_label a := by cases a <;> decide +kernel

structure Damage where
  victim : EntityId
  kind : EntityKind
  location : Location
  cause : DamageCause
  isCancelled : Bool := false

namespace Damage

def isImpact (d : Damage) : Bool := d.cause != .other

/-- Cancels an impact that the fall damage flag denies the player who suffers it. -/
def checkFall {σ : Type} [RegionIndex σ] (d : Damage) (platform : Platform)
    (worlds : WorldPolicies) : StateM σ Damage := do
  if d.isCancelled || !(worlds.policyOf d.location.world).useRegions then return d
  if d.kind != .player || !d.isImpact then return d
  match platform.player? d.victim with
  | none => return d
  | some i => return { d with isCancelled := !(← i.isAllowed d.location .fallDamage) }

end Damage
end RegionAccess
