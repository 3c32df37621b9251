import RegionAccess.Event.BlockChange
import RegionAccess.Query
import RegionAccess.World

/-! Flags that govern a block change whoever is behind it: pistons, creatures and explosions. -/
namespace RegionAccess

/-- A flag that governs a change, and whether its denial cancels the change as a whole. -/
structure EnvironmentCheck where
  flag : Flag
  cancels : Bool := false
  deriving DecidableEq

namespace Cause

/-- Whether the first block of the chain is part of a piston. -/
def isPistonDriven (c : Cause) : Bool := c.firstBlock?.any (·.kind.isPiston)

/-- The checks of a change with this cause, in the order they are made. -/
def environmentChecks (c : Cause) (kind : ChangeKind) (policy : WorldPolicy) :
    List EnvironmentCheck :=
  let checks : List (Bool × EnvironmentCheck) :=
    match kind with
    | .placing =>
        [(c.isPistonDriven, { flag := .pistons }),
          (c.involves .snowGolem, { flag := .snowmanTrails }),
          (c.involves .enderman, { flag := .enderBuild })]
    | .breaking =>
        [(c.isPistonDriven, { flag := .pistons }),
          (c.involves .creeper, { flag := .creeperExplosion, cancels := policy.explosionCancels }),
          (c.involves .enderDragon,
            { flag := .enderDragonDamage, cancels := policy.explosionCancels }),
          (c.involves .endCrystal, { flag := .otherExplosion, cancels := policy.explosionCancels }),
          (c.involves .enderman, { flag := .enderBuild }),
          (c.involves .ravager, { flag := .ravagerGrief })]
  (checks.filter (·.1)).map (·.2)

end Cause

namespace BlockChange
variable {σ : Type} [RegionIndex σ]

/-- Whether policy has nothing to say: the change is cancelled already, or its world is free. -/
def isExempt (e : BlockChange) (worlds : WorldPolicies) : Bool :=
  e.isCancelled || !(worlds.policyOf e.world).useRegions

def check (e : BlockChange) (check : EnvironmentCheck) : StateM σ BlockChange := do
  return (← e.filter (environmentAllows check.flag) check.cancels).2

/-- Makes every check that applies, also after one of them cancelled the change. -/
def checkEnvironment (e : BlockChange) (worlds : WorldPolicies) : StateM σ BlockChange :=
  if e.isExempt worlds then pure e
  else (e.cause.environmentChecks e.kind (worlds.policyOf e.world)).foldlM check e

end BlockChange
end RegionAccess
