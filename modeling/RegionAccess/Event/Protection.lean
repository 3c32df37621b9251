import RegionAccess.Cause.Subject
import RegionAccess.Event.Environment
import RegionAccess.Session.Registry

/-! The build flag for whoever caused a block change. -/
namespace RegionAccess

/-- Whether the root is a player whom the platform knows and who has a bypass there. -/
def Cause.rootBypasses (c : Cause) (platform : Platform) (registry : Registry) (world : WorldId) :
    Bool :=
  match c.root? with
  | some (.player p) => (platform.player? p.id).any (registry.hasBypass · world)
  | _ => false

/-- The root is a player whom the platform knows, and who has a bypass there. -/
def Cause.RootBypasses (c : Cause) (platform : Platform) (registry : Registry) (world : WorldId) :
    Prop :=
  ∃ p i, c.root? = some (.player p) ∧ platform.player? p.id = some i ∧
    registry.hasBypass i world = true

theorem Cause.rootBypasses_iff {c : Cause} {platform : Platform} {registry : Registry}
    {world : WorldId} :
    c.rootBypasses platform registry world = true ↔ c.RootBypasses platform registry world := by
  unfold rootBypasses RootBypasses
  split
  next p h => simp [h, Option.any_eq_true]
  next h =>
    constructor
    · exact fun hfalse => absurd hfalse Bool.false_ne_true
    · rintro ⟨p, i, hroot, -⟩
      exact absurd hroot (h p)

instance (c : Cause) (platform : Platform) (registry : Registry) (world : WorldId) :
    Decidable (c.RootBypasses platform registry world) :=
  decidable_of_iff _ c.rootBypasses_iff

namespace BlockChange
variable {σ : Type} [RegionIndex σ]

/-- Drops the locations where the subject may not build; a change left with none is cancelled. -/
def checkBuild (e : BlockChange) (subject : Subject) : StateM σ BlockChange := do
  let mayBuild (l : Location) : StateT Subject (StateM σ) Bool := allows l .build
  let ((rejected, e), _) ← e.filter mayBuild false subject
  return { e with isCancelled := e.isCancelled || (rejected && e.locations.isEmpty) }

def protect (e : BlockChange) (platform : Platform) (worlds : WorldPolicies) (registry : Registry) :
    StateM σ BlockChange :=
  if e.isExempt worlds || e.cause.rootBypasses platform registry e.world then pure e
  else e.checkBuild (e.cause.subject platform worlds)

end BlockChange
end RegionAccess
