import RegionAccess.Storage.Location
import RegionAccess.World

/-! Stored forms of world policies, readable from any notation. -/
namespace RegionAccess
open Document Storage

namespace WorldPolicy

def write (p : WorldPolicy) : Value :=
  .record [("use_regions", .bool p.useRegions),
    ("explosion_flag_cancellation", .bool p.explosionCancels),
    ("fake_player_build_override", .bool p.fakePlayersBypass),
    ("use_entity_origin", .bool p.useEntityOrigin)]

def read? {δ : Type} [Document δ] (node : δ) : Option WorldPolicy := do
  let field ← fields? 0 ["use_regions", "explosion_flag_cancellation", "fake_player_build_override",
    "use_entity_origin"] node
  return {
    useRegions := ← orElse true bool? (field "use_regions")
    explosionCancels := ← orElse false bool? (field "explosion_flag_cancellation")
    fakePlayersBypass := ← orElse true bool? (field "fake_player_build_override")
    useEntityOrigin := ← orElse false bool? (field "use_entity_origin") }

end WorldPolicy

namespace WorldPolicies

def write (p : WorldPolicies) : Value :=
  .record [("default", p.fallback.write),
    ("worlds", .record (p.listed.toList.map fun (world, policy) => (world.text, policy.write)))]

/-- Of two entries for one world the later decides. -/
def readListed? {δ : Type} [Document δ] (node : δ) :
    Option (Std.ExtTreeMap WorldId WorldPolicy) := do
  let entries ← entries? node
  let listed ← entries.mapM fun (world, policy) => do
    return (WorldId.mk (← Uuid.parse? world), ← WorldPolicy.read? policy)
  return .ofList listed

def read? {δ : Type} [Document δ] (node : δ) : Option WorldPolicies := do
  let field ← fields? 0 ["default", "worlds"] node
  return {
    fallback := ← orElse {} WorldPolicy.read? (field "default")
    listed := ← orElse ∅ readListed? (field "worlds") }

end WorldPolicies
end RegionAccess
