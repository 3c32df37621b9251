import RegionAccess.Region
import RegionAccess.Storage.Location

/-! Stored forms of regions and their domains. Sets are written in order. -/
namespace RegionAccess
open Document Storage

namespace Domain

def write (d : Domain) : Value :=
  .record [("players", .list (d.players.toList.map (·.write))),
    ("groups", .list (d.groups.toList.map .text))]

/-- Group names are kept as they were written. -/
def read? (v : Value) : Option Domain := do
  let field ← fields? 0 ["players", "groups"] v
  return {
    players := .ofList (← orElse [] (list? EntityId.read?) (field "players"))
    groups := .ofList (← orElse [] (list? text?) (field "groups")) }

end Domain

namespace ProtectedRegion

def write (r : ProtectedRegion) : Value :=
  .record [("id", r.id.write), ("priority", .ofInt32 r.priority), ("owners", r.owners.write),
    ("members", r.members.write)]

def read? (v : Value) : Option ProtectedRegion := do
  let field ← fields? 0 ["id", "priority", "owners", "members"] v
  return {
    id := ← required RegionId.read? (field "id")
    priority := ← orElse 0 Value.int32? (field "priority")
    owners := ← orElse {} Domain.read? (field "owners")
    members := ← orElse {} Domain.read? (field "members") }

end ProtectedRegion
end RegionAccess
