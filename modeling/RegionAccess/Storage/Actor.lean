import RegionAccess.Actor
import RegionAccess.Storage.Location

/-! Stored forms of actor references: a record of one field, named for what the actor is. -/
namespace RegionAccess
open Document Storage

namespace PlayerRef

def write (p : PlayerRef) : Value := .record [("id", p.id.write), ("name", .text p.name)]

def read? (v : Value) : Option PlayerRef := do
  let field ← fields? 2 ["id", "name"] v
  return {
    id := ← required EntityId.read? (field "id")
    name := ← required text? (field "name") }

end PlayerRef

namespace UserRef

def write (u : UserRef) : Value :=
  .record [("id", u.id.write), ("name", u.name.elim .null .text)]

def read? (v : Value) : Option UserRef := do
  let field ← fields? 2 ["id", "name"] v
  return {
    id := ← required EntityId.read? (field "id")
    name := ← Value.optional text? (field "name") }

end UserRef

namespace EntityRef

def write (e : EntityRef) : Value :=
  .record [("id", e.id.write), ("kind", .ofLabel e.kind), ("location", e.location.write),
    ("origin", e.origin.elim .null (·.write))]

def read? (v : Value) : Option EntityRef := do
  let field ← fields? 4 ["id", "kind", "location", "origin"] v
  return {
    id := ← required EntityId.read? (field "id")
    kind := ← required Value.label? (field "kind")
    location := ← required Location.read? (field "location")
    origin := ← Value.optional Location.read? (field "origin") }

end EntityRef

namespace BlockRef

def write (b : BlockRef) : Value :=
  .record [("pos", b.block.write), ("kind", .ofLabel b.kind)]

def read? (v : Value) : Option BlockRef := do
  let field ← fields? 2 ["pos", "kind"] v
  return {
    block := ← required Block.read? (field "pos")
    kind := ← required Value.label? (field "kind") }

end BlockRef

namespace ActorRef

def write : ActorRef → Value
  | .player p => .record [("Player", p.write)]
  | .offlineUser u => .record [("OfflineUser", u.write)]
  | .entity e => .record [("Entity", e.write)]
  | .block b => .record [("Block", b.write)]
  | .unknown => .text "Unknown"

def read? : Value → Option ActorRef
  | .text "Unknown" => some .unknown
  | .record [("Unknown", .null)] => some .unknown
  | .record [("Player", v)] => (PlayerRef.read? v).map .player
  | .record [("OfflineUser", v)] => (UserRef.read? v).map .offlineUser
  | .record [("Entity", v)] => (EntityRef.read? v).map .entity
  | .record [("Block", v)] => (BlockRef.read? v).map .block
  | _ => none

end ActorRef
end RegionAccess
