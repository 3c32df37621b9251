import RegionAccess.Kind
import RegionAccess.Location

/-! References to what can be responsible for an event. A reference is a snapshot; its key is
what tells whether two snapshots are of the same actor. -/
namespace RegionAccess

structure PlayerRef where
  id : EntityId
  name : String
  deriving BEq

/-- A player who is not connected. -/
structure UserRef where
  id : EntityId
  name : Option String
  deriving BEq

structure EntityRef where
  id : EntityId
  kind : EntityKind
  location : Location
  /-- Where the entity was spawned, when the platform tracks it. -/
  origin : Option Location := none
  deriving BEq

structure BlockRef where
  block : Block
  kind : BlockKind
  deriving BEq

inductive ActorRef where
  | player (player : PlayerRef)
  | offlineUser (user : UserRef)
  | entity (entity : EntityRef)
  | block (block : BlockRef)
  | unknown
  deriving BEq

/-- A player, the offline user and the entity of one id share a key. -/
inductive ActorKey where
  | id (id : EntityId)
  | block (block : Block)
  deriving DecidableEq

/-- Ids come before blocks. -/
instance : Ord ActorKey where
  compare
    | .id a, .id b => compare a b
    | .id _, .block _ => .lt
    | .block _, .id _ => .gt
    | .block a, .block b => compare a b

namespace ActorRef

/-- The id of anything but a block; the unknown actor has none. -/
def id? : ActorRef → Option EntityId
  | .player p => some p.id
  | .offlineUser u => some u.id
  | .entity e => some e.id
  | .block _ | .unknown => none

def key? : ActorRef → Option ActorKey
  | .player p => some (.id p.id)
  | .offlineUser u => some (.id u.id)
  | .entity e => some (.id e.id)
  | .block b => some (.block b.block)
  | .unknown => none

def entityKind? : ActorRef → Option EntityKind
  | .player _ => some .player
  | .entity e => some e.kind
  | .offlineUser _ | .block _ | .unknown => none

def isEntity : ActorRef → Bool
  | .player _ | .entity _ => true
  | .offlineUser _ | .block _ | .unknown => false

/-- Vehicles and primed explosives carry responsibility without having any. -/
def isCarrier : ActorRef → Bool
  | .entity e => e.kind.isVehicle || e.kind.isPrimedExplosive
  | .player _ | .offlineUser _ | .block _ | .unknown => false

def text : ActorRef → String
  | .player p => p.name
  | .offlineUser u => u.name.getD u.id.text ++ " (offline)"
  | .entity e => label e.kind ++ "[" ++ e.id.text ++ "]"
  | .block b => label b.kind ++ "@" ++ b.block.text
  | .unknown => "unknown"

@[simp] theorem key?_eq_none_iff {a : ActorRef} : a.key? = none ↔ a = .unknown := by
  cases a <;> simp [key?]

end ActorRef
end RegionAccess
