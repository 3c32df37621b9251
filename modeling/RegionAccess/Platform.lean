import RegionAccess.Identity
import RegionAccess.Relation

/-! What the platform can be asked about players and entities during one call. -/
namespace RegionAccess

structure Platform where
  /-- The live identity of a connected player. -/
  player? : EntityId → Option Identity
  /-- What is known of a player who is not connected. -/
  offlineUser? : EntityId → Option OfflineIdentity
  /-- Where an entity is now. -/
  location? : EntityId → Option Location
  /-- Where an entity was spawned. -/
  origin? : EntityId → Option Location
  relations : Relations

end RegionAccess
