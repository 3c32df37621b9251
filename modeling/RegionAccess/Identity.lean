import RegionAccess.Location

/-! Players as the platform describes them: who they are, which groups they are in, and what they
are permitted. -/
namespace RegionAccess

/-- Whether a group is listed, letter case aside. -/
def inGroups (groups : List String) (group : String) : Bool :=
  groups.any fun g => Text.lower g == Text.lower group

structure Identity where
  id : EntityId
  name : String
  groups : List String
  permits : String → Bool
  hasGroup : String → Bool := inGroups groups
  /-- Automation that acts through a player identity. -/
  isFake : Bool := false

/-- A player without a connection; their groups may be known, no permission can be confirmed. -/
structure OfflineIdentity where
  id : EntityId
  name : String
  groups : List String := []
  deriving DecidableEq

def OfflineIdentity.toIdentity (i : OfflineIdentity) : Identity where
  id := i.id
  name := i.name
  groups := i.groups
  permits _ := false

/-- A connected player at a position. -/
structure LiveActor extends Identity where
  location : Location
  isOnline : Bool := true

end RegionAccess
