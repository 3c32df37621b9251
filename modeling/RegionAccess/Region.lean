import Std.Data.ExtTreeSet
import RegionAccess.Identity
import RegionAccess.Standing

/-! Protected regions as far as standing goes: who owns each and who is a member. -/
namespace RegionAccess

abbrev RegionSet := Std.ExtTreeSet RegionId

/-- A set of players and permission groups. -/
structure Domain where
  players : Std.ExtTreeSet EntityId := ∅
  groups : Std.ExtTreeSet String := ∅

namespace Domain

def withPlayer (d : Domain) (id : EntityId) : Domain := { d with players := d.players.insert id }

/-- Groups are kept in lower case. -/
def withGroup (d : Domain) (group : String) : Domain :=
  { d with groups := d.groups.insert (Text.lower group) }

/-- Whether an identity is listed itself or through one of its groups. -/
def contains (d : Domain) (i : Identity) : Bool :=
  d.players.contains i.id || d.groups.toList.any i.hasGroup

def isEmpty (d : Domain) : Bool := d.players.isEmpty && d.groups.isEmpty

end Domain

structure ProtectedRegion where
  id : RegionId
  priority : Int32 := 0
  owners : Domain := {}
  members : Domain := {}

namespace ProtectedRegion

def isGlobal (r : ProtectedRegion) : Bool := r.id.isGlobal

def isOwner (r : ProtectedRegion) (i : Identity) : Bool := r.owners.contains i

/-- Owners are members. -/
def isMember (r : ProtectedRegion) (i : Identity) : Bool := r.members.contains i || r.isOwner i

end ProtectedRegion

/-- The standing in regions that are gone through in order, where a membership may have been found
before. A region that the identity owns ends the search. -/
def Identity.standingFrom (i : Identity) (member : Bool) : List ProtectedRegion → Standing
  | [] => if member then .member else .nonMember
  | r :: regions => if r.isOwner i then .owner else i.standingFrom (member || r.isMember i) regions

def Identity.standing (i : Identity) (regions : List ProtectedRegion) : Standing :=
  i.standingFrom false regions

/-- Owner of some region, else member of some, else neither. -/
theorem Identity.standing_eq (i : Identity) (regions : List ProtectedRegion) :
    i.standing regions =
      if regions.any (·.isOwner i) then .owner
      else if regions.any (·.isMember i) then .member
      else .nonMember := by
  have hfrom (member : Bool) : i.standingFrom member regions =
      if regions.any (·.isOwner i) then .owner
      else if member || regions.any (·.isMember i) then .member
      else .nonMember := by
    induction regions generalizing member with
    | nil => simp [standingFrom]
    | cons r regions ih =>
      rw [standingFrom, ih, List.any_cons, List.any_cons, ← Bool.or_assoc]
      cases r.isOwner i <;> simp
  exact hfrom false

end RegionAccess
