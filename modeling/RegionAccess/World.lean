import Std.Data.ExtTreeMap
import RegionAccess.Id

/-! Policy switches of each world, with a fallback for worlds that are not listed. -/
namespace RegionAccess

structure WorldPolicy where
  useRegions : Bool := true
  /-- A denied explosion flag stops the whole explosion rather than sparing blocks. -/
  explosionCancels : Bool := false
  /-- Automation acting as a player is not checked. -/
  fakePlayersBypass : Bool := true
  /-- Entities are judged where they were spawned rather than where they are. -/
  useEntityOrigin : Bool := false
  deriving DecidableEq, Repr

structure WorldPolicies where
  fallback : WorldPolicy := {}
  listed : Std.ExtTreeMap WorldId WorldPolicy := ∅
  deriving DecidableEq

namespace WorldPolicies

def policyOf (p : WorldPolicies) (world : WorldId) : WorldPolicy :=
  (p.listed[world]?).getD p.fallback

def insert (p : WorldPolicies) (world : WorldId) (policy : WorldPolicy) : WorldPolicies :=
  { p with listed := p.listed.insert world policy }

end WorldPolicies
end RegionAccess
