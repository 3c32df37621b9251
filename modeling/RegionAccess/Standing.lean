import RegionAccess.Label

/-! What an identity is in a list of regions, best first. -/
namespace RegionAccess

inductive Standing where
  | owner | member | nonMember
  deriving DecidableEq, Repr, Ord

namespace Standing

instance : Labelled Standing where
  all := [.owner, .member, .nonMember]
  label
    | .owner => "Owner"
    | .member => "Member"
    | .nonMember => "NonMember"
  find_label a := by cases a <;> decide +kernel

/-- The better of two standings. -/
instance : Min Standing where
  min
    | .owner, _ => .owner
    | _, .owner => .owner
    | .member, _ => .member
    | _, .member => .member
    | .nonMember, .nonMember => .nonMember

end Standing
end RegionAccess
