import RegionAccess.Uuid
import RegionAccess.Text.Lowercase

/-! Names of entities, worlds and regions. Each is a type of its own, so that one cannot stand
for another. -/
namespace RegionAccess

/-- The stable identity of an entity, players included. -/
structure EntityId where
  uuid : Uuid
  deriving DecidableEq, Repr

structure WorldId where
  uuid : Uuid
  deriving DecidableEq, Repr

namespace EntityId

instance : Ord EntityId := ⟨compareOn uuid⟩

instance : Std.TransOrd EntityId := inferInstanceAs (Std.TransCmp (compareOn uuid))

instance : Std.LawfulEqOrd EntityId where
  eq_of_compare {a b} h := by
    obtain ⟨a⟩ := a
    obtain ⟨b⟩ := b
    exact congrArg EntityId.mk (Std.LawfulEqOrd.eq_of_compare h)

def text (id : EntityId) : String := id.uuid.text

end EntityId

namespace WorldId

instance : Ord WorldId := ⟨compareOn uuid⟩

instance : Std.TransOrd WorldId := inferInstanceAs (Std.TransCmp (compareOn uuid))

instance : Std.LawfulEqOrd WorldId where
  eq_of_compare {a b} h := by
    obtain ⟨a⟩ := a
    obtain ⟨b⟩ := b
    exact congrArg WorldId.mk (Std.LawfulEqOrd.eq_of_compare h)

def text (id : WorldId) : String := id.uuid.text

end WorldId

/-- A region's name in lower case, since letter case does not tell regions apart. -/
structure RegionId where
  name : String
  lowered : Text.lower name = name
  deriving DecidableEq

namespace RegionId

instance : Ord RegionId := ⟨compareOn name⟩

instance : Std.TransOrd RegionId := inferInstanceAs (Std.TransCmp (compareOn name))

instance : Std.LawfulEqOrd RegionId where
  eq_of_compare {a b} h := by
    obtain ⟨a, _⟩ := a
    obtain ⟨b, _⟩ := b
    have : a = b := Std.LawfulEqOrd.eq_of_compare h
    subst this
    rfl

def ofName (name : String) : RegionId := ⟨Text.lower name, Text.lower_lower name⟩

@[simp] theorem ofName_name (id : RegionId) : ofName id.name = id := by
  obtain ⟨name, lowered⟩ := id
  simp [ofName, lowered]

/-- The reserved name of the region that spans a whole world. -/
def globalName : String := "__global__"

def global : RegionId := ofName globalName

def isGlobal (id : RegionId) : Bool := id.name == globalName

end RegionId
end RegionAccess
