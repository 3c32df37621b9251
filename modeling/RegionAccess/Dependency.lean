import Std.Data.ExtTreeSet

/-! Host dependencies whose enabling or disabling changes how policy behaves. Their names are told
apart up to the case of ASCII letters. -/
namespace RegionAccess

/-- Folds the case of ASCII letters and of no others. -/
def asciiLower (s : String) : String := s.map Char.toLower

structure Dependencies where
  watched : List String := []
  /-- The folded names of those enabled. -/
  active : Std.ExtTreeSet String := ∅

namespace Dependencies

def isWatched (d : Dependencies) (name : String) : Bool :=
  d.watched.any fun w => asciiLower w == asciiLower name

def isActive (d : Dependencies) (name : String) : Bool := d.active.contains (asciiLower name)

/-- Records a toggle of a watched dependency, none of another. -/
def toggle (d : Dependencies) (name : String) (enabled : Bool) : Option Dependencies :=
  if d.isWatched name then
    let name := asciiLower name
    some { d with active := if enabled then d.active.insert name else d.active.erase name }
  else none

end Dependencies
end RegionAccess
