import RegionAccess.Label

/-! State flags: what a region may allow or deny, the value where no region says, and the verdict
when the region index cannot answer. -/
namespace RegionAccess

/-- The value of a state flag. -/
inductive Ruling where
  | allow | deny
  deriving DecidableEq, Repr

instance : Labelled Ruling where
  all := [.allow, .deny]
  label
    | .allow => "Allow"
    | .deny => "Deny"
  find_label a := by cases a <;> decide +kernel

/-- What a flag guards. -/
inductive FlagCategory where
  | build | movement | cosmetic
  deriving DecidableEq, Repr

namespace FlagCategory

instance : Labelled FlagCategory where
  all := [.build, .movement, .cosmetic]
  label
    | .build => "Build"
    | .movement => "Movement"
    | .cosmetic => "Cosmetic"
  find_label a := by cases a <;> decide +kernel

/-- Changes to the world and movement fail closed; what leaves no trace fails open. -/
def failVerdict : FlagCategory → Bool
  | .build | .movement => false
  | .cosmetic => true

end FlagCategory

structure Flag where
  name : String
  fallback : Option Ruling
  category : FlagCategory
  deriving DecidableEq, Repr

namespace Flag

def build : Flag := ⟨"build", none, .build⟩
def pistons : Flag := ⟨"pistons", some .allow, .build⟩
def snowmanTrails : Flag := ⟨"snowman-trails", some .allow, .build⟩
def enderBuild : Flag := ⟨"enderman-grief", some .allow, .build⟩
def creeperExplosion : Flag := ⟨"creeper-explosion", some .allow, .build⟩
def enderDragonDamage : Flag := ⟨"enderdragon-block-damage", some .allow, .build⟩
def otherExplosion : Flag := ⟨"other-explosion", some .allow, .build⟩
def ravagerGrief : Flag := ⟨"ravager-grief", some .allow, .build⟩
def fallDamage : Flag := ⟨"fall-damage", some .allow, .cosmetic⟩
def entry : Flag := ⟨"entry", some .allow, .movement⟩
def exit : Flag := ⟨"exit", some .allow, .movement⟩

def all : List Flag :=
  [build, pistons, snowmanTrails, enderBuild, creeperExplosion, enderDragonDamage,
    otherExplosion, ravagerGrief, fallDamage, entry, exit]

def named? (name : String) : Option Flag := all.find? (·.name == name)

end Flag
end RegionAccess
