import RegionAccess.Label

/-! What the platform says entities, blocks and moves are. Only the kinds that policy tells
apart are named. -/
namespace RegionAccess

inductive EntityKind where
  | player | arrow | spectralArrow | trident | snowball | egg | enderPearl | fireball
  | smallFireball | witherSkull | thrownPotion | primedTnt | minecart | chestMinecart
  | hopperMinecart | furnaceMinecart | tntMinecart | boat | areaEffectCloud | creeper | zombie
  | skeleton | spider | enderman | enderDragon | wither | ghast | shulker | ravager
  | endCrystal | snowGolem | ironGolem | wolf | cat | parrot | horse | pig | cow | sheep
  | villager | item | armorStand | itemFrame | painting | other
  deriving DecidableEq, Repr, Ord

namespace EntityKind

instance : Labelled EntityKind where
  all := [
    .player, .arrow, .spectralArrow, .trident, .snowball, .egg, .enderPearl, .fireball,
    .smallFireball, .witherSkull, .thrownPotion, .primedTnt, .minecart, .chestMinecart,
    .hopperMinecart, .furnaceMinecart, .tntMinecart, .boat, .areaEffectCloud, .creeper,
    .zombie, .skeleton, .spider, .enderman, .enderDragon, .wither, .ghast, .shulker, .ravager,
    .endCrystal, .snowGolem, .ironGolem, .wolf, .cat, .parrot, .horse, .pig, .cow, .sheep,
    .villager, .item, .armorStand, .itemFrame, .painting, .other]
  label
    | .player => "Player"
    | .arrow => "Arrow"
    | .spectralArrow => "SpectralArrow"
    | .trident => "Trident"
    | .snowball => "Snowball"
    | .egg => "Egg"
    | .enderPearl => "EnderPearl"
    | .fireball => "Fireball"
    | .smallFireball => "SmallFireball"
    | .witherSkull => "WitherSkull"
    | .thrownPotion => "ThrownPotion"
    | .primedTnt => "PrimedTnt"
    | .minecart => "Minecart"
    | .chestMinecart => "ChestMinecart"
    | .hopperMinecart => "HopperMinecart"
    | .furnaceMinecart => "FurnaceMinecart"
    | .tntMinecart => "TntMinecart"
    | .boat => "Boat"
    | .areaEffectCloud => "AreaEffectCloud"
    | .creeper => "Creeper"
    | .zombie => "Zombie"
    | .skeleton => "Skeleton"
    | .spider => "Spider"
    | .enderman => "Enderman"
    | .enderDragon => "EnderDragon"
    | .wither => "Wither"
    | .ghast => "Ghast"
    | .shulker => "Shulker"
    | .ravager => "Ravager"
    | .endCrystal => "EndCrystal"
    | .snowGolem => "SnowGolem"
    | .ironGolem => "IronGolem"
    | .wolf => "Wolf"
    | .cat => "Cat"
    | .parrot => "Parrot"
    | .horse => "Horse"
    | .pig => "Pig"
    | .cow => "Cow"
    | .sheep => "Sheep"
    | .villager => "Villager"
    | .item => "Item"
    | .armorStand => "ArmorStand"
    | .itemFrame => "ItemFrame"
    | .painting => "Painting"
    | .other => "Other"
  find_label a := by cases a <;> decide +kernel

def isMinecart : EntityKind → Bool
  | .minecart | .chestMinecart | .hopperMinecart | .furnaceMinecart | .tntMinecart => true
  | _ => false

def isVehicle (k : EntityKind) : Bool := k == .boat || k.isMinecart

def isPrimedExplosive (k : EntityKind) : Bool := k == .primedTnt

end EntityKind

inductive BlockKind where
  | piston | stickyPiston | pistonHead | movingPiston | dispenser | other
  deriving DecidableEq, Repr

namespace BlockKind

instance : Labelled BlockKind where
  all := [.piston, .stickyPiston, .pistonHead, .movingPiston, .dispenser, .other]
  label
    | .piston => "Piston"
    | .stickyPiston => "StickyPiston"
    | .pistonHead => "PistonHead"
    | .movingPiston => "MovingPiston"
    | .dispenser => "Dispenser"
    | .other => "Other"
  find_label a := by cases a <;> decide +kernel

/-- Any part of a piston mechanism. -/
def isPiston : BlockKind → Bool
  | .piston | .stickyPiston | .pistonHead | .movingPiston => true
  | .dispenser | .other => false

end BlockKind

/-- How an actor's position changes. -/
inductive MoveKind where
  | respawn | embark | walk | glide | swim | ride | teleport | otherForced | otherRefusable
  deriving DecidableEq, Repr

namespace MoveKind

instance : Labelled MoveKind where
  all := [.respawn, .embark, .walk, .glide, .swim, .ride, .teleport, .otherForced, .otherRefusable]
  label
    | .respawn => "Respawn"
    | .embark => "Embark"
    | .walk => "Move"
    | .glide => "Glide"
    | .swim => "Swim"
    | .ride => "Ride"
    | .teleport => "Teleport"
    | .otherForced => "OtherNonCancellable"
    | .otherRefusable => "OtherCancellable"
  find_label a := by cases a <;> decide +kernel

/-- Whether a denied move is rolled back. -/
def isRefusable : MoveKind → Bool
  | .respawn | .otherForced => false
  | _ => true

end MoveKind
end RegionAccess
