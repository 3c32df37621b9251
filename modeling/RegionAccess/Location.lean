import RegionAccess.Id
import RegionAccess.Number.Fixed

/-! Continuous positions with a look direction, and the block cells at whose granularity policy
is decided. -/
namespace RegionAccess

structure Location where
  world : WorldId
  x : Float
  y : Float
  z : Float
  yaw : Float32 := 0
  pitch : Float32 := 0
  deriving BEq

structure Block where
  world : WorldId
  x : Int32
  y : Int32
  z : Int32
  deriving DecidableEq, Repr

/-- The nearest 32-bit integer. -/
def clampInt32 (n : Int) : Int32 :=
  Int32.ofInt (max Int32.minValue.toInt (min n Int32.maxValue.toInt))

/-- The cell of a coordinate: its floor, held within 32 bits; not-a-number falls in cell zero. -/
def cell (x : Float) : Int32 :=
  match Number.readDouble x with
  | .finite d => clampInt32 d.floor
  | .infinite negative => if negative then Int32.minValue else Int32.maxValue
  | .notANumber => 0

namespace Location

def block (l : Location) : Block := ⟨l.world, cell l.x, cell l.y, cell l.z⟩

def leavesBlock (l m : Location) : Bool := l.block != m.block

@[simp] theorem leavesBlock_eq_true_iff {l m : Location} :
    l.leavesBlock m = true ↔ l.block ≠ m.block := by
  simp [leavesBlock]

@[simp] theorem leavesBlock_eq_false_iff {l m : Location} :
    l.leavesBlock m = false ↔ l.block = m.block := by
  simp [leavesBlock]

/-- The same position, facing another way. -/
def facing (l : Location) (yaw pitch : Float32) : Location := { l with yaw, pitch }

def text (l : Location) : String :=
  l.world.text ++ "(" ++ Number.fixedText 2 l.x ++ ", " ++ Number.fixedText 2 l.y ++ ", " ++
    Number.fixedText 2 l.z ++ ")"

end Location

namespace Block

/-- By world, then by each coordinate. -/
instance : Ord Block where
  compare a b :=
    (compare a.world b.world).then <| (compare a.x b.x).then <| (compare a.y b.y).then <|
      compare a.z b.z

/-- The middle of a cell's edge. -/
def middle (n : Int32) : Float :=
  let halves := 2 * n.toInt + 1
  Number.toDouble (.finite ⟨halves < 0, halves.natAbs, -1⟩)

/-- The center of the block's bottom face. -/
def center (b : Block) : Location :=
  ⟨b.world, middle b.x, Number.toDouble (.finite (.ofInt b.y.toInt)), middle b.z, 0, 0⟩

def text (b : Block) : String :=
  b.world.text ++ "[" ++ b.x.toInt.repr ++ ", " ++ b.y.toInt.repr ++ ", " ++ b.z.toInt.repr ++ "]"

end Block
end RegionAccess
