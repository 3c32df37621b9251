/-! Work that is due every so many server ticks, first after one whole interval. -/
namespace RegionAccess

structure Schedule where
  /-- Zero stands for never. -/
  interval : Nat
  deriving DecidableEq, Repr

def Schedule.fires (s : Schedule) (tick : Nat) : Bool :=
  tick != 0 && s.interval != 0 && tick % s.interval == 0

end RegionAccess
