import RegionAccess.Cause

/-! Changes to blocks, with their cause. What policy leaves of a change is what the host carries
out: a cancelled one not at all, another one at the locations that are left. -/
namespace RegionAccess

inductive ChangeKind where
  | placing | breaking
  deriving DecidableEq, Repr

structure BlockChange where
  kind : ChangeKind
  cause : Cause
  world : WorldId
  locations : List Location
  isCancelled : Bool := false

/-- The locations that pass, every one of them tested. -/
def keepPassing {m : Type → Type} [Monad m] (passes : Location → m Bool) :
    List Location → m (List Location)
  | [] => pure []
  | l :: ls => do
      if ← passes l then return l :: (← keepPassing passes ls) else keepPassing passes ls

/-- Whether some location does not pass; none is tested after the first of them. -/
def someFails {m : Type → Type} [Monad m] (passes : Location → m Bool) : List Location → m Bool
  | [] => pure false
  | l :: ls => do if ← passes l then someFails passes ls else return true

namespace BlockChange

/-- Drops what does not pass, or cancels the change as a whole because of it; the first part of
the result is whether anything did not pass. -/
def filter {m : Type → Type} [Monad m] (e : BlockChange) (passes : Location → m Bool)
    (cancels : Bool) : m (Bool × BlockChange) := do
  if cancels then
    let rejected ← someFails passes e.locations
    return (rejected, { e with isCancelled := e.isCancelled || rejected })
  else
    let left ← keepPassing passes e.locations
    return (left.length != e.locations.length, { e with locations := left })

end BlockChange
end RegionAccess
