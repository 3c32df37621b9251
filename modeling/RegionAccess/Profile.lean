import Std.Data.ExtTreeMap
import RegionAccess.Id

/-! Names of players as they were last reported. Inside a runtime an insert is put off, and those
that are put off complete in any order. -/
namespace RegionAccess

structure Profile where
  id : EntityId
  name : String
  deriving DecidableEq

structure ProfileCache where
  names : Std.ExtTreeMap EntityId String := ∅
  /-- The inserts that have not completed. -/
  pending : List Profile := []

namespace ProfileCache

def insert (c : ProfileCache) (p : Profile) : ProfileCache :=
  { c with names := c.names.insert p.id p.name }

/-- Whether the insert was put off, and the cache after it was submitted. -/
def submit (c : ProfileCache) (inRuntime : Bool) (p : Profile) : Bool × ProfileCache :=
  (inRuntime, if inRuntime then { c with pending := c.pending ++ [p] } else c.insert p)

/-- Completes one of the inserts that were put off. -/
def complete (c : ProfileCache) (i : Nat) : ProfileCache :=
  match c.pending[i]? with
  | some p => { c.insert p with pending := c.pending.eraseIdx i }
  | none => c

def name? (c : ProfileCache) (id : EntityId) : Option String := c.names[id]?

def size (c : ProfileCache) : Nat := c.names.size

def isEmpty (c : ProfileCache) : Bool := c.size == 0

end ProfileCache
end RegionAccess
