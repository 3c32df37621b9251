import Std.Data.ExtTreeMap
import RegionAccess.Actor

/-! A side table that attaches actors, under named keys, to players and entities. One reserved
key records the cause of an actor. -/
namespace RegionAccess

inductive AttributionError where
  | blockNotTrackable (block : Block)
  | unknownTarget
  deriving DecidableEq

def AttributionError.message : AttributionError → String
  | .blockNotTrackable b => "block at " ++ b.text ++ " cannot carry attribution data"
  | .unknownTarget => "cannot attach attribution data to an unknown actor"

/-- What is attached to each identity. -/
structure Attributions where
  bindings : Std.ExtTreeMap EntityId (Std.ExtTreeMap String ActorRef) := ∅

namespace Attributions

/-- The key of a recorded cause. -/
def causeKey : String := "regionward.cause"

/-- The identity data can be attached to. -/
def slot (target : ActorRef) : Except AttributionError EntityId :=
  match target with
  | .player p => .ok p.id
  | .offlineUser u => .ok u.id
  | .entity e => .ok e.id
  | .block b => .error (.blockNotTrackable b.block)
  | .unknown => .error .unknownTarget

/-- What is attached to an identity, empty when nothing is. -/
def table (s : Attributions) (id : EntityId) : Std.ExtTreeMap String ActorRef :=
  (s.bindings[id]?).getD ∅

def put (s : Attributions) (target : ActorRef) (key : String) (value : ActorRef) :
    Except AttributionError Attributions :=
  (slot target).map fun id => ⟨s.bindings.insert id ((s.table id).insert key value)⟩

def get? (s : Attributions) (target : ActorRef) (key : String) : Option ActorRef :=
  target.id?.bind fun id => (s.table id)[key]?

/-- The detached value and the rest; an identity with nothing left is dropped. -/
def remove (s : Attributions) (target : ActorRef) (key : String) : Option ActorRef × Attributions :=
  match target.id? with
  | none => (none, s)
  | some id =>
      let rest := (s.table id).erase key
      ((s.table id)[key]?,
        ⟨if rest.isEmpty then s.bindings.erase id else s.bindings.insert id rest⟩)

def removeAll (s : Attributions) (target : ActorRef) : Attributions :=
  match target.id? with
  | none => s
  | some id => ⟨s.bindings.erase id⟩

/-- How many identities have anything attached. -/
def size (s : Attributions) : Nat := s.bindings.size

def isEmpty (s : Attributions) : Bool := s.size == 0

def track (s : Attributions) (target parent : ActorRef) : Except AttributionError Attributions :=
  s.put target causeKey parent

def untrack (s : Attributions) (target : ActorRef) : Attributions := (s.remove target causeKey).2

def parent? (s : Attributions) (target : ActorRef) : Option ActorRef := s.get? target causeKey

/-- Every recorded cause. -/
def parents (s : Attributions) : List ActorRef := s.bindings.toList.filterMap (·.2[causeKey]?)

theorem mem_parents {s : Attributions} {a p : ActorRef} (h : s.parent? a = some p) :
    p ∈ s.parents := by
  simp only [parent?, get?, Option.bind_eq_some_iff] at h
  obtain ⟨id, -, h⟩ := h
  unfold table at h
  cases ht : s.bindings[id]? with
  | none => simp [ht] at h
  | some t =>
    rw [ht, Option.getD_some] at h
    exact List.mem_filterMap.mpr ⟨(id, t), Std.ExtTreeMap.mem_toList_iff_getElem?_eq_some.mpr ht, h⟩

end Attributions
end RegionAccess
