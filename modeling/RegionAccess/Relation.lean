import RegionAccess.Actor

/-! How entities point at whoever is responsible for them. Only finitely many entities do. -/
namespace RegionAccess

inductive Link where
  | shooter (actor : ActorRef)
  | igniter (actor : ActorRef)
  | passengers (actors : List ActorRef)
  | areaSource (actor : ActorRef)
  | target (actor : ActorRef)
  | owner (actor : ActorRef)

namespace Link

def actors : Link → List ActorRef
  | .shooter a | .igniter a | .areaSource a | .target a | .owner a => [a]
  | .passengers as => as

/-- Whether whoever is found through the link need not have acted themselves. -/
def isIndirect : Link → Bool
  | .areaSource _ | .target _ | .owner _ => true
  | .shooter _ | .igniter _ | .passengers _ => false

end Link

structure Relations where
  link? : EntityRef → Option Link
  /-- The ids of all entities that have a link. -/
  linked : List EntityId
  mem_linked : ∀ e, (link? e).isSome → e.id ∈ linked

namespace Relations

/-- Links given by entity id, the last entry of an id deciding. -/
def ofTable (table : List (EntityId × Option Link)) : Relations where
  link? e := (table.reverse.lookup e.id).join
  linked := table.map (·.1)
  mem_linked e h := by
    cases ht : table.reverse.lookup e.id with
    | none => simp [ht] at h
    | some l =>
      obtain ⟨before, after, hsplit, -⟩ := List.lookup_eq_some_iff.mp ht
      have hmem : (e.id, l) ∈ table.reverse := by simp [hsplit]
      exact List.mem_map.mpr ⟨(e.id, l), List.mem_reverse.mp hmem, rfl⟩

/-- The link of an actor; only entities have one. -/
def linkOf (r : Relations) : ActorRef → Option Link
  | .entity e => r.link? e
  | .player _ | .offlineUser _ | .block _ | .unknown => none

theorem key_of_linkOf {r : Relations} {a : ActorRef} {l : Link} (h : r.linkOf a = some l) :
    ∃ id ∈ r.linked, a.key? = some (.id id) := by
  cases a with
  | entity e => exact ⟨e.id, r.mem_linked e (by simp_all [linkOf]), rfl⟩
  | _ => simp [linkOf] at h

end Relations
end RegionAccess
