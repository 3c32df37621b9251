import Mathlib.Data.List.Chain
import RegionAccess.Proofs.Cause.Triggers

/-! The recorded causes of a single actor. They lead its chain in one line, the farthest first, and
the line is as long as the records allow. -/
namespace RegionAccess

/-- The second actor is recorded as the cause of the first, which is not a block. -/
def Attributions.Records (s : Attributions) (a p : ActorRef) : Prop :=
  (∀ b, a ≠ .block b) ∧ s.parent? a = some p

/-- A line of recorded causes that starts with the one of the actor: each is recorded for the actor
before it, none is unknown, and no key comes twice, that of the actor included. -/
structure Attributions.Ancestry (s : Attributions) (a : ActorRef) (line : List ActorRef) : Prop where
  recorded : List.IsChain s.Records (a :: line)
  known : .unknown ∉ line
  distinct : ((a :: line).filterMap (·.key?)).Nodup

namespace Attributions
variable {s : Attributions} {a p : ActorRef} {line : List ActorRef} {seen : List ActorKey}
  {key : ActorKey}

theorem Records.of_parent? (h : s.parent? a = some p) : s.Records a p := by
  refine ⟨fun b hb => ?_, h⟩
  subst hb
  cases h

theorem isChain_ancestors (s : Attributions) (seen : List ActorKey) (a : ActorRef) :
    List.IsChain s.Records (a :: s.ancestors seen a) := by
  fun_induction ancestors s seen a with
  | case1 => exact .singleton _
  | case2 => exact .singleton _
  | case3 => exact .singleton _
  | case4 seen a p hp key hkey hseen ih => exact .cons_cons (.of_parent? hp) ih

/-- A line of fresh keys goes no farther than the ancestors, and no other way. -/
theorem prefix_ancestors (hrecorded : List.IsChain s.Records (a :: line)) (hknown : .unknown ∉ line)
    (hfresh : (line.filterMap (·.key?) ++ seen).Nodup) : line <+: s.ancestors seen a := by
  induction line generalizing a seen with
  | nil => exact List.nil_prefix
  | cons p line ih =>
    obtain ⟨hfirst, hrest⟩ := List.isChain_cons_cons.mp hrecorded
    obtain ⟨key, hkey⟩ : ∃ key, p.key? = some key :=
      ActorRef.exists_key fun h => hknown (h ▸ List.mem_cons_self)
    rw [List.filterMap_cons_some hkey] at hfresh
    have hseen : key ∉ seen := fun h =>
      (List.nodup_cons.mp hfresh).1 (List.mem_append_right _ h)
    rw [ancestors_of_fresh hfirst.2 hkey hseen, List.prefix_cons_inj]
    exact ih hrest (fun h => hknown (List.mem_cons_of_mem p h))
      (List.perm_middle.nodup_iff.mpr hfresh)

theorem ancestry_ancestors (hkey : a.key? = some key) : s.Ancestry a (s.ancestors [key] a) := by
  refine ⟨s.isChain_ancestors [key] a, s.unknown_notMem_ancestors [key] a, ?_⟩
  rw [List.filterMap_cons_some hkey]
  exact (List.perm_append_singleton _ _).nodup_iff.mp
    (s.nodup_ancestors_keys a (List.nodup_singleton key))

theorem Ancestry.prefix_ancestors (h : s.Ancestry a line) (hkey : a.key? = some key) :
    line <+: s.ancestors [key] a := by
  have hkeys := h.distinct
  rw [List.filterMap_cons_some hkey] at hkeys
  exact Attributions.prefix_ancestors h.recorded h.known
    ((List.perm_append_singleton _ _).nodup_iff.mpr hkeys)

end Attributions

/-- Whatever is recorded, cycles included, the chain of an actor without a link is the actor led by
its recorded causes, the farthest first. These are the longest line from the actor, of which any
other is the beginning. The cause is not indirect. -/
theorem recorded_causes_lead (r : Relations) (s : Attributions) {a : ActorRef}
    (hknown : a ≠ .unknown) (hlink : r.linkOf a = none) :
    ∃ line, s.Ancestry a line ∧ (∀ other, s.Ancestry a other → other <+: line) ∧
      resolve r s [a] = ⟨line.reverse ++ [a], false⟩ := by
  obtain ⟨key, hkey⟩ := ActorRef.exists_key hknown
  exact ⟨s.ancestors [key] a, Attributions.ancestry_ancestors hkey,
    fun other h => h.prefix_ancestors hkey, resolve_of_unlinked hlink hkey⟩

/-! A trap. On record, the creeper set off the TNT that the skeleton is due to, and the TNT the
creeper. -/
namespace Trap

def tnt : EntityRef := { id := ⟨⟨3⟩⟩, kind := .primedTnt, location := Raid.place }

def records : Attributions where
  bindings := .ofList [(Raid.skeleton.id, Raid.caused (.entity tnt)),
    (tnt.id, Raid.caused (.entity Raid.creeper)), (Raid.creeper.id, Raid.caused (.entity tnt))]

end Trap

/-- The causes of the skeleton end where the TNT would come up again. -/
theorem recorded_causes_lead_in_trap :
    let r : Relations := .ofTable Raid.table
    ActorRef.entity Raid.skeleton ≠ .unknown ∧ r.linkOf (.entity Raid.skeleton) = none ∧
      resolve r Trap.records [.entity Raid.skeleton] =
        ⟨[.entity Raid.creeper, .entity Trap.tnt, .entity Raid.skeleton], false⟩ := by
  intro r
  have hskeleton : Trap.records.Records (.entity Raid.skeleton) (.entity Trap.tnt) :=
    .of_parent? rfl
  have htnt : Trap.records.Records (.entity Trap.tnt) (.entity Raid.creeper) := .of_parent? rfl
  have hancestry : Trap.records.Ancestry (.entity Raid.skeleton)
      [.entity Trap.tnt, .entity Raid.creeper] :=
    ⟨.cons_cons hskeleton (.cons_cons htnt (.singleton _)), by simp, by decide⟩
  obtain ⟨line, hline, hlongest, hresolve⟩ := recorded_causes_lead r Trap.records
    (a := .entity Raid.skeleton) ActorRef.noConfusion rfl
  obtain ⟨rest, rfl⟩ := hlongest _ hancestry
  cases rest with
  | nil => exact ⟨ActorRef.noConfusion, rfl, hresolve⟩
  | cons p rest =>
    -- the next of the line would be the TNT again
    obtain ⟨-, hafter⟩ := List.isChain_cons_cons.mp hline.recorded
    obtain ⟨-, hafter⟩ := List.isChain_cons_cons.mp hafter
    obtain ⟨⟨-, hparent⟩, -⟩ := List.isChain_cons_cons.mp hafter
    obtain rfl : .entity Trap.tnt = p := Option.some.inj hparent
    have hdistinct := hline.distinct
    simp [ActorRef.key?] at hdistinct

end RegionAccess
