import RegionAccess.Attribution
import RegionAccess.Cause
import RegionAccess.Relation

/-! From triggers to causal chains. A trigger is expanded through the links of entities depth
first, and recorded causes are placed in front of the actor they were recorded for, the farthest
first. No key occurs twice. -/
namespace RegionAccess

/-- How many members of a list are not yet among those seen. -/
def unseen {α : Type} [DecidableEq α] (all seen : List α) : Nat :=
  (all.filter (· ∉ seen)).length

theorem unseen_le {α : Type} [DecidableEq α] (all : List α) {seen more : List α} (h : seen ⊆ more) :
    unseen all more ≤ unseen all seen := by
  unfold unseen
  refine (List.Sublist.length_le ?_)
  induction all with
  | nil => simp
  | cons a all ih =>
    by_cases ha : a ∈ seen
    · simpa [ha, h ha] using ih
    · by_cases hm : a ∈ more
      · simpa [ha, hm] using ih.cons a
      · simpa [ha, hm] using ih.cons_cons a

theorem unseen_cons_lt {α : Type} [DecidableEq α] {all seen : List α} {a : α} (ha : a ∈ all)
    (hs : a ∉ seen) : unseen all (a :: seen) < unseen all seen := by
  induction all with
  | nil => simp at ha
  | cons b all ih =>
    have hle : unseen all (a :: seen) ≤ unseen all seen := unseen_le all (by simp)
    by_cases hb : b = a
    · subst hb
      simp only [unseen, List.filter_cons, List.mem_cons, true_or, not_true_eq_false, decide_false,
        Bool.false_eq_true, if_false, hs, not_false_eq_true, decide_true, if_true,
        List.length_cons] at hle ⊢
      omega
    · have ih := ih (by simpa [Ne.symm hb] using ha)
      by_cases hbs : b ∈ seen <;>
        simpa [unseen, List.filter_cons, hb, hbs] using ih

namespace Attributions

/-- The recorded cause of an actor, the cause of that, and so on, up to one that is missing,
unknown or already seen. -/
def ancestors (s : Attributions) (seen : List ActorKey) (a : ActorRef) : List ActorRef :=
  match _ : s.parent? a with
  | none => []
  | some p =>
    match _ : p.key? with
    | none => []
    | some key => if _ : key ∈ seen then [] else p :: s.ancestors (key :: seen) p
termination_by unseen (s.parents.filterMap (·.key?)) seen
decreasing_by
  exact unseen_cons_lt (List.mem_filterMap.mpr ⟨p, mem_parents ‹_›, ‹_›⟩) ‹_›

end Attributions

/-- A chain in the making, with the keys that may no longer enter it. -/
structure Chain where
  actors : List ActorRef := []
  seen : List ActorKey := []
  isIndirect : Bool := false

namespace Chain

/-- The actor at the end, led by its recorded ancestors. -/
def append (c : Chain) (s : Attributions) (a : ActorRef) : Chain :=
  let ancestors := s.ancestors c.seen a
  { c with
    actors := c.actors ++ ancestors.reverse ++ [a]
    seen := ancestors.filterMap (·.key?) ++ c.seen }

def toCause (c : Chain) : Cause := ⟨c.actors, c.isIndirect⟩

end Chain

/-- What is left to do: expand an actor, or put one whose links are done into the chain. -/
inductive Visit where
  | enter (actor : ActorRef)
  | leave (actor : ActorRef)

def Visit.weight : Visit → Nat
  | .enter _ => 2
  | .leave _ => 1

def totalWeight : List Visit → Nat
  | [] => 0
  | v :: vs => v.weight + totalWeight vs

/-- Expands actors depth first: those a link names come before the actor it belongs to. -/
def expand (r : Relations) (s : Attributions) (c : Chain) : List Visit → Chain
  | [] => c
  | .leave a :: rest => expand r s (c.append s a) rest
  | .enter a :: rest =>
    match _ : a.key? with
    | none => expand r s c rest
    | some key =>
      if _ : key ∈ c.seen then expand r s c rest
      else
        match _ : r.linkOf a with
        | none => expand r s { c with seen := key :: c.seen } (.leave a :: rest)
        | some link =>
          expand r s { c with seen := key :: c.seen, isIndirect := c.isIndirect || link.isIndirect }
            (link.actors.map .enter ++ .leave a :: rest)
termination_by visits =>
  (unseen (r.linked.map ActorKey.id) c.seen, totalWeight visits)
decreasing_by
  all_goals simp only [totalWeight, Visit.weight, Chain.append]
  · rcases Nat.lt_or_eq_of_le (unseen_le (r.linked.map ActorKey.id)
      (List.subset_append_right ((s.ancestors c.seen a).filterMap (·.key?)) c.seen)) with h | h
    · exact Prod.Lex.left _ _ h
    · rw [h]; exact Prod.Lex.right _ (by omega)
  · exact Prod.Lex.right _ (by omega)
  · exact Prod.Lex.right _ (by omega)
  · rcases Nat.lt_or_eq_of_le (unseen_le (r.linked.map ActorKey.id)
      (List.subset_cons_self key c.seen)) with h | h
    · exact Prod.Lex.left _ _ h
    · rw [h]; exact Prod.Lex.right _ (by omega)
  · rename_i hkey hseen hlink
    obtain ⟨id, hid, hid'⟩ := Relations.key_of_linkOf hlink
    rw [hkey, Option.some.injEq] at hid'
    subst hid'
    exact Prod.Lex.left _ _ (unseen_cons_lt (List.mem_map_of_mem hid) hseen)

/-- The cause of an event with the given triggers, the unknown among them skipped. -/
def resolve (r : Relations) (s : Attributions) (triggers : List ActorRef) : Cause :=
  (expand r s {} (triggers.map .enter)).toCause

end RegionAccess
