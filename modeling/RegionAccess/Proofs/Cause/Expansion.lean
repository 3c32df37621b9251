import Mathlib.Data.List.Perm.Basic
import RegionAccess.Cause.Resolution

/-! A resolution as a run of visits. There are three kinds of them, and what each keeps the whole
resolution keeps: first of all that the keys taken are those of the chain and of the actors under
way, each key once. -/
namespace RegionAccess

namespace ActorRef
variable {a b : ActorRef}

theorem exists_key (h : a ≠ .unknown) : ∃ key, a.key? = some key := by
  rwa [← Option.ne_none_iff_exists', ne_eq, key?_eq_none_iff]

theorem eq_unknown_or_ne (h : a.key? = b.key?) :
    a = .unknown ∧ b = .unknown ∨ a ≠ .unknown ∧ b ≠ .unknown := by
  have hunknown : a = .unknown ↔ b = .unknown := by
    rw [← key?_eq_none_iff, ← key?_eq_none_iff, h]
  by_cases ha : a = .unknown
  · exact .inl ⟨ha, hunknown.mp ha⟩
  · exact .inr ⟨ha, mt hunknown.mpr ha⟩

end ActorRef

namespace Relations

/-- Whoever the link of an actor names. -/
def named (r : Relations) (a : ActorRef) : List ActorRef := (r.linkOf a).elim [] Link.actors

/-- Whether the actor is linked to someone who need not have acted themselves. -/
def actsIndirectly (r : Relations) (a : ActorRef) : Bool := (r.linkOf a).any Link.isIndirect

end Relations

def Visit.actor : Visit → ActorRef
  | .enter a | .leave a => a

/-- The actors that are expanded, but not yet in the chain. -/
def pending (visits : List Visit) : List ActorRef :=
  visits.filterMap fun
    | .enter _ => none
    | .leave a => some a

@[simp] theorem pending_nil : pending [] = [] := rfl

@[simp] theorem pending_enter (a : ActorRef) (visits : List Visit) :
    pending (.enter a :: visits) = pending visits := rfl

@[simp] theorem pending_leave (a : ActorRef) (visits : List Visit) :
    pending (.leave a :: visits) = a :: pending visits := rfl

@[simp] theorem pending_enters (as : List ActorRef) : pending (as.map .enter) = [] := by
  induction as with
  | nil => rfl
  | cons a as ih => exact ih

@[simp] theorem pending_append (before after : List Visit) :
    pending (before ++ after) = pending before ++ pending after := List.filterMap_append

theorem leave_mem_of_mem_pending {a : ActorRef} {visits : List Visit} (h : a ∈ pending visits) :
    .leave a ∈ visits := by
  obtain ⟨v, hv, hva⟩ := List.mem_filterMap.mp h
  cases v with
  | enter b => cases hva
  | leave b => exact Option.some.inj hva ▸ hv

/-- The chain once an actor with a key is expanded. -/
def Chain.opened (c : Chain) (r : Relations) (a : ActorRef) (key : ActorKey) : Chain :=
  { c with seen := key :: c.seen, isIndirect := c.isIndirect || r.actsIndirectly a }

namespace Chain
variable (c : Chain) (r : Relations) (s : Attributions) (a : ActorRef) (key : ActorKey)

@[simp] theorem opened_actors : (c.opened r a key).actors = c.actors := rfl

@[simp] theorem opened_seen : (c.opened r a key).seen = key :: c.seen := rfl

@[simp] theorem opened_isIndirect :
    (c.opened r a key).isIndirect = (c.isIndirect || r.actsIndirectly a) := rfl

@[simp] theorem append_actors :
    (c.append s a).actors = c.actors ++ ((s.ancestors c.seen a).reverse ++ [a]) :=
  List.append_assoc _ _ _

@[simp] theorem append_seen :
    (c.append s a).seen = (s.ancestors c.seen a).filterMap (·.key?) ++ c.seen := rfl

@[simp] theorem append_isIndirect : (c.append s a).isIndirect = c.isIndirect := rfl

end Chain

/-- One visit is made: an actor without a key of its own to take is skipped, any other one is
expanded, and an expanded one is put into the chain. -/
inductive Advances (r : Relations) (s : Attributions) :
    Chain → List Visit → Chain → List Visit → Prop where
  | skipped {c : Chain} {a : ActorRef} {rest : List Visit} :
      (∀ key, a.key? = some key → key ∈ c.seen) → Advances r s c (.enter a :: rest) c rest
  | opened {c : Chain} {a : ActorRef} {rest : List Visit} {key : ActorKey} :
      a.key? = some key → key ∉ c.seen →
      Advances r s c (.enter a :: rest) (c.opened r a key)
        ((r.named a).map .enter ++ .leave a :: rest)
  | closed {c : Chain} {a : ActorRef} {rest : List Visit} :
      Advances r s c (.leave a :: rest) (c.append s a) rest

variable {r : Relations} {s : Attributions} {c c' : Chain} {visits visits' : List Visit}
  {a : ActorRef} {key : ActorKey}

theorem Advances.skipped_of_none {rest : List Visit} (h : a.key? = none) :
    Advances r s c (.enter a :: rest) c rest :=
  .skipped fun _ hkey => nomatch h.symm.trans hkey

theorem Advances.skipped_of_mem {rest : List Visit} (hkey : a.key? = some key)
    (hseen : key ∈ c.seen) : Advances r s c (.enter a :: rest) c rest :=
  .skipped fun _ hother => Option.some.inj (hkey.symm.trans hother) ▸ hseen

theorem Relations.named_of_linkOf {link : Link} (h : r.linkOf a = some link) :
    r.named a = link.actors := by rw [named, h]; rfl

theorem Relations.named_of_unlinked (h : r.linkOf a = none) : r.named a = [] := by
  rw [named, h]; rfl

theorem Chain.opened_of_linkOf {link : Link} (h : r.linkOf a = some link) :
    c.opened r a key =
      { c with seen := key :: c.seen, isIndirect := c.isIndirect || link.isIndirect } := by
  rw [opened, Relations.actsIndirectly, h]; rfl

theorem Chain.opened_of_unlinked (h : r.linkOf a = none) :
    c.opened r a key = { c with seen := key :: c.seen } := by
  rw [opened, Relations.actsIndirectly, h, Option.any_none, Bool.or_false]

theorem expand_eq_of_advances (h : Advances r s c visits c' visits') :
    expand r s c visits = expand r s c' visits' := by
  cases h with
  | skipped hseen =>
    rw [expand]
    split
    next => rfl
    next key hkey => rw [dif_pos (hseen key hkey)]
  | @opened a rest key hkey hseen =>
    rw [expand]
    split
    next hnone => cases hkey.symm.trans hnone
    next found hfound =>
      obtain rfl : key = found := Option.some.inj (hkey.symm.trans hfound)
      rw [dif_neg hseen]
      split
      next hlink => rw [Chain.opened_of_unlinked hlink, Relations.named_of_unlinked hlink]; rfl
      next link hlink => rw [Chain.opened_of_linkOf hlink, Relations.named_of_linkOf hlink]
  | closed => rw [expand]

/-- What every visit keeps holds once all are made. -/
theorem expand_invariant {I : Chain → List Visit → Prop}
    (hstep : ∀ {c visits c' visits'}, Advances r s c visits c' visits' → I c visits → I c' visits')
    (h : I c visits) : I (expand r s c visits) [] := by
  fun_induction expand r s c visits with
  | case1 c => exact h
  | case2 c a rest ih => exact ih (hstep .closed h)
  | case3 c a rest hkey ih => exact ih (hstep (.skipped_of_none hkey) h)
  | case4 c a rest key hkey hseen ih => exact ih (hstep (.skipped_of_mem hkey hseen) h)
  | case5 c a rest key hkey hseen hlink ih =>
    apply ih
    have hopened := hstep (.opened hkey hseen) h
    rwa [Chain.opened_of_unlinked hlink, Relations.named_of_unlinked hlink] at hopened
  | case6 c a rest key hkey hseen link hlink ih =>
    apply ih
    have hopened := hstep (.opened hkey hseen) h
    rwa [Chain.opened_of_linkOf hlink, Relations.named_of_linkOf hlink] at hopened

/-- Visits to come wait until those before them are made. -/
theorem expand_append (c : Chain) (visits rest : List Visit) :
    expand r s c (visits ++ rest) = expand r s (expand r s c visits) rest := by
  fun_induction expand r s c visits with
  | case1 c => rfl
  | case2 c a visits ih => rw [List.cons_append, expand_eq_of_advances .closed, ih]
  | case3 c a visits hkey ih =>
    rw [List.cons_append, ← ih, expand_eq_of_advances (.skipped_of_none hkey)]
  | case4 c a visits key hkey hseen ih =>
    rw [List.cons_append, ← ih, expand_eq_of_advances (.skipped_of_mem hkey hseen)]
  | case5 c a visits key hkey hseen hlink ih =>
    rw [List.cons_append, ← ih, expand_eq_of_advances (.opened hkey hseen),
      Chain.opened_of_unlinked hlink, Relations.named_of_unlinked hlink]
    rfl
  | case6 c a visits key hkey hseen link hlink ih =>
    rw [List.cons_append, ← ih, expand_eq_of_advances (.opened hkey hseen),
      Chain.opened_of_linkOf hlink, Relations.named_of_linkOf hlink, List.append_assoc]
    rfl

/-- What is in the chain stays where it is. -/
theorem actors_prefix_expand (r : Relations) (s : Attributions) (c : Chain) (visits : List Visit) :
    c.actors <+: (expand r s c visits).actors := by
  refine expand_invariant (I := fun later _ => c.actors <+: later.actors) ?_ List.prefix_rfl
  intro later _ _ _ hstep h
  cases hstep with
  | skipped => exact h
  | opened => exact h
  | closed =>
    rw [Chain.append_actors]
    exact h.trans (List.prefix_append _ _)

/-- No key that was taken is given back. -/
theorem seen_subset_expand (r : Relations) (s : Attributions) (c : Chain) (visits : List Visit) :
    c.seen ⊆ (expand r s c visits).seen := by
  refine expand_invariant (I := fun later _ => c.seen ⊆ later.seen) ?_ (List.Subset.refl _)
  intro later _ _ _ hstep h
  cases hstep with
  | skipped => exact h
  | opened => exact List.subset_cons_of_subset _ h
  | closed => exact List.subset_append_of_subset_right _ h

namespace Attributions

/-- The ancestors end where no recorded cause has a key of its own to take. -/
theorem ancestors_of_taken {seen : List ActorKey}
    (h : ∀ p key, s.parent? a = some p → p.key? = some key → key ∈ seen) :
    s.ancestors seen a = [] := by
  rw [ancestors]
  split
  next => rfl
  next p hp =>
    split
    next => rfl
    next key hkey => rw [dif_pos (h p key hp hkey)]

theorem ancestors_of_none (h : s.parent? a = none) (seen : List ActorKey) :
    s.ancestors seen a = [] := by
  refine ancestors_of_taken fun p key hp _ => ?_
  cases h.symm.trans hp

theorem ancestors_of_fresh {p : ActorRef} {seen : List ActorKey} (h : s.parent? a = some p)
    (hkey : p.key? = some key) (hseen : key ∉ seen) :
    s.ancestors seen a = p :: s.ancestors (key :: seen) p := by
  rw [ancestors]
  split
  next hnone => cases h.symm.trans hnone
  next q hq =>
    obtain rfl : p = q := Option.some.inj (h.symm.trans hq)
    split
    next hnone => cases hkey.symm.trans hnone
    next found hfound =>
      obtain rfl : key = found := Option.some.inj (hkey.symm.trans hfound)
      rw [dif_neg hseen]

theorem unknown_notMem_ancestors (s : Attributions) (seen : List ActorKey) (a : ActorRef) :
    .unknown ∉ s.ancestors seen a := by
  fun_induction ancestors s seen a with
  | case1 => simp
  | case2 => simp
  | case3 => simp
  | case4 seen a p hp key hkey hseen ih =>
    rw [List.mem_cons]
    rintro (rfl | hunknown)
    · cases hkey
    · exact ih hunknown

/-- An ancestor is recorded for the actor itself or for another ancestor. -/
theorem exists_child_of_mem_ancestors {b : ActorRef} {seen : List ActorKey}
    (h : b ∈ s.ancestors seen a) : ∃ x ∈ a :: s.ancestors seen a, s.parent? x = some b := by
  fun_induction ancestors s seen a with
  | case1 => cases h
  | case2 => cases h
  | case3 => cases h
  | case4 seen a p hp key hkey hseen ih =>
    rcases List.mem_cons.mp h with rfl | h
    · exact ⟨a, List.mem_cons_self, hp⟩
    · obtain ⟨x, hx, hparent⟩ := ih h
      exact ⟨x, List.mem_cons_of_mem _ hx, hparent⟩

/-- Ancestors have keys of their own, none of them among those seen. -/
theorem nodup_ancestors_keys (s : Attributions) {seen : List ActorKey} (a : ActorRef)
    (h : seen.Nodup) : ((s.ancestors seen a).filterMap (·.key?) ++ seen).Nodup := by
  fun_induction ancestors s seen a with
  | case1 => exact h
  | case2 => exact h
  | case3 => exact h
  | case4 seen a p hp key hkey hseen ih =>
    rw [List.filterMap_cons_some hkey]
    exact List.perm_middle.nodup_iff.mp (ih (List.nodup_cons.mpr ⟨hseen, h⟩))

end Attributions

/-- The keys taken are those of the chain and of the actors under way, each of them once. -/
structure Chain.Keyed (c : Chain) (visits : List Visit) : Prop where
  known : .unknown ∉ c.actors ++ pending visits
  perm : ((c.actors ++ pending visits).filterMap (·.key?)).Perm c.seen
  nodup : c.seen.Nodup

theorem Chain.Keyed.advance (h : Advances r s c visits c' visits') (hc : c.Keyed visits) :
    c'.Keyed visits' := by
  cases h with
  | skipped => exact ⟨hc.known, hc.perm, hc.nodup⟩
  | @opened a rest key hkey hseen =>
    have hopened : (c.actors ++ a :: pending rest).Perm (a :: (c.actors ++ pending rest)) :=
      List.perm_middle
    refine ⟨?_, ?_, List.nodup_cons.mpr ⟨hseen, hc.nodup⟩⟩
    · rw [pending_append, pending_enters, List.nil_append, pending_leave, opened_actors,
        hopened.mem_iff, List.mem_cons]
      rintro (rfl | hunknown)
      · cases hkey
      · exact hc.known hunknown
    · rw [pending_append, pending_enters, List.nil_append, pending_leave, opened_actors,
        opened_seen]
      refine (hopened.filterMap _).trans ?_
      rw [List.filterMap_cons_some hkey]
      exact hc.perm.cons key
  | @closed a rest =>
    -- Ancestors go between the chain and their actor; which keys there are does not depend on it.
    have hplaced : ((c.append s a).actors ++ pending visits').Perm
        (s.ancestors c.seen a ++ (c.actors ++ a :: pending visits')) := by
      rw [append_actors, List.append_assoc, List.append_assoc]
      refine (List.perm_append_comm_assoc _ _ _).trans ?_
      exact (List.reverse_perm _).append_right _
    refine ⟨?_, ?_, s.nodup_ancestors_keys a hc.nodup⟩
    · rw [hplaced.mem_iff, List.mem_append]
      rintro (hunknown | hunknown)
      · exact s.unknown_notMem_ancestors c.seen a hunknown
      · exact hc.known hunknown
    · refine (hplaced.filterMap _).trans ?_
      rw [List.filterMap_append, append_seen]
      exact hc.perm.append_left _

/-- Whatever key the actor has is taken, or the actor is still to be expanded. -/
def Chain.Covers (c : Chain) (visits : List Visit) (a : ActorRef) : Prop :=
  .enter a ∈ visits ∨ ∀ key, a.key? = some key → key ∈ c.seen

theorem Chain.Covers.advance (h : Advances r s c visits c' visits') (ha : c.Covers visits a) :
    c'.Covers visits' a := by
  cases h with
  | skipped hseen =>
    rcases ha with hmem | hkey
    · rcases List.mem_cons.mp hmem with heq | hmem
      · exact .inr (Visit.enter.inj heq ▸ hseen)
      · exact .inl hmem
    · exact .inr hkey
  | @opened b rest key hkey hseen =>
    rcases ha with hmem | htaken
    · rcases List.mem_cons.mp hmem with heq | hmem
      · obtain rfl : a = b := Visit.enter.inj heq
        refine .inr fun other hother => ?_
        exact Option.some.inj (hkey.symm.trans hother) ▸ List.mem_cons_self
      · exact .inl (List.mem_append_right _ (List.mem_cons_of_mem _ hmem))
    · exact .inr fun other hother => List.mem_cons_of_mem key (htaken other hother)
  | closed =>
    rcases ha with hmem | htaken
    · exact .inl (List.mem_of_ne_of_mem Visit.noConfusion hmem)
    · exact .inr fun other hother => List.mem_append_right _ (htaken other hother)

theorem Chain.Covers.mem_seen (h : c.Covers [] a) (hkey : a.key? = some key) : key ∈ c.seen :=
  h.resolve_left List.not_mem_nil key hkey

/-- The keys of a chain, in its order. -/
def Cause.keys (c : Cause) : List ActorKey := c.actors.filterMap (·.key?)

theorem Cause.mem_keys {c : Cause} : key ∈ c.keys ↔ ∃ a ∈ c.actors, a.key? = some key :=
  List.mem_filterMap

section
variable (r : Relations) (s : Attributions) (triggers : List ActorRef)

/-- The chain that the triggers come to. -/
def resolution : Chain := expand r s {} (triggers.map .enter)

variable {r s triggers} in
theorem resolution_invariant {I : Chain → List Visit → Prop} (h : I {} (triggers.map .enter))
    (hstep : ∀ {c visits c' visits'},
      Advances r s c visits c' visits' → I c visits → I c' visits') :
    I (resolution r s triggers) [] := expand_invariant hstep h

theorem keyed_enters : ({} : Chain).Keyed (triggers.map .enter) := by
  refine ⟨?_, ?_, List.nodup_nil⟩
  · rw [pending_enters]
    exact List.not_mem_nil
  · rw [pending_enters]
    exact .nil

theorem keyed_resolution : (resolution r s triggers).Keyed [] :=
  resolution_invariant (I := Chain.Keyed) (keyed_enters triggers) fun h => .advance h

theorem resolve_keys_perm : (resolve r s triggers).keys.Perm (resolution r s triggers).seen := by
  have hperm := (keyed_resolution r s triggers).perm
  rwa [pending_nil, List.append_nil] at hperm

theorem unknown_notMem_resolve : .unknown ∉ (resolve r s triggers).actors := by
  have hknown := (keyed_resolution r s triggers).known
  rwa [pending_nil, List.append_nil] at hknown

theorem nodup_resolve_keys : (resolve r s triggers).keys.Nodup :=
  (resolve_keys_perm r s triggers).nodup_iff.mpr (keyed_resolution r s triggers).nodup

theorem length_resolve_keys :
    (resolve r s triggers).keys.length = (resolve r s triggers).actors.length := by
  rw [Cause.keys, List.filterMap_length_eq_length]
  intro a ha
  rw [Option.isSome_iff_ne_none, ne_eq, ActorRef.key?_eq_none_iff]
  rintro rfl
  exact unknown_notMem_resolve r s triggers ha

variable {r s triggers} in
/-- Every trigger is in the chain, at least by its key. -/
theorem trigger_mem_resolve_keys (h : a ∈ triggers) (hkey : a.key? = some key) :
    key ∈ (resolve r s triggers).keys := by
  have hcovers : (resolution r s triggers).Covers [] a :=
    resolution_invariant (I := fun c visits => c.Covers visits a) (.inl (List.mem_map_of_mem h))
      fun h => .advance h
  rw [(resolve_keys_perm r s triggers).mem_iff]
  exact hcovers.mem_seen hkey

end
end RegionAccess
