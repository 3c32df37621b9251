import RegionAccess.Proofs.Cause.Reachability

/-! The order within a chain. Where links have no cycle, whoever the link of an entity names comes
before the entity, unless the entity is there as a recorded cause only. -/
namespace RegionAccess
open Relation (TransGen)

/-- Links lead no actor, of those that they lead to from the triggers, back to its own key. -/
def Relations.AcyclicFrom (r : Relations) (triggers : List ActorRef) : Prop :=
  ∀ a b, r.Reaches triggers a → TransGen r.Names a b → a.key? ≠ b.key?

/-- The actors that are still to be left come after whoever their links name: these have keys among
the given ones, or are visited first. -/
def LinksFirst (r : Relations) : List ActorKey → List Visit → Prop
  | _, [] => True
  | keys, .enter a :: rest => LinksFirst r (a.key?.toList ++ keys) rest
  | keys, .leave a :: rest =>
      (∀ b, r.Names a b → b.key?.toList ⊆ keys) ∧ LinksFirst r (a.key?.toList ++ keys) rest

section
variable {r : Relations} {s : Attributions} {c c' : Chain} {visits visits' : List Visit}
  {triggers : List ActorRef} {a b : ActorRef} {key : ActorKey}

namespace LinksFirst
variable {keys more : List ActorKey}

theorem mono (hkeys : keys ⊆ more) (h : LinksFirst r keys visits) : LinksFirst r more visits := by
  induction visits generalizing keys more with
  | nil => trivial
  | cons v rest ih =>
    have hstep : v.actor.key?.toList ++ keys ⊆ v.actor.key?.toList ++ more :=
      List.append_subset.mpr
        ⟨List.subset_append_left _ _, List.Subset.trans hkeys (List.subset_append_right _ _)⟩
    cases v with
    | enter a => exact ih hstep h
    | leave a => exact ⟨fun b hb => List.Subset.trans (h.1 b hb) hkeys, ih hstep h.2⟩

theorem enters (as : List ActorRef) (h : LinksFirst r (as.filterMap (·.key?) ++ keys) visits) :
    LinksFirst r keys (as.map .enter ++ visits) := by
  induction as generalizing keys with
  | nil => exact h
  | cons a as ih =>
    apply ih
    refine h.mono ?_
    cases hkey : a.key? <;> simp [hkey]

end LinksFirst

/-- What ends a prefix of two lists joined is in the second, or ends a prefix of the first. -/
theorem mem_or_prefix_of_prefix_append {α : Type} {before xs ys : List α} {x : α}
    (h : before ++ [x] <+: xs ++ ys) : x ∈ ys ∨ before ++ [x] <+: xs := by
  rcases List.prefix_or_prefix_of_prefix h (List.prefix_append xs ys) with h' | h'
  · exact .inr h'
  · rcases List.prefix_concat_iff.mp h' with rfl | ⟨rest, rfl⟩
    · exact .inr List.prefix_rfl
    · rw [List.append_assoc, List.prefix_append_right_inj] at h
      exact .inl (h.subset (List.mem_append_right _ List.mem_cons_self))

/-- Links lead from the actors under way to all that are visited before they are left. -/
def Nested (r : Relations) (visits : List Visit) : Prop :=
  visits.Pairwise fun v w => ∀ b, w = .leave b → TransGen r.Names b v.actor

theorem Nested.enters (as : List ActorRef) : Nested r (as.map .enter) := by
  refine List.pairwise_of_forall_mem_list fun v _ w hw b hb => ?_
  obtain ⟨d, -, rfl⟩ := List.mem_map.mp hw
  cases hb

theorem Nested.opened (h : Nested r (.enter a :: visits)) :
    Nested r ((r.named a).map .enter ++ .leave a :: visits) := by
  obtain ⟨hpaths, hnested⟩ := List.pairwise_cons.mp h
  refine List.pairwise_append.mpr
    ⟨Nested.enters _, List.pairwise_cons.mpr ⟨hpaths, hnested⟩, ?_⟩
  intro v hv w hw b hb
  obtain ⟨d, hd, rfl⟩ := List.mem_map.mp hv
  rcases List.mem_cons.mp hw with rfl | hw
  · exact Visit.leave.inj hb ▸ .single hd
  · exact (hpaths w hw b hb).tail hd

/-- Wherever an actor stands that is no recorded cause, those that its link names stand before. -/
def NamedBefore (r : Relations) (s : Attributions) (actors : List ActorRef) : Prop :=
  ∀ before a, before ++ [a] <+: actors → (∀ x p, s.parent? x = some p → p.key? ≠ a.key?) →
    ∀ b, r.Names a b → b.key?.toList ⊆ before.filterMap (·.key?)

theorem NamedBefore.append (h : NamedBefore r s c.actors)
    (hnamed : ∀ b, r.Names a b → b.key?.toList ⊆ c.actors.filterMap (·.key?)) :
    NamedBefore r s (c.append s a).actors := by
  intro before b hprefix hunrecorded d hd
  rw [Chain.append_actors, ← List.append_assoc] at hprefix
  rcases List.prefix_concat_iff.mp hprefix with heq | hprefix
  · obtain ⟨rfl, hlast⟩ := List.append_inj' heq rfl
    obtain rfl : b = a := List.head_eq_of_cons_eq hlast
    rw [List.filterMap_append]
    exact List.Subset.trans (hnamed d hd) (List.subset_append_left _ _)
  · rcases mem_or_prefix_of_prefix_append hprefix with hmem | hprefix
    · obtain ⟨x, -, hx⟩ := Attributions.exists_child_of_mem_ancestors (List.mem_reverse.mp hmem)
      exact absurd rfl (hunrecorded x b hx)
    · exact h before b hprefix hunrecorded d hd

/-- The order holds of the chain, and the visits to come will keep it. -/
structure Chain.Ordered (r : Relations) (s : Attributions) (c : Chain) (visits : List Visit) :
    Prop where
  nested : Nested r visits
  upcoming : LinksFirst r (c.actors.filterMap (·.key?)) visits
  placed : NamedBefore r s c.actors

/-- A key that is taken is in the chain already, when links lead to its actor from those under
way. -/
theorem Chain.Ordered.mem_keys_of_seen (hacyclic : r.AcyclicFrom triggers)
    (ht : c.Traced r s triggers (.enter a :: visits)) (hc : c.Ordered r s (.enter a :: visits))
    (hkey : a.key? = some key) (hseen : key ∈ c.seen) : key ∈ c.actors.filterMap (·.key?) := by
  obtain ⟨b, hb, hbkey⟩ := List.mem_filterMap.mp (ht.keyed.perm.mem_iff.mpr hseen)
  rcases List.mem_append.mp hb with hb | hb
  · exact List.mem_filterMap.mpr ⟨b, hb, hbkey⟩
  · -- Its holder is under way, so links lead from the holder to this actor: back to one key.
    have hleave : .leave b ∈ visits := leave_mem_of_mem_pending hb
    have hreached : r.Reaches triggers b := ht.reached _ (List.mem_cons_of_mem _ hleave)
    have hpath : TransGen r.Names b a := (List.pairwise_cons.mp hc.nested).1 _ hleave b rfl
    exact absurd (hbkey.trans hkey.symm) (hacyclic b a hreached hpath)

theorem Chain.Ordered.advance (hacyclic : r.AcyclicFrom triggers)
    (h : Advances r s c visits c' visits') (ht : c.Traced r s triggers visits)
    (hc : c.Ordered r s visits) : c'.Ordered r s visits' := by
  cases h with
  | @skipped a rest hseen =>
    have hrest : LinksFirst r (a.key?.toList ++ c.actors.filterMap (·.key?)) visits' := hc.upcoming
    refine ⟨(List.pairwise_cons.mp hc.nested).2, hrest.mono ?_, hc.placed⟩
    refine List.append_subset.mpr ⟨fun key hkey => ?_, List.Subset.refl _⟩
    rw [Option.mem_toList] at hkey
    exact hc.mem_keys_of_seen hacyclic ht hkey (hseen key hkey)
  | @opened a rest key hkey hseen =>
    have hrest : LinksFirst r (a.key?.toList ++ c.actors.filterMap (·.key?)) rest := hc.upcoming
    refine ⟨hc.nested.opened, .enters _ ⟨?_, hrest.mono ?_⟩, hc.placed⟩
    · intro b hb other hother
      rw [Option.mem_toList] at hother
      exact List.mem_append_left _ (List.mem_filterMap.mpr ⟨b, hb, hother⟩)
    · exact List.append_subset.mpr ⟨List.subset_append_left _ _,
        List.Subset.trans (List.subset_append_right _ _) (List.subset_append_right _ _)⟩
  | @closed a rest =>
    obtain ⟨hnamed, hrest⟩ := hc.upcoming
    refine ⟨(List.pairwise_cons.mp hc.nested).2, hrest.mono ?_, hc.placed.append hnamed⟩
    rw [append_actors, List.filterMap_append, List.filterMap_append]
    refine List.append_subset.mpr ⟨?_, List.subset_append_left _ _⟩
    intro key hkey
    rw [Option.mem_toList] at hkey
    simp [hkey]

theorem ordered_resolution (hacyclic : r.AcyclicFrom triggers) (s : Attributions) :
    (resolution r s triggers).Ordered r s [] := by
  refine (traced_invariant ⟨.enters triggers, ?_, ?_⟩ (.advance hacyclic)).2
  · rw [← List.append_nil (triggers.map Visit.enter)]
    exact .enters triggers trivial
  · intro before a hprefix
    have hnil : before ++ [a] = [] := List.prefix_nil.mp hprefix
    simp at hnil

/-- Keys that fall along links, by some measure, exclude cycles. -/
theorem Relations.AcyclicFrom.of_rank (rank : Option ActorKey → Nat)
    (h : ∀ e link, r.link? e = some link → ∀ b ∈ link.actors,
      rank b.key? < rank (some (.id e.id))) : r.AcyclicFrom triggers := by
  have hfalls {a b : ActorRef} (hnames : r.Names a b) : rank b.key? < rank a.key? := by
    obtain ⟨e, rfl⟩ := hnames.exists_entity
    obtain ⟨link, hlink, hb⟩ := Relations.names_iff.mp hnames
    exact h e link hlink b hb
  intro a b _ hpath
  have hlt : rank b.key? < rank a.key? := by
    induction hpath with
    | single hnames => exact hfalls hnames
    | tail _ hnames ih => exact Nat.lt_trans (hfalls hnames) ih
  exact fun hkey => Nat.ne_of_lt hlt (congrArg rank hkey.symm)

/-- Where one key is one reference, to lead back to a key is to lead round in a cycle. -/
theorem Distinct.acyclicFrom_iff (h : Distinct r s triggers) :
    r.AcyclicFrom triggers ↔ ∀ a, r.Reaches triggers a → ¬ TransGen r.Names a a := by
  constructor
  · exact fun hacyclic a ha hpath => hacyclic a a ha hpath rfl
  · intro hacyclic a b ha hpath hkey
    obtain ⟨d, hd, -⟩ := Relation.TransGen.head'_iff.mp hpath
    obtain ⟨e, rfl⟩ := hd.exists_entity
    have hfrom : Involves r s triggers (.entity e) := ha.involves ActorRef.noConfusion
    have hto : Involves r s triggers b := hfrom.trans (leadsTo_of_names hpath.to_reflTransGen)
    exact hacyclic _ ha (h _ b hfrom hto hkey ▸ hpath)

/-- In the raid, links lead to smaller ids. -/
theorem Raid.acyclicFrom (triggers : List ActorRef) :
    (Relations.ofTable table).AcyclicFrom triggers := by
  let rank : Option ActorKey → Nat
    | some (.id id) => id.uuid.value.toNat
    | _ => 0
  have hfalls : ∀ entry ∈ table, ∀ link ∈ entry.2, ∀ b ∈ link.actors,
      rank b.key? < rank (some (.id entry.1)) := by decide
  exact .of_rank rank fun e link h => hfalls _ (Relations.mem_table_of_link? h) link rfl

/-- Where links have no cycle, an entity that is not in the chain as a recorded cause comes after
all actors that its link names: after their keys, and where one key is one reference after the
actors themselves. -/
theorem linked_actors_come_first (h : r.AcyclicFrom triggers) {e : EntityRef}
    (he : .entity e ∈ (resolve r s triggers).actors)
    (hunrecorded : ∀ a p, s.parent? a = some p → p.key? ≠ some (.id e.id)) :
    ∃ before after, (resolve r s triggers).actors = before ++ .entity e :: after ∧
      ∀ b ∈ r.named (.entity e), b ≠ .unknown →
        (∃ a ∈ before, a.key? = b.key?) ∧ (Distinct r s triggers → b ∈ before) := by
  obtain ⟨before, after, heq⟩ := List.append_of_mem he
  refine ⟨before, after, heq, fun b hb hknown => ?_⟩
  have hprefix : before ++ [.entity e] <+: (resolution r s triggers).actors :=
    ⟨after, (List.append_cons _ _ _).symm.trans heq.symm⟩
  have hkeys := (ordered_resolution h s).placed before (.entity e) hprefix hunrecorded b hb
  obtain ⟨key, hkey⟩ := ActorRef.exists_key hknown
  obtain ⟨a, ha, hakey⟩ := List.mem_filterMap.mp (hkeys (Option.mem_toList.mpr hkey))
  refine ⟨⟨a, ha, hakey.trans hkey.symm⟩, fun hdistinct => ?_⟩
  have hinvolved : Involves r s triggers a :=
    involves_of_mem_resolve (heq ▸ List.mem_append_left _ ha)
  have hlinked : Involves r s triggers b :=
    (involves_of_mem_resolve he).trans (leadsTo_of_names (.single hb))
  exact hdistinct a b hinvolved hlinked (hakey.trans hkey.symm) ▸ ha

end

/-- Those on board the boat come before it. -/
theorem linked_actors_come_first_in_raid :
    let r : Relations := .ofTable Raid.table
    let triggers : List ActorRef := [.entity Raid.boat, .unknown]
    let cause := resolve r Raid.records triggers
    r.AcyclicFrom triggers ∧ .entity Raid.boat ∈ cause.actors ∧
      (∀ a p, Raid.records.parent? a = some p → p.key? ≠ some (.id Raid.boat.id)) ∧
      ∃ before after, cause.actors = before ++ .entity Raid.boat :: after ∧
        .entity Raid.zombie ∈ before ∧ .player Raid.rider ∈ before := by
  intro r triggers cause
  have hdistinct : Distinct r Raid.records triggers := by
    refine Raid.distinct (fun e link h => ?_) ?_ ?_
    · exact List.mem_cons_of_mem _ (Relations.mem_table_of_link? h)
    · simp [Raid.parents_records, Raid.everyone]
    · simp [triggers, Raid.everyone]
  have hboat : .entity Raid.boat ∈ cause.actors :=
    hdistinct.mem_resolve List.mem_cons_self ActorRef.noConfusion
  have hunrecorded (a p : ActorRef) (h : Raid.records.parent? a = some p) :
      p.key? ≠ some (.id Raid.boat.id) := by
    have hp := Attributions.mem_parents h
    rw [Raid.parents_records] at hp
    simp only [List.mem_cons, List.not_mem_nil, or_false] at hp
    rcases hp with rfl | rfl | rfl <;> decide
  have hacyclic := Raid.acyclicFrom triggers
  obtain ⟨before, after, heq, hfirst⟩ := linked_actors_come_first hacyclic hboat hunrecorded
  refine ⟨hacyclic, hboat, hunrecorded, before, after, heq, ?_, ?_⟩
  · exact (hfirst _ List.mem_cons_self ActorRef.noConfusion).2 hdistinct
  · have hrider : .player Raid.rider ∈ r.named (.entity Raid.boat) :=
      List.mem_of_mem_getLast? rfl
    exact (hfirst _ hrider ActorRef.noConfusion).2 hdistinct

end RegionAccess
