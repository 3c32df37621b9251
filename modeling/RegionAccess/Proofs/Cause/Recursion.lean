import Mathlib.Data.Set.Card
import RegionAccess.Proofs.Cause.Reachability

/-! Resolution as a recursion. Adding an actor adds whoever its link names before it and climbs its
recorded causes, and both take keys from one store. The recursion ends on every input, cycles
included, and what it ends with is the resolution. -/
namespace RegionAccess

/-- Which recorded causes are climbed from an actor, up to one that is missing or unknown, or whose
key is taken. -/
inductive Climbs (s : Attributions) : List ActorKey → ActorRef → List ActorRef → Prop where
  | stop {seen : List ActorKey} {a : ActorRef} :
      (∀ p key, s.parent? a = some p → p.key? = some key → key ∈ seen) → Climbs s seen a []
  | up {seen : List ActorKey} {a p : ActorRef} {key : ActorKey} {line : List ActorRef} :
      s.parent? a = some p → p.key? = some key → key ∉ seen → Climbs s (key :: seen) p line →
      Climbs s seen a (p :: line)

/-- The actor at the end, led by the causes that were climbed from it. -/
def Chain.led (c : Chain) (line : List ActorRef) (a : ActorRef) : Chain :=
  { c with
    actors := c.actors ++ line.reverse ++ [a]
    seen := line.filterMap (·.key?) ++ c.seen }

/-- What the chain becomes when actors are added to it one after the other. An actor without a key
of its own to take is skipped. Any other one takes its key, lets in whoever its link names, and is
added behind the causes that are climbed from it. -/
inductive Adds (r : Relations) (s : Attributions) : Chain → List ActorRef → Chain → Prop where
  | done {c : Chain} : Adds r s c [] c
  | skipped {c c' : Chain} {a : ActorRef} {rest : List ActorRef} :
      (∀ key, a.key? = some key → key ∈ c.seen) → Adds r s c rest c' → Adds r s c (a :: rest) c'
  | added {c named c' : Chain} {a : ActorRef} {rest line : List ActorRef} {key : ActorKey} :
      a.key? = some key → key ∉ c.seen → Adds r s (c.opened r a key) (r.named a) named →
      Climbs s named.seen a line → Adds r s (named.led line a) rest c' →
      Adds r s c (a :: rest) c'

section
variable {r : Relations} {s : Attributions} {c c' : Chain} {a : ActorRef}
  {actors line : List ActorRef} {seen : List ActorKey}

theorem climbs_ancestors (s : Attributions) (seen : List ActorKey) (a : ActorRef) :
    Climbs s seen a (s.ancestors seen a) := by
  fun_induction Attributions.ancestors s seen a with
  | case1 seen a hnone =>
    refine .stop fun p key hp _ => ?_
    cases hnone.symm.trans hp
  | case2 seen a p hp hkey =>
    refine .stop fun q key hq hqkey => ?_
    obtain rfl : p = q := Option.some.inj (hp.symm.trans hq)
    cases hkey.symm.trans hqkey
  | case3 seen a p hp key hkey hseen =>
    refine .stop fun q other hq hother => ?_
    obtain rfl : p = q := Option.some.inj (hp.symm.trans hq)
    exact Option.some.inj (hkey.symm.trans hother) ▸ hseen
  | case4 seen a p hp key hkey hseen ih => exact .up hp hkey hseen ih

theorem Climbs.eq_ancestors (h : Climbs s seen a line) : line = s.ancestors seen a := by
  induction h with
  | stop hstop => exact (Attributions.ancestors_of_taken hstop).symm
  | up hp hkey hseen _ ih => rw [Attributions.ancestors_of_fresh hp hkey hseen, ← ih]

theorem Climbs.led_eq_append (h : Climbs s c.seen a line) : c.led line a = c.append s a := by
  rw [h.eq_ancestors]
  rfl

/-- Adding actors is visiting them. -/
theorem Adds.expand_eq (h : Adds r s c actors c') : expand r s c (actors.map .enter) = c' := by
  induction h with
  | done => rw [List.map_nil, expand]
  | skipped hseen _ ih => rw [List.map_cons, expand_eq_of_advances (.skipped hseen), ih]
  | added hkey hseen _ hclimbs _ ihnamed ihrest =>
    rw [List.map_cons, expand_eq_of_advances (.opened hkey hseen), expand_append, ihnamed,
      expand_eq_of_advances .closed, ← hclimbs.led_eq_append, ihrest]

theorem Adds.seen_subset (h : Adds r s c actors c') : c.seen ⊆ c'.seen :=
  h.expand_eq ▸ seen_subset_expand r s c _

/-- The recursion ends: those that a link names are added with one key of a linked entity less to
take, and the actors after them with no more than before. -/
theorem exists_adds (r : Relations) (s : Attributions) (c : Chain) :
    ∀ actors, ∃ c', Adds r s c actors c'
  | [] => ⟨c, .done⟩
  | a :: rest => by
    by_cases hskip : ∀ key, a.key? = some key → key ∈ c.seen
    · obtain ⟨c', hrest⟩ := exists_adds r s c rest
      exact ⟨c', .skipped hskip hrest⟩
    · push Not at hskip
      obtain ⟨key, hkey, hseen⟩ := hskip
      obtain ⟨named, hnamed⟩ : ∃ named, Adds r s (c.opened r a key) (r.named a) named := by
        cases hlink : r.linkOf a with
        | none =>
          rw [Relations.named_of_unlinked hlink]
          exact ⟨_, .done⟩
        | some link =>
          obtain ⟨id, hid, hidkey⟩ := Relations.key_of_linkOf hlink
          obtain rfl : key = .id id := Option.some.inj (hkey.symm.trans hidkey)
          have hfewer : unseen (r.linked.map ActorKey.id) (.id id :: c.seen) <
              unseen (r.linked.map ActorKey.id) c.seen :=
            unseen_cons_lt (List.mem_map_of_mem hid) hseen
          exact exists_adds r s (c.opened r a (.id id)) (r.named a)
      have hclimbs := climbs_ancestors s named.seen a
      have hkept : c.seen ⊆ (named.led (s.ancestors named.seen a) a).seen :=
        List.subset_append_of_subset_right _
          (List.Subset.trans (List.subset_cons_self key c.seen) hnamed.seen_subset)
      have hnomore := unseen_le (r.linked.map ActorKey.id) hkept
      obtain ⟨c', hrest⟩ := exists_adds r s (named.led (s.ancestors named.seen a) a) rest
      exact ⟨c', .added hkey hseen hnamed hclimbs hrest⟩
termination_by actors => (unseen (r.linked.map ActorKey.id) c.seen, actors.length)
decreasing_by
  · exact Prod.Lex.right _ (Nat.lt_succ_self _)
  · exact Prod.Lex.left _ _ hfewer
  · rcases Nat.lt_or_eq_of_le hnomore with hless | hsame
    · exact Prod.Lex.left _ _ hless
    · rw [hsame]
      exact Prod.Lex.right _ (Nat.lt_succ_self _)

/-- The actor is a trigger, or named by the link of an entity, or recorded as a cause. -/
def Mentioned (r : Relations) (s : Attributions) (triggers : List ActorRef) (a : ActorRef) : Prop :=
  a ∈ triggers ∨ (∃ e, r.Names (.entity e) a) ∨ ∃ x, s.parent? x = some a

theorem Involves.mentioned {triggers : List ActorRef} (h : Involves r s triggers a) :
    Mentioned r s triggers a := by
  obtain ⟨t, ht, -, hpath⟩ := h
  rcases hpath.cases_tail with rfl | ⟨x, -, hstep⟩
  · exact .inl ht
  · cases hstep with
    | link he ha => exact .inr (.inl ⟨_, Relations.names_iff.mpr ⟨_, he, ha⟩⟩)
    | record _ hparent => exact .inr (.inr ⟨x, hparent⟩)

end

/-- Whatever cycles there are among links and recorded causes, adding the triggers comes to an end,
and to one end only, which is the resolution. Its chain is no longer than there are keys among the
triggers, those that links name and the recorded causes. -/
theorem resolution_terminates (r : Relations) (s : Attributions) (triggers : List ActorRef) :
    (∃ c, Adds r s {} triggers c ∧ (∀ c', Adds r s {} triggers c' → c' = c) ∧
      resolve r s triggers = c.toCause) ∧
    ((resolve r s triggers).actors.length : ℕ∞) ≤
      {key | ∃ a, Mentioned r s triggers a ∧ a.key? = some key}.encard := by
  constructor
  · obtain ⟨c, hc⟩ := exists_adds r s {} triggers
    refine ⟨c, hc, fun c' hc' => hc'.expand_eq.symm.trans hc.expand_eq, ?_⟩
    rw [resolve, hc.expand_eq]
  · have hkeys : ((resolve r s triggers).keys.toFinset : Set ActorKey) ⊆
        {key | ∃ a, Mentioned r s triggers a ∧ a.key? = some key} := by
      intro key hkey
      obtain ⟨a, ha, hakey⟩ := Cause.mem_keys.mp (List.mem_toFinset.mp hkey)
      exact ⟨a, (involves_of_mem_resolve ha).mentioned, hakey⟩
    have hcard := Set.encard_le_encard hkeys
    rwa [Set.encard_coe_eq_coe_finsetCard,
      List.toFinset_card_of_nodup (nodup_resolve_keys r s triggers), length_resolve_keys] at hcard

end RegionAccess
