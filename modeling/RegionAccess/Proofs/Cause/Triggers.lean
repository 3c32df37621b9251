import RegionAccess.Proofs.Cause.Closure

/-! Which triggers are followed to those responsible for them. A recorded cause is put into the
chain as it is, and its key is taken; the entity that comes up as a trigger later is passed over,
and whoever its link names with it. -/
namespace RegionAccess

section
variable {r : Relations} {s : Attributions} {c c' : Chain} {visits visits' : List Visit}
  {triggers : List ActorRef} {a : ActorRef} {key : ActorKey}

/-- Whoever is in the chain or under way is followed, or recorded as the cause of someone in the
chain. -/
def Chain.Accounted (r : Relations) (s : Attributions) (c : Chain) (visits : List Visit) : Prop :=
  ∀ a ∈ c.actors ++ pending visits,
    c.Follows r visits a ∨ ∃ x ∈ c.actors, s.parent? x = some a

theorem Chain.Accounted.advance (h : Advances r s c visits c' visits')
    (hc : c.Accounted r s visits) : c'.Accounted r s visits' := by
  have hkept (hactors : c.actors ⊆ c'.actors) (a : ActorRef)
      (ha : a ∈ c.actors ++ pending visits) :
      c'.Follows r visits' a ∨ ∃ x ∈ c'.actors, s.parent? x = some a :=
    (hc a ha).imp (.advance h) fun ⟨x, hx, hparent⟩ => ⟨x, hactors hx, hparent⟩
  cases h with
  | skipped => exact fun a ha => hkept (List.Subset.refl _) a ha
  | @opened a rest key hkey hseen =>
    intro b hb
    rw [pending_append, pending_enters, List.nil_append, pending_leave, opened_actors,
      List.mem_append, List.mem_cons] at hb
    rcases hb with hb | rfl | hb
    · exact hkept (List.Subset.refl _) b (List.mem_append_left _ hb)
    · exact .inl .opened
    · exact hkept (List.Subset.refl _) b (List.mem_append_right _ hb)
  | @closed a rest =>
    have hactors : c.actors ⊆ (c.append s a).actors := by
      rw [append_actors]
      exact List.subset_append_left _ _
    intro b hb
    rw [append_actors, List.append_assoc, List.append_assoc, List.mem_append, List.mem_append,
      List.mem_reverse, List.singleton_append, List.mem_cons] at hb
    rcases hb with hb | hb | rfl | hb
    · exact hkept hactors b (List.mem_append_left _ hb)
    · -- an ancestor is there because of the actor that is left, or of an ancestor nearer to it
      obtain ⟨x, hx, hparent⟩ := Attributions.exists_child_of_mem_ancestors hb
      refine .inr ⟨x, ?_, hparent⟩
      rw [append_actors, List.mem_append, List.mem_append, List.mem_reverse, List.mem_singleton]
      exact .inr (List.mem_cons.mp hx).symm
    · exact hkept hactors b (List.mem_append_right _ List.mem_cons_self)
    · exact hkept hactors b (List.mem_append_right _ (List.mem_cons_of_mem _ hb))

theorem accounted_resolution (r : Relations) (s : Attributions) (triggers : List ActorRef) :
    (resolution r s triggers).Accounted r s [] := by
  refine resolution_invariant (I := Chain.Accounted r s) (fun a ha => ?_) fun h => .advance h
  rw [pending_enters, List.append_nil] at ha
  exact absurd ha List.not_mem_nil

theorem resolution_append (r : Relations) (s : Attributions) (before after : List ActorRef) :
    resolution r s (before ++ after) = expand r s (resolution r s before) (after.map .enter) := by
  rw [resolution, List.map_append, expand_append]
  rfl

/-- Alone, an actor without a link is led by its recorded ancestors only. -/
theorem resolve_of_unlinked (hlink : r.linkOf a = none) (hkey : a.key? = some key) :
    resolve r s [a] = ⟨(s.ancestors [key] a).reverse ++ [a], false⟩ := by
  have hresolution : resolution r s [a] = (({} : Chain).opened r a key).append s a := by
    rw [resolution, List.map_singleton,
      expand_eq_of_advances (.opened hkey List.not_mem_nil), Relations.named_of_unlinked hlink,
      List.map_nil, List.nil_append, expand_eq_of_advances .closed, expand]
  change (resolution r s [a]).toCause = _
  rw [hresolution, Chain.toCause, Chain.append_actors, Chain.append_isIndirect,
    Chain.opened_isIndirect, Relations.actsIndirectly, hlink]
  rfl

/-- An actor that is visited ends up followed, unless its key was taken by then without that. -/
theorem follows_of_enter (hkey : a.key? = some key) (h : key ∈ c.seen → c.Follows r [] a) :
    (expand r s c (.enter a :: visits)).Follows r [] a := by
  by_cases hseen : key ∈ c.seen
  · have hstart : c.Follows r (.enter a :: visits) a :=
      ⟨fun b hb => .inr fun key => ((h hseen).covers b hb).mem_seen, (h hseen).indirect⟩
    exact expand_invariant (I := fun c visits => c.Follows r visits a) (fun h => .advance h) hstart
  · rw [expand_eq_of_advances (.opened hkey hseen)]
    exact expand_invariant (I := fun c visits => c.Follows r visits a) (fun h => .advance h) .opened

/-- A trigger whose key is in the chain of those before it adds nothing. -/
theorem resolution_of_mem_keys {before : List ActorRef} (hkey : a.key? = some key)
    (h : key ∈ (resolve r s before).keys) (after : List ActorRef) :
    resolution r s (before ++ a :: after) = resolution r s (before ++ after) := by
  have hseen := (resolve_keys_perm r s before).mem_iff.mp h
  rw [resolution_append, resolution_append, List.map_cons,
    expand_eq_of_advances (.skipped_of_mem hkey hseen)]

/-- An entity among the triggers is followed where nobody in the chain of the triggers before it
has it recorded as a cause: whoever its link names is in the chain, and a link to a source, a
target or an owner makes the cause indirect. One that is in that chain is passed over. -/
theorem unrecorded_triggers_are_followed (h : Distinct r s triggers) (e : EntityRef)
    (before after : List ActorRef) (ht : triggers = before ++ .entity e :: after) :
    let cause := resolve r s triggers
    ((∀ a ∈ (resolve r s before).actors, ∀ p, s.parent? a = some p → p.key? ≠ some (.id e.id)) →
      (∀ b ∈ r.named (.entity e), b ≠ .unknown → ∃ a ∈ cause.actors, a.key? = b.key?) ∧
      ((∃ x, r.link? e = some (.areaSource x) ∨ r.link? e = some (.target x) ∨
        r.link? e = some (.owner x)) → cause.isIndirect = true)) ∧
    (.id e.id ∈ (resolve r s before).keys → cause = resolve r s (before ++ after)) := by
  intro cause
  refine ⟨fun hunrecorded => ?_, fun hmem => ?_⟩
  · have htaken : .id e.id ∈ (resolution r s before).seen →
        (resolution r s before).Follows r [] (.entity e) := by
      intro hseen
      have hmem : .id e.id ∈ (resolve r s before).keys :=
        (resolve_keys_perm r s before).mem_iff.mpr hseen
      obtain ⟨a, ha, hkey⟩ := Cause.mem_keys.mp hmem
      -- whoever took the key is met on the way from the triggers, so it is the trigger itself
      obtain ⟨t, hstart, hknown, hpath⟩ := involves_of_mem_resolve ha
      have hin : t ∈ triggers := ht ▸ List.mem_append_left _ hstart
      have htrigger : .entity e ∈ triggers := ht ▸ List.mem_append_right _ List.mem_cons_self
      obtain rfl : a = .entity e :=
        h _ _ ⟨t, hin, hknown, hpath⟩ ⟨_, htrigger, ActorRef.noConfusion, .refl⟩ hkey
      refine (accounted_resolution r s before _ (List.mem_append_left _ ha)).resolve_right ?_
      rintro ⟨x, hx, hparent⟩
      exact hunrecorded x hx _ hparent rfl
    have hfollows : (resolution r s triggers).Follows r [] (.entity e) := by
      rw [ht, resolution_append, List.map_cons]
      exact follows_of_enter rfl htaken
    refine ⟨fun b hb hknown => ?_, fun hlink => ?_⟩
    · obtain ⟨key, hkey⟩ := ActorRef.exists_key hknown
      have hseen : key ∈ (resolution r s triggers).seen :=
        (hfollows.covers b hb).mem_seen hkey
      rw [← (resolve_keys_perm r s triggers).mem_iff, Cause.mem_keys] at hseen
      rwa [hkey]
    · exact hfollows.indirect (Relations.actsIndirectly_iff.mpr hlink)
  · have hresolution := resolution_of_mem_keys (a := .entity e) rfl hmem after
    rw [← ht] at hresolution
    exact congrArg Chain.toCause hresolution

end

/-! A hunt. A player owns the wolf that set off the TNT. -/
namespace Hunt

def wolf : EntityRef := { id := ⟨⟨8⟩⟩, kind := .wolf, location := Raid.place }

def tnt : EntityRef := { id := ⟨⟨6⟩⟩, kind := .primedTnt, location := Raid.place }

def hunter : PlayerRef := { id := ⟨⟨5⟩⟩, name := "hunter" }

def relations : Relations := .ofTable [(wolf.id, some (.owner (.player hunter)))]

def records : Attributions where
  bindings := .ofList [(tnt.id, Raid.caused (.entity wolf))]

theorem parents_records : records.parents = [.entity wolf] := rfl

theorem distinct {triggers : List ActorRef}
    (ht : triggers ⊆ [.entity wolf, .entity tnt, .player hunter]) :
    Distinct relations records triggers := by
  have hlink (e : EntityRef) (link : Link) (h : relations.link? e = some link) :
      link.actors ⊆ [.entity wolf, .entity tnt, .player hunter] := by
    have hmem := Relations.mem_table_of_link? h
    simp only [List.mem_singleton, Prod.mk.injEq, Option.some.injEq] at hmem
    simp [hmem.2, Link.actors]
  refine .of_members (by decide) fun _ => Involves.mem_of_closed ht hlink ?_
  simp [parents_records]

end Hunt

/-- When the wolf comes up first, its owner is in the chain, and the cause is indirect. -/
theorem unrecorded_triggers_are_followed_in_hunt :
    let triggers : List ActorRef := [.entity Hunt.wolf, .entity Hunt.tnt]
    let cause := resolve Hunt.relations Hunt.records triggers
    Distinct Hunt.relations Hunt.records triggers ∧
    (∀ a ∈ (resolve Hunt.relations Hunt.records []).actors, ∀ p,
      Hunt.records.parent? a = some p → p.key? ≠ some (.id Hunt.wolf.id)) ∧
    (∃ a ∈ cause.actors, a.key? = (ActorRef.player Hunt.hunter).key?) ∧
    cause.isIndirect = true := by
  intro triggers cause
  have hdistinct : Distinct Hunt.relations Hunt.records triggers :=
    Hunt.distinct (by simp [triggers])
  have hunrecorded : ∀ a ∈ (resolve Hunt.relations Hunt.records []).actors, ∀ p,
      Hunt.records.parent? a = some p → p.key? ≠ some (.id Hunt.wolf.id) := by
    intro a ha
    rw [resolve, List.map_nil, expand] at ha
    exact absurd ha List.not_mem_nil
  obtain ⟨hnamed, hindirect⟩ := (unrecorded_triggers_are_followed hdistinct Hunt.wolf []
    [.entity Hunt.tnt] rfl).1 hunrecorded
  exact ⟨hdistinct, hunrecorded,
    hnamed (.player Hunt.hunter) List.mem_cons_self ActorRef.noConfusion,
    hindirect ⟨.player Hunt.hunter, .inr (.inr rfl)⟩⟩

/-- When the TNT comes up first, the wolf is in the chain as its recorded cause. Its owner is not,
although the wolf is a trigger too, and the cause is not indirect. -/
theorem recorded_trigger_is_passed_over_in_hunt :
    let triggers : List ActorRef := [.entity Hunt.tnt, .entity Hunt.wolf]
    let cause := resolve Hunt.relations Hunt.records triggers
    Distinct Hunt.relations Hunt.records triggers ∧ .entity Hunt.wolf ∈ triggers ∧
    Hunt.relations.link? Hunt.wolf = some (.owner (.player Hunt.hunter)) ∧
    (∀ key ∈ cause.keys, (ActorRef.player Hunt.hunter).key? ≠ some key) ∧
    cause.isIndirect = false := by
  intro triggers cause
  have hdistinct : Distinct Hunt.relations Hunt.records triggers :=
    Hunt.distinct (by simp [triggers])
  have hfirst : resolve Hunt.relations Hunt.records [.entity Hunt.tnt] =
      ⟨[.entity Hunt.wolf, .entity Hunt.tnt], false⟩ := by
    have hparent : Hunt.records.parent? (.entity Hunt.tnt) = some (.entity Hunt.wolf) := rfl
    rw [resolve_of_unlinked rfl rfl, Attributions.ancestors_of_fresh hparent rfl (by decide),
      Attributions.ancestors_of_none rfl]
    rfl
  have hcause : cause = ⟨[.entity Hunt.wolf, .entity Hunt.tnt], false⟩ := by
    have hmem : .id Hunt.wolf.id ∈
        (resolve Hunt.relations Hunt.records [.entity Hunt.tnt]).keys := by
      rw [hfirst]
      decide
    rw [← hfirst]
    exact congrArg Chain.toCause (resolution_of_mem_keys (a := .entity Hunt.wolf) rfl hmem [])
  refine ⟨hdistinct, by simp [triggers], rfl, ?_, ?_⟩
  · rw [hcause]
    decide
  · rw [hcause]

end RegionAccess
