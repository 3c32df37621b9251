import RegionAccess.Proofs.Index.Tables
import RegionAccess.Proofs.Session.Terms

/-! Histories of a registry, and what they tell of the sessions it holds: each is its actor's own,
is under way only where it has a position, and carries the rules that were registered before it
began. -/
namespace RegionAccess

/-- What was done with a registry since it was set up, the latest last. Before each operation the
host may have changed its index in any way. -/
inductive History (σ : Type) where
  | new (config : SessionConfig) (worlds : WorldPolicies)
  | register (h : History σ) (blueprint : Blueprint)
  | step (h : History σ) (operation : Operation) (host : Host σ)

namespace History
variable {σ : Type}

/-- The host's rules in the order they were registered. -/
def registered : History σ → List Blueprint
  | .new _ _ => []
  | .register h blueprint => h.registered ++ [blueprint]
  | .step h _ _ => h.registered

variable [RegionIndex σ]

def registry : History σ → Registry
  | .new config worlds => { config, worlds }
  | .register h blueprint => h.registry.register blueprint
  | .step h operation host => (h.registry.perform operation host).1

def HasSession (h : History σ) (id : EntityId) : Prop := h.registry.session? id ≠ none

/-- The session that the actor has began with the step that followed the origin: there was none
before, and there was one ever since. -/
inductive Began (id : EntityId) (origin : History σ) : History σ → Prop where
  | made (operation : Operation) (host : Host σ) : ¬ origin.HasSession id →
      (origin.step operation host).HasSession id → Began id origin (origin.step operation host)
  | register {h : History σ} (blueprint : Blueprint) : Began id origin h →
      Began id origin (h.register blueprint)
  | step {h : History σ} (operation : Operation) (host : Host σ) : Began id origin h →
      (h.step operation host).HasSession id → Began id origin (h.step operation host)

theorem reachable (h : History σ) : h.registry.Reachable σ fun _ => True := by
  induction h with
  | new config worlds => exact .empty config worlds
  | register h blueprint ih => exact ih.register blueprint trivial
  | step h operation host ih => exact ih.step operation host

/-- Entry and exit are guarded first, then by the host's rules. -/
theorem registry_blueprints (h : History σ) :
    h.registry.blueprints = .entryExit :: h.registered := by
  induction h with
  | new config worlds => rfl
  | register h blueprint ih =>
    show h.registry.blueprints ++ [blueprint] = _
    rw [ih]
    rfl
  | step h operation host ih =>
    exact (h.registry.perform_agrees operation host).blueprints.trans ih

theorem not_hasSession_new (config : SessionConfig) (worlds : WorldPolicies) (id : EntityId) :
    ¬ (new config worlds : History σ).HasSession id :=
  not_not_intro (Registry.session?_empty config worlds id)

theorem terms_of_not_hasSession {h : History σ} {id : EntityId} (hnone : ¬ h.HasSession id) :
    h.registry.terms id = ⟨.entryExit :: h.registered, false⟩ := by
  rw [Registry.terms_of_none (Classical.not_not.mp hnone), h.registry_blueprints]

theorem terms_register (h : History σ) (blueprint : Blueprint) {id : EntityId}
    (hs : h.HasSession id) :
    (h.register blueprint).registry.terms id = h.registry.terms id := by
  obtain ⟨s, hs⟩ := Option.ne_none_iff_exists'.mp hs
  rw [Registry.terms_of_session hs]
  exact Registry.terms_of_session (r := h.registry.register blueprint) hs

/-- Whoever has a session after a step has it on the same rules, be it made by that step. -/
theorem blueprints_step (h : History σ) (operation : Operation) (host : Host σ) {id : EntityId}
    (hs : (h.step operation host).HasSession id) :
    ((h.step operation host).registry.terms id).blueprints = (h.registry.terms id).blueprints := by
  by_cases hswitch : ∃ off, operation = .setBypassOff id off
  · obtain ⟨off, rfl⟩ := hswitch
    show (((h.registry.setBypassOff id off).toOption.getD h.registry).terms id).blueprints = _
    cases hr : h.registry.setBypassOff id off with
    | error e => rfl
    | ok r' =>
      show (r'.terms id).blueprints = _
      rw [(Registry.terms_setBypassOff hr).1]
  · have hother : ∀ off, operation ≠ .setBypassOff id off := fun off h => hswitch ⟨off, h⟩
    exact congrArg Terms.blueprints (h.registry.perform_terms hother host hs)

/-- Every session began once. -/
theorem exists_began {h : History σ} {id : EntityId} (hs : h.HasSession id) :
    ∃ origin, Began id origin h := by
  induction h with
  | new config worlds => exact absurd hs (not_hasSession_new config worlds id)
  | register h blueprint ih =>
    obtain ⟨origin, horigin⟩ := ih hs
    exact ⟨origin, horigin.register blueprint⟩
  | step h operation host ih =>
    by_cases hbefore : h.HasSession id
    · obtain ⟨origin, horigin⟩ := ih hbefore
      exact ⟨origin, horigin.step operation host hs⟩
    · exact ⟨h, .made operation host hbefore hs⟩

/-- A session carries the rules there were when it began, whatever was registered since. -/
theorem Began.blueprints {h origin : History σ} {id : EntityId} (hbegan : Began id origin h) :
    h.HasSession id ∧ (h.registry.terms id).blueprints = .entryExit :: origin.registered := by
  induction hbegan with
  | made operation host hnone hs =>
    refine ⟨hs, (origin.blueprints_step operation host hs).trans ?_⟩
    rw [terms_of_not_hasSession hnone]
  | register blueprint _ ih =>
    exact ⟨ih.1, (congrArg Terms.blueprints (terms_register _ blueprint ih.1)).trans ih.2⟩
  | step operation host _ hs ih =>
    exact ⟨hs, (blueprints_step _ operation host hs).trans ih.2⟩

end History

/-- The session is kept under its actor's id, and is not one that was dropped. -/
def Session.Listed (id : EntityId) (s : Session) : Prop := s.actor = id ∧ s.phase ≠ .removed

theorem sessionInvariant_listed (σ : Type) [RegionIndex σ] (admits : Blueprint → Prop) :
    SessionInvariant σ admits Session.Listed where
  of_fresh _ _ _ _ _ := ⟨rfl, Phase.noConfusion⟩
  of_anchor _ _ _ hs := by
    refine Yields.bind Yields.any fun _ _ => Yields.bind Yields.any fun _ _ => Yields.pure ?_
    rw [Session.takeRegions_eq]
    exact ⟨hs.1, Phase.noConfusion⟩
  of_judgeMove s actor target kind now _ hs := by
    refine (s.judgeMove_judged actor target kind now).mono fun out hout => ?_
    cases hout with
    | accepted => exact hs
    | refused => exact hs
  of_tick _ _ _ _ hs := Yields.bind Yields.any fun _ _ => Yields.pure hs
  of_movedBlindly _ _ _ hs := hs
  of_bypassOff _ _ _ hs := hs

/-- What a registry keeps of an actor, given its history. -/
structure History.Accounts {σ : Type} [RegionIndex σ] (h : History σ) (id : EntityId)
    (s : Session) : Prop where
  actor : s.actor = id
  phase : s.phase = .uninitialized ∨ s.phase = .active
  placed : s.phase = .active → ∃ position, s.lastValid = some position
  began : ∃ origin, Began id origin h
  handlers : ∀ origin, Began id origin h →
    s.handlers.map (·.blueprint) = .entryExit :: origin.registered

section
variable {σ : Type} [RegionIndex σ] (h : History σ)

theorem History.accounts {id : EntityId} {s : Session} (hs : h.registry.session? id = some s) :
    h.Accounts id s := by
  have hlisted := ((sessionInvariant_listed σ _).reachable h.reachable trivial).sessions id s hs
  have hplaced := ((sessionInvariant_placed σ _).reachable h.reachable trivial).sessions id s hs
  refine ⟨hlisted.1, ?_, hplaced, exists_began ?_, fun origin horigin => ?_⟩
  · cases hphase : s.phase with
    | uninitialized => exact .inl rfl
    | active => exact .inr rfl
    | removed => exact absurd hphase hlisted.2
  · exact fun hnone => Option.some_ne_none s (hs.symm.trans hnone)
  · have hblueprints := horigin.blueprints.2
    rwa [Registry.terms_of_session hs] at hblueprints

/-- Every session in a registry is accounted for by its history, so that no move is judged without
a position to judge it from. One that is removed is marked so, and is in the registry no more. -/
theorem History.sessions_accounted_for :
    (∀ id s, h.registry.session? id = some s → h.Accounts id s) ∧
    (∀ actor now (host : Host σ), ∃ position,
      ((h.registry.sessionOf actor.id now).ensureActive actor now host).1.lastValid =
        some position) ∧
    ∀ id, (h.HasSession id → ∃ out, h.registry.remove id = .ok out) ∧
      ∀ s r', h.registry.remove id = .ok (s, r') → s.phase = .removed ∧ r'.session? id = none := by
  refine ⟨fun id s hs => h.accounts hs, fun actor now host => ?_, fun id => ⟨fun hs => ?_, ?_⟩⟩
  · have hplaced := (sessionInvariant_placed σ _).reachable h.reachable trivial
    exact ⟨_, Registry.ensureActive_judgedFrom hplaced actor now host⟩
  · obtain ⟨s, hs⟩ := Option.ne_none_iff_exists'.mp hs
    exact ⟨_, by rw [Registry.remove, hs]⟩
  · intro s r' hr
    obtain ⟨t, -, rfl, rfl⟩ := Registry.exists_of_remove hr
    exact ⟨rfl, (h.registry.session?_erase id id).trans (if_pos rfl)⟩

end

/-- A guest who came after a rule was registered has it; the visitor who came before has not. -/
theorem sessions_accounted_for_in_town :
    let opened : History (Served Town.tables) :=
      (History.new {} {}).step (.enter Town.visitor ⟨0⟩) (Town.hostAfter 0)
    let ruled := opened.register (.watch .build)
    let guest : LiveActor := { Town.visitor with id := ⟨⟨8⟩⟩ }
    let h := ruled.step (.judgeMove guest (Town.place 9) .walk ⟨1⟩) (Town.hostAfter 1)
    (∃ s, h.registry.session? Town.visitor.id = some s ∧
      s.handlers.map (·.blueprint) = [.entryExit]) ∧
    ∃ s, h.registry.session? guest.id = some s ∧ s.phase ≠ .removed ∧
      s.handlers.map (·.blueprint) = [.entryExit, .watch .build] := by
  intro opened ruled guest h
  have hvisitor : (h.registry.session? Town.visitor.id).isSome = true := by decide
  have hguest : (h.registry.session? guest.id).isSome = true := by decide
  obtain ⟨s, hs⟩ := Option.isSome_iff_exists.mp hvisitor
  obtain ⟨t, ht⟩ := Option.isSome_iff_exists.mp hguest
  have hnobody : ¬ (History.new {} {} : History (Served Town.tables)).HasSession Town.visitor.id :=
    History.not_hasSession_new {} {} Town.visitor.id
  have hfirst : opened.HasSession Town.visitor.id := Option.isSome_iff_ne_none.mp (by decide)
  have hnew : ¬ ruled.HasSession guest.id :=
    fun h => h (Option.isNone_iff_eq_none.mp (by decide))
  have hvisitorBegan : History.Began Town.visitor.id (.new {} {}) h :=
    ((History.Began.made _ _ hnobody hfirst).register _).step _ _
      (Option.isSome_iff_ne_none.mp hvisitor)
  have hguestBegan : History.Began guest.id ruled h :=
    .made _ _ hnew (Option.isSome_iff_ne_none.mp hguest)
  have hvisitorKept := h.sessions_accounted_for.1 _ s hs
  have hguestKept := h.sessions_accounted_for.1 _ t ht
  refine ⟨⟨s, hs, hvisitorKept.handlers _ hvisitorBegan⟩, t, ht, ?_,
    hguestKept.handlers _ hguestBegan⟩
  rcases hguestKept.phase with hphase | hphase <;> rw [hphase] <;> exact Phase.noConfusion

end RegionAccess
