import RegionAccess.Proofs.Computation
import RegionAccess.Session.Vehicle

/-! Runs of operations on a registry, and what they keep of every session. An operation rewrites
sessions in six ways only, so a property of sessions is carried through a run by six facts. -/
namespace RegionAccess

inductive Operation where
  | enter (actor : LiveActor) (now : Instant)
  | tick (actors : List LiveActor) (now : Instant)
  | resync (turns : List Turn)
  | judgeMove (actor : LiveActor) (target : Location) (kind : MoveKind) (now : Instant)
  | judgeVehicle (move : VehicleMove) (riders : List Turn)
  | setBypassOff (actor : EntityId) (off : Bool)
  | remove (actor : EntityId)
  | expire (now : Instant)

namespace Registry
variable {σ : Type} [RegionIndex σ]

/-- The registry after an operation; one that fails changes nothing. -/
def perform (r : Registry) : Operation → HostM σ Registry
  | .enter actor now => r.enter actor now
  | .tick actors now => r.tick actors now
  | .resync turns => r.resync turns
  | .judgeMove actor target kind now => return (← r.judgeMove actor target kind now).2
  | .judgeVehicle move riders => return (← r.judgeVehicle move riders).2
  | .setBypassOff actor off => return (r.setBypassOff actor off).toOption.getD r
  | .remove actor => return ((r.remove actor).toOption.map (·.2)).getD r
  | .expire now => return (r.expire now).2

/-- The registries a run leads to. Before each operation the host may have changed its index in
any way. Only blueprints of an admitted kind are registered. -/
inductive Reachable (σ : Type) [RegionIndex σ] (admits : Blueprint → Prop) : Registry → Prop where
  | empty (config : SessionConfig) (worlds : WorldPolicies) :
      Reachable σ admits { config, worlds }
  | register {r : Registry} (blueprint : Blueprint) :
      Reachable σ admits r → admits blueprint → Reachable σ admits (r.register blueprint)
  | step {r : Registry} (operation : Operation) (host : Host σ) :
      Reachable σ admits r → Reachable σ admits (r.perform operation host).1

theorem session?_empty (config : SessionConfig) (worlds : WorldPolicies) (id : EntityId) :
    ({ config, worlds } : Registry).session? id = none := by
  simp [session?]

theorem session?_store (r : Registry) (id : EntityId) (s : Session) (other : EntityId) :
    (r.store id s).session? other = if id = other then some s else r.session? other := by
  simp [session?, store, Std.ExtTreeMap.getElem?_insert]

theorem session?_erase (r : Registry) (id other : EntityId) :
    ({ r with sessions := r.sessions.erase id } : Registry).session? other =
      if id = other then none else r.session? other := by
  simp [session?, Std.ExtTreeMap.getElem?_erase]

/-- A switch takes effect on the session that the actor has. -/
theorem exists_of_setBypassOff {r r' : Registry} {id : EntityId} {off : Bool}
    (h : r.setBypassOff id off = .ok r') :
    ∃ s, r.session? id = some s ∧ r' = r.store id { s with bypassOff := off } := by
  unfold setBypassOff at h
  split at h
  next => cases h
  next s hs => exact ⟨s, hs, (Except.ok.inj h).symm⟩

/-- What is removed is the session that the actor has, in its last phase. -/
theorem exists_of_remove {r r' : Registry} {id : EntityId} {s : Session}
    (h : r.remove id = .ok (s, r')) :
    ∃ t, r.session? id = some t ∧ s = { t with phase := .removed } ∧
      r' = { r with sessions := r.sessions.erase id } := by
  unfold remove at h
  split at h
  next => cases h
  next t ht =>
    obtain ⟨rfl, rfl⟩ := Prod.mk.inj (Except.ok.inj h)
    exact ⟨t, ht, rfl, rfl⟩

/-- Sessions that are not dropped are left as they were. -/
theorem session?_of_remove {r r' : Registry} {id other : EntityId} {s t : Session}
    (h : r.remove id = .ok (s, r')) (ht : r'.session? other = some t) :
    r.session? other = some t := by
  obtain ⟨-, -, -, rfl⟩ := exists_of_remove h
  rw [session?_erase] at ht
  split at ht
  · cases ht
  · exact ht

theorem session?_expire_iff {r : Registry} {now : Instant} {id : EntityId} {s : Session} :
    (r.expire now).2.session? id = some s ↔ r.session? id = some s ∧
      now.since s.lastSeen ≤ Span.cappedSeconds r.config.expirySeconds := by
  simp [expire, session?, Std.ExtTreeMap.getElem?_filter]

theorem session?_of_expire {r : Registry} {now : Instant} {id : EntityId} {s : Session}
    (h : (r.expire now).2.session? id = some s) : r.session? id = some s :=
  (session?_expire_iff.mp h).1

end Registry

/-- A property of sessions, by the id they are kept under, that all of their changes keep. New
sessions are built from blueprints of an admitted kind, entry and exit first. -/
structure SessionInvariant (σ : Type) [RegionIndex σ] (admits : Blueprint → Prop)
    (P : EntityId → Session → Prop) : Prop where
  of_fresh : ∀ id blueprints now, [.entryExit] <+: blueprints → (∀ b ∈ blueprints, admits b) →
    P id (.fresh id blueprints now)
  of_anchor : ∀ (s : Session) (actor : LiveActor) now, P actor.id s →
    Yields (s.anchor actor now : HostM σ Session) (P actor.id)
  of_judgeMove : ∀ (s : Session) (actor : LiveActor) target kind now, s.phase = .active →
    P actor.id s →
    Yields (s.judgeMove actor target kind now : HostM σ _) fun out => P actor.id out.2
  of_tick : ∀ (s : Session) (actor : LiveActor) name now, P actor.id s →
    Yields (s.tick actor name now : HostM σ Session) (P actor.id)
  of_movedBlindly : ∀ id (s : Session) target, P id s → P id (s.movedBlindly target)
  of_bypassOff : ∀ id (s : Session) off, P id s → P id { s with bypassOff := off }

/-- Every session has the property, and new ones are made as registered. -/
structure Registry.Holds (admits : Blueprint → Prop) (P : EntityId → Session → Prop)
    (r : Registry) : Prop where
  sessions : ∀ id s, r.session? id = some s → P id s
  entryExit_first : [.entryExit] <+: r.blueprints
  admitted : ∀ b ∈ r.blueprints, admits b

namespace Registry.Holds
variable {admits : Blueprint → Prop} {P : EntityId → Session → Prop} {r : Registry}

theorem store (h : r.Holds admits P) {id : EntityId} {s : Session} (hs : P id s) :
    (r.store id s).Holds admits P where
  sessions other t ht := by
    rw [session?_store] at ht
    split at ht
    next heq => exact heq ▸ Option.some.inj ht ▸ hs
    next => exact h.sessions other t ht
  entryExit_first := h.entryExit_first
  admitted := h.admitted

/-- Dropping sessions keeps what holds of the others. -/
theorem of_subset (h : r.Holds admits P) {r' : Registry}
    (hsub : ∀ id s, r'.session? id = some s → r.session? id = some s)
    (hb : r'.blueprints = r.blueprints) : r'.Holds admits P where
  sessions id s hs := h.sessions id s (hsub id s hs)
  entryExit_first := hb ▸ h.entryExit_first
  admitted := hb ▸ h.admitted

theorem expire (h : r.Holds admits P) (now : Instant) : (r.expire now).2.Holds admits P :=
  h.of_subset (fun _ _ => session?_of_expire) rfl

theorem remove (h : r.Holds admits P) {id : EntityId} {s : Session} {r' : Registry}
    (hr : r.remove id = .ok (s, r')) : r'.Holds admits P := by
  refine h.of_subset (fun _ _ => session?_of_remove hr) ?_
  obtain ⟨-, -, -, rfl⟩ := exists_of_remove hr
  rfl

theorem sessionOf {σ : Type} [RegionIndex σ] (hP : SessionInvariant σ admits P)
    (h : r.Holds admits P) (id : EntityId) (now : Instant) : P id (r.sessionOf id now) := by
  unfold Registry.sessionOf
  cases hs : r.session? id with
  | none => exact hP.of_fresh id r.blueprints now h.entryExit_first h.admitted
  | some s => exact h.sessions id s hs

end Registry.Holds

namespace SessionInvariant
variable {σ : Type} [RegionIndex σ] {admits : Blueprint → Prop} {P : EntityId → Session → Prop}
  (hP : SessionInvariant σ admits P) {r : Registry}
include hP

theorem ensureActive {s : Session} (actor : LiveActor) (hs : P actor.id s) (now : Instant) :
    Yields (s.ensureActive actor now : HostM σ Session) fun s =>
      s.phase = .active ∧ P actor.id s := by
  unfold Session.ensureActive
  split
  next ha => exact Yields.pure ⟨ha, hs⟩
  next => exact fun h => ⟨rfl, hP.of_anchor s actor now hs h⟩

theorem enter (h : r.Holds admits P) (actor : LiveActor) (now : Instant) :
    Yields (r.enter actor now : HostM σ Registry) (Registry.Holds admits P) := by
  refine Yields.bind (hP.of_anchor _ actor now (h.sessionOf hP actor.id now)) ?_
  intro s hs
  apply Yields.pure
  exact (h.store hs).of_subset (fun _ _ ht => ht) rfl

theorem tickActor (h : r.Holds admits P) (actor : LiveActor) (now : Instant) :
    Yields (r.tickActor actor now : HostM σ Registry) (Registry.Holds admits P) := by
  unfold Registry.tickActor
  split
  next => exact Yields.pure h
  next =>
    refine Yields.bind (hP.ensureActive actor (h.sessionOf hP actor.id now) now) ?_
    intro s hs
    refine Yields.bind (hP.of_tick s actor _ now hs.2) ?_
    intro s hs
    exact Yields.pure (h.store hs)

theorem resyncActor (h : r.Holds admits P) (actor : LiveActor) (now : Instant) :
    Yields (r.resyncActor actor now : HostM σ Registry) (Registry.Holds admits P) := by
  unfold Registry.resyncActor
  split
  next => exact Yields.pure h
  next =>
    split
    next => exact Yields.pure h
    next s hs =>
      refine Yields.bind (hP.of_anchor s actor now (h.sessions _ _ hs)) ?_
      intro s hs
      exact Yields.pure (h.store hs)

theorem judgeMove (h : r.Holds admits P) (actor : LiveActor) (target : Location) (kind : MoveKind)
    (now : Instant) :
    Yields (r.judgeMove actor target kind now : HostM σ _) fun out => out.2.Holds admits P := by
  have hs := h.sessionOf hP actor.id now
  unfold Registry.judgeMove
  split
  next => exact Yields.pure (h.store (hP.of_movedBlindly _ _ target hs))
  next =>
    refine Yields.bind (hP.ensureActive actor hs now) ?_
    intro s hs
    refine Yields.bind (hP.of_judgeMove s actor target kind now hs.1 hs.2) ?_
    intro out hout
    exact Yields.pure (h.store hout)

theorem judgeRiders (m : VehicleMove) (riders : List Turn) (h : r.Holds admits P) :
    Yields (r.judgeRiders m riders : HostM σ _) fun out => out.2.Holds admits P := by
  induction riders generalizing r with
  | nil => exact Yields.pure h
  | cons turn riders ih =>
    refine Yields.bind (hP.judgeMove h turn.actor m.target .ride turn.moment) ?_
    intro out hout
    obtain ⟨back, r'⟩ := out
    cases back with
    | none => exact ih hout
    | some back => exact Yields.pure hout

theorem setBypassOff (h : r.Holds admits P) {id : EntityId} {off : Bool} {r' : Registry}
    (hr : r.setBypassOff id off = .ok r') : r'.Holds admits P := by
  obtain ⟨s, hs, rfl⟩ := Registry.exists_of_setBypassOff hr
  exact h.store (hP.of_bypassOff id s off (h.sessions id s hs))

theorem perform (h : r.Holds admits P) (operation : Operation) :
    Yields (r.perform operation : HostM σ Registry) (Registry.Holds admits P) := by
  cases operation with
  | enter actor now => exact hP.enter h actor now
  | tick actors now =>
    exact Yields.foldlM (fun r actor hr => hP.tickActor hr actor now) actors h
  | resync turns =>
    exact Yields.foldlM (fun r turn hr => hP.resyncActor hr turn.actor turn.moment) turns h
  | judgeMove actor target kind now =>
    exact Yields.bind (hP.judgeMove h actor target kind now) fun out hout => Yields.pure hout
  | judgeVehicle move riders =>
    refine Yields.bind (P := fun out => out.2.Holds admits P) ?_ fun out hout => Yields.pure hout
    unfold Registry.judgeVehicle
    split
    · exact hP.judgeRiders move riders h
    · exact Yields.pure h
  | setBypassOff actor off =>
    apply Yields.pure
    cases hr : r.setBypassOff actor off with
    | error e => exact h
    | ok r' => exact hP.setBypassOff h hr
  | remove actor =>
    apply Yields.pure
    cases hr : r.remove actor with
    | error e => exact h
    | ok out => exact h.remove hr
  | expire now => exact Yields.pure (h.expire now)

/-- What every change of a session keeps, every session of every run has. -/
theorem reachable (hr : r.Reachable σ admits) (entryExit : admits .entryExit) :
    r.Holds admits P := by
  induction hr with
  | empty config worlds =>
    refine ⟨fun id s hs => ?_, List.prefix_rfl, fun b hb => ?_⟩
    · rw [Registry.session?_empty] at hs
      simp at hs
    · rw [List.mem_singleton.mp hb]
      exact entryExit
  | @register r blueprint _ hb ih =>
    refine ⟨ih.sessions, ih.entryExit_first.trans (List.prefix_append _ _), fun b hmem => ?_⟩
    rcases List.mem_append.mp hmem with hold | hnew
    · exact ih.admitted b hold
    · rw [List.mem_singleton.mp hnew]
      exact hb
  | step operation host _ ih => exact hP.perform ih operation host

end SessionInvariant
end RegionAccess
