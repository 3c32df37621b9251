import RegionAccess.Proofs.Cause.Bindings
import RegionAccess.Proofs.Engine.Runs
import RegionAccess.Proofs.Engine.Toggling
import RegionAccess.Proofs.Session.Synchrony

/-! Quits. What is kept of an actor is their session and what is attached to their identity, and
nothing else goes when they do. Once they are back it shows nowhere that they had been there. -/
namespace RegionAccess
open RegionIndex

theorem Session.fresh_timeless (id : EntityId) (blueprints : List Blueprint) (now now' : Instant) :
    (Session.fresh id blueprints now).timeless = (Session.fresh id blueprints now').timeless := rfl

namespace Registry
variable {r r' : Registry} {id : EntityId}

theorem sessionOf_of_none (h : r.session? id = none) (now : Instant) :
    r.sessionOf id now = .fresh id r.blueprints now := by
  rw [sessionOf, h, Option.getD_none]

theorem remove_of_none (h : r.session? id = none) : r.remove id = .error (.notFound id) := by
  rw [remove, h]

theorem remove_of_some {s : Session} (h : r.session? id = some s) :
    r.remove id =
      .ok ({ s with phase := .removed }, { r with sessions := r.sessions.erase id }) := by
  rw [remove, h]

theorem erase_of_none (h : r.session? id = none) :
    ({ r with sessions := r.sessions.erase id } : Registry) = r := by
  have hsame : r.sessions.erase id = r.sessions := by
    refine Std.ExtTreeMap.ext_getElem? fun other => ?_
    rw [Std.ExtTreeMap.getElem?_erase]
    split
    next heq => exact (Std.LawfulEqCmp.eq_of_compare heq ▸ h).symm
    next => rfl
  rw [hsame]

/-- Both registries have a session of the actor, and the two agree but for moments. -/
def SameSession (id : EntityId) (r r' : Registry) : Prop :=
  ∃ s s', r.session? id = some s ∧ r'.session? id = some s' ∧ s.timeless = s'.timeless

section
variable {σ : Type} [RegionIndex σ]

theorem session?_enter (r : Registry) (actor : LiveActor) (now : Instant) (host : Host σ) :
    (r.enter actor now host).1.session? actor.id =
      some ((r.sessionOf actor.id now).anchor actor now host).1 :=
  (session?_store r actor.id _ actor.id).trans (if_pos rfl)

/-- Who has no session in either of two registries comes in alike, if sessions are made alike. -/
theorem enter_inStep {actor : LiveActor} (hblueprints : r.blueprints = r'.blueprints)
    (h : r.session? actor.id = none) (h' : r'.session? actor.id = none) (now now' : Instant) :
    InStep (SameSession actor.id) (r.enter actor now : HostM σ Registry)
      (r'.enter actor now') := by
  unfold enter
  rw [sessionOf_of_none h, sessionOf_of_none h', hblueprints]
  refine .bind (Session.anchor_inStep (Session.fresh_timeless _ _ now now') actor now now') ?_
  intro s s' hs
  exact .pure ⟨s, s', (session?_store r _ s _).trans (if_pos rfl),
    (session?_store r' _ s' _).trans (if_pos rfl), hs⟩

end
end Registry

namespace Engine
variable (e : Engine)

/-- An engine without anything it kept of an identity, and otherwise as it was. -/
structure Forgets (e : Engine) (id : EntityId) (e' : Engine) : Prop where
  setup : e' = { e with
    attributions := e'.attributions
    registry := { e.registry with sessions := e'.registry.sessions } }
  sessions : ∀ other, e'.registry.session? other =
    if id = other then none else e.registry.session? other
  attributions : ∀ ref key, e'.attributions.get? ref key =
    if ref.id? = some id then none else e.attributions.get? ref key

theorem onQuit_eq (actor : LiveActor) :
    e.onQuit actor = ((e.registry.session? actor.id).map ({ · with phase := .removed }),
      { e with
        attributions := e.attributions.removeAll (.player ⟨actor.id, actor.name⟩)
        registry := { e.registry with sessions := e.registry.sessions.erase actor.id } }) := by
  cases hs : e.registry.session? actor.id with
  | none =>
    rw [Registry.erase_of_none hs]
    simp only [onQuit, Registry.remove_of_none hs, Option.map_none]
  | some s => simp only [onQuit, Registry.remove_of_some hs, Option.map_some]

theorem onQuit_forgets (actor : LiveActor) : e.Forgets actor.id (e.onQuit actor).2 := by
  rw [onQuit_eq]
  exact ⟨rfl, fun other => e.registry.session?_erase actor.id other,
    e.attributions.get?_removeAll rfl⟩

section
variable {σ : Type} [RegionIndex σ]

/-- Of two engines that make sessions alike and have none of the actor, neither can be told from the
other by how they come in. -/
theorem onJoin_inStep {e e' : Engine} {actor : LiveActor}
    (hblueprints : e.registry.blueprints = e'.registry.blueprints)
    (h : e.registry.session? actor.id = none) (h' : e'.registry.session? actor.id = none)
    (now now' : Instant) :
    InStep (fun out out' => out.registry.SameSession actor.id out'.registry)
      (e.onJoin actor now : HostM σ Engine) (e'.onJoin actor now') :=
  .bind (Registry.enter_inStep hblueprints h h' now now') fun _ _ hsame => .pure hsame

/-- Who has no session starts afresh where they come in. -/
theorem onJoin_startedOver {e : Engine} {actor : LiveActor}
    (h : e.registry.session? actor.id = none) (now : Instant) (host : Host σ) :
    ∃ s, (e.onJoin actor now host).1.registry.session? actor.id = some s ∧
      (Session.fresh actor.id e.registry.blueprints now).StartedOver
        ⟨actor, now⟩ (consult (overlapping actor.location) host).1 s := by
  refine ⟨_, e.registry.session?_enter actor now host, ?_⟩
  rw [Registry.sessionOf_of_none h]
  exact Session.startedOver_anchor _ ⟨actor, now⟩ host

end

/-- A quit gives back the actor's session, if there was one, and forgets it along with all that was
attached to them; the sessions of others and what is attached to these, be it the actor, are left as
they were. When the actor is back, their session starts afresh where they then are. It asks, sends
and becomes what a first session would in any engine that makes sessions of the same handlers, but
for the moments it keeps. -/
theorem quit_forgets_actor_alone (σ : Type) [RegionIndex σ] (actor : LiveActor) :
    let out := e.onQuit actor
    let after := out.2
    out.1 = (e.registry.session? actor.id).map ({ · with phase := .removed }) ∧
    e.Forgets actor.id after ∧
    ∀ (back : LiveActor) (now : Instant), back.id = actor.id →
      (∀ host : Host σ, ∃ s,
        (after.onJoin back now host).1.registry.session? actor.id = some s ∧
        (Session.fresh actor.id e.registry.blueprints now).StartedOver
          ⟨back, now⟩ (consult (overlapping back.location) host).1 s) ∧
      ∀ (first : Engine) (now' : Instant),
        first.registry.blueprints = e.registry.blueprints →
        first.registry.session? actor.id = none →
        InStep (fun rejoined joined => rejoined.registry.SameSession actor.id joined.registry)
          (after.onJoin back now : HostM σ Engine) (first.onJoin back now') := by
  intro out after
  have hforgets : e.Forgets actor.id after := e.onQuit_forgets actor
  have hblueprints : after.registry.blueprints = e.registry.blueprints := by
    rw [hforgets.setup]
  have hgone : after.registry.session? actor.id = none :=
    (hforgets.sessions actor.id).trans (if_pos rfl)
  refine ⟨congrArg Prod.fst (e.onQuit_eq actor), hforgets, fun back now hid => ?_⟩
  rw [← hid] at hgone ⊢
  rw [← hblueprints]
  refine ⟨onJoin_startedOver hgone now, fun first now' hfirst hnone => ?_⟩
  exact onJoin_inStep hfirst.symm hgone hnone now now'

end Engine

/-- A visitor to whom a home is attached, and who has done without a bypass, leaves the town and
comes back into it. What they caused is still put down to them, and their new session is that of a
first visit. -/
theorem quit_forgets_actor_alone_in_town :
    let player : ActorRef := .player ⟨Town.visitor.id, Town.visitor.name⟩
    let creeper : ActorRef := .entity { id := ⟨⟨9⟩⟩, kind := .creeper, location := Town.place 0 }
    let requests : List Attributions.Request := [.put player "home" creeper, .track creeper player]
    let events : List EngineEvent := [.join Town.visitor ⟨0⟩,
      .operate (.setBypassOff Town.visitor.id true),
      .record (requests.mapM Attributions.serve {}).2]
    let opened := (Engine.new {}).register (.watch .build)
    let e := (events.foldlM Engine.handle opened (Town.hostAfter 1)).1
    let after := (e.onQuit Town.visitor).2
    let back : LiveActor := { Town.visitor with location := Town.place 10 }
    (e.onQuit Town.visitor).1.map (fun s => (s.phase, s.bypassOff)) = some (.removed, true) ∧
    after.registry.session? Town.visitor.id = none ∧
    after.attributions.get? player "home" = none ∧
    after.attributions.parent? creeper = some player ∧
    ∃ s s', (after.onJoin back ⟨5⟩ (Town.hostAfter 1)).1.registry.session? back.id = some s ∧
      (opened.onJoin back ⟨9⟩ (Town.hostAfter 1)).1.registry.session? back.id = some s' ∧
      s.timeless = s'.timeless ∧ s.bypassOff = false := by
  intro player creeper requests events opened e after back
  obtain ⟨hremoved, hforgets, hback⟩ :=
    e.quit_forgets_actor_alone (Served Town.tables) Town.visitor
  obtain ⟨hafresh, hfirst⟩ := hback back ⟨5⟩ rfl
  obtain ⟨t, ht, hover⟩ := hafresh (Town.hostAfter 1)
  obtain ⟨⟨s, s', hs, hs', hsame⟩, -⟩ :=
    hfirst opened ⟨9⟩ rfl (by decide +kernel) (Town.hostAfter 1) (Town.hostAfter 1) rfl
  obtain rfl := Option.some.inj (hs.symm.trans ht)
  refine ⟨?_, ?_, ?_, ?_, s, s', hs, hs', hsame, hover.bypassOff⟩
  · rw [hremoved]
    decide +kernel
  · exact (hforgets.sessions _).trans (if_pos rfl)
  · exact (hforgets.attributions player "home").trans (if_pos rfl)
  · exact (hforgets.attributions creeper Attributions.causeKey).trans (if_neg (by decide))

end RegionAccess
