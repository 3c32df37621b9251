import Mathlib.Data.List.Induction
import RegionAccess.Engine
import RegionAccess.Proofs.Index.Tables
import RegionAccess.Proofs.Session.Calls
import RegionAccess.Proofs.Session.Handlers

/-! Toggles of dependencies. When a watched one is toggled, the sessions of those online start over
where their actors are. No session comes or goes by it, and a dependency that is not watched is
toggled without a trace. -/
namespace RegionAccess
open RegionIndex Recording

/-- A lookup of the regions at a place, and what it came to. -/
def Call.lookup? : Call → Option (Location × Except IndexError RegionSet)
  | .overlapping location found => some (location, found)
  | _ => none

def Recorded.lookups {σ : Type} (r : Recorded σ) : List (Location × Except IndexError RegionSet) :=
  r.calls.filterMap Call.lookup?

/-- A turn at which a session starts over, with what was found where its actor is. -/
structure Restart where
  turn : Turn
  found : Except IndexError RegionSet
  /-- What the host's own rules looked up besides, once they were told. -/
  further : List (Location × Except IndexError RegionSet)

def Restart.lookups (restart : Restart) : List (Location × Except IndexError RegionSet) :=
  (restart.turn.actor.location, restart.found) :: restart.further

/-- The dialogue leaves regions to the index: none are looked up in it, nor to tell where a subject
stands. -/
def Dialogue.LooksUpNothing {α : Type} : Dialogue α → Prop
  | .done _ => True
  | .remark _ rest => rest.LooksUpNothing
  | .lookUp _ _ => False
  | .inquire _ _ subject resume =>
      (∀ probe, subject ≠ .deferred probe) ∧ ∀ answer, (resume answer).LooksUpNothing
  | .environment _ _ resume => ∀ answer, (resume answer).LooksUpNothing

/-- A session may start without lookups of the handler's own. -/
def Blueprint.StartsUnseeing : Blueprint → Prop
  | .entryExit | .watch _ => True
  | .host rule => ∀ actor location memory,
      ((rule.onStart actor location).dialogue memory).LooksUpNothing

/-- Started over, a session is where its actor is and knows the regions that were found there. The
rest of it is as it was: what its handlers remember may change, not which they are. -/
structure Session.StartedOver (s : Session) (turn : Turn) (found : Except IndexError RegionSet)
    (s' : Session) : Prop where
  phase : s'.phase = .active
  lastValid : s'.lastValid = some turn.actor.location
  regions : s'.regions = found.toOption.getD ∅
  regionsKnown : s'.regionsKnown = true ↔ ∃ here, found = .ok here
  lastSeen : s'.lastSeen = turn.moment
  actor : s'.actor = s.actor
  createdAt : s'.createdAt = s.createdAt
  bypassOff : s'.bypassOff = s.bypassOff
  profileName : s'.profileName = s.profileName
  blueprints : s'.blueprints = s.blueprints

/-- To start over again forgets where that was done before. -/
theorem Session.StartedOver.trans {s s' s'' : Session} {first last : Turn}
    {found found' : Except IndexError RegionSet} (h : s.StartedOver first found s')
    (h' : s'.StartedOver last found' s'') : s.StartedOver last found' s'' where
  phase := h'.phase
  lastValid := h'.lastValid
  regions := h'.regions
  regionsKnown := h'.regionsKnown
  lastSeen := h'.lastSeen
  actor := h'.actor.trans h.actor
  createdAt := h'.createdAt.trans h.createdAt
  bypassOff := h'.bypassOff.trans h.bypassOff
  profileName := h'.profileName.trans h.profileName
  blueprints := h'.blueprints.trans h.blueprints

/-- It is the actor's turn, and they are online. -/
def Turn.isOf (turn : Turn) (id : EntityId) : Bool := turn.actor.isOnline && turn.actor.id = id

/-- The turn is of an actor who has a session, and who is online to have it start over. -/
def Registry.resyncs (r : Registry) (turn : Turn) : Bool :=
  turn.actor.isOnline && (r.session? turn.actor.id).isSome

/-- What turns leave of a registry: the same sessions, started over at the last turn of their actor
where there was one with them online, and otherwise as they were. A session looks up the regions
where its actor is and nothing else, unless the host's own rules do. -/
structure Registry.Resynced (r : Registry) (turns : List Turn) (restarts : List Restart)
    (r' : Registry) : Prop where
  setup : r' = { r with sessions := r'.sessions }
  kept : ∀ id, (r'.session? id).isSome = (r.session? id).isSome
  taken : restarts.map (·.turn) = turns.filter r.resyncs
  unaided : ∀ restart ∈ restarts, ∀ s, r.session? restart.turn.actor.id = some s →
    (∀ b ∈ s.blueprints, b.StartsUnseeing) → restart.further = []
  sessions : ∀ id s, r.session? id = some s →
    match (turns.filter (·.isOf id)).getLast? with
    | none => r'.session? id = some s
    | some turn => ∃ restart s',
        (restarts.filter (·.turn.isOf id)).getLast? = some restart ∧ restart.turn = turn ∧
        r'.session? id = some s' ∧ s.StartedOver turn restart.found s'

namespace Registry.Resynced
variable {r r' : Registry} {turns : List Turn} {restarts : List Restart}

theorem nil (r : Registry) : r.Resynced [] [] r where
  setup := rfl
  kept _ := rfl
  taken := rfl
  unaided := nofun
  sessions _ _ hs := hs

/-- A turn of an actor who is not online or has no session counts for nothing. -/
theorem skip (h : r.Resynced turns restarts r') {turn : Turn} (hturn : r.resyncs turn = false) :
    r.Resynced (turns ++ [turn]) restarts r' where
  setup := h.setup
  kept := h.kept
  taken := by simp [h.taken, hturn]
  unaided := h.unaided
  sessions id s hs := by
    have hother : turn.isOf id = false := by
      by_cases hid : turn.actor.id = id
      · simpa [resyncs, Turn.isOf, hid, hs] using hturn
      · simp [Turn.isOf, hid]
    simpa [hother] using h.sessions id s hs

/-- What a session is by now differs from what it was by an earlier restart at most. -/
theorem before (h : r.Resynced turns restarts r') {id : EntityId} {t s : Session}
    (ht : r.session? id = some t) (hs : r'.session? id = some s) :
    t = s ∨ ∃ last found, t.StartedOver last found s := by
  have hsession := h.sessions id t ht
  rw [hs] at hsession
  split at hsession
  · exact .inl (Option.some.inj hsession).symm
  · obtain ⟨last, s₁, -, -, hs₁, hover₁⟩ := hsession
    exact .inr ⟨_, last.found, Option.some.inj hs₁ ▸ hover₁⟩

/-- A session that starts over has done so at the last turn of its actor so far. -/
theorem concat (h : r.Resynced turns restarts r') {restart : Restart} {s s' : Session}
    (hon : restart.turn.actor.isOnline = true) (hs : r'.session? restart.turn.actor.id = some s)
    (hover : s.StartedOver restart.turn restart.found s')
    (hunaided : (∀ b ∈ s.blueprints, b.StartsUnseeing) → restart.further = []) :
    r.Resynced (turns ++ [restart.turn]) (restarts ++ [restart])
      (r'.store restart.turn.actor.id s') where
  setup := by
    rw [h.setup]
    rfl
  kept id := by
    rw [session?_store, ← h.kept]
    split
    next hid => rw [← hid, hs]; rfl
    next => rfl
  taken := by
    have hsession : (r.session? restart.turn.actor.id).isSome = true := by rw [← h.kept, hs]; rfl
    simp [h.taken, resyncs, hon, hsession]
  unaided before hbefore t ht hblueprints := by
    rcases List.mem_append.mp hbefore with hbefore | hbefore
    · exact h.unaided before hbefore t ht hblueprints
    · obtain rfl := List.mem_singleton.mp hbefore
      have hsame : s.blueprints = t.blueprints := by
        rcases h.before ht hs with rfl | ⟨_, _, hlast⟩
        · rfl
        · exact hlast.blueprints
      exact hunaided (hsame ▸ hblueprints)
  sessions id t ht := by
    rw [session?_store, List.filter_append, List.filter_append]
    by_cases hid : restart.turn.actor.id = id
    · have hturn : restart.turn.isOf id = true := by simp [Turn.isOf, hon, hid]
      simp only [List.filter_cons, hturn, if_true, List.filter_nil, List.getLast?_concat, hid]
      refine ⟨restart, s', rfl, rfl, rfl, ?_⟩
      rcases h.before ht (hid ▸ hs) with rfl | ⟨_, _, hlast⟩
      · exact hover
      · exact hlast.trans hover
    · have hturn : restart.turn.isOf id = false := by simp [Turn.isOf, hid]
      simpa [hid, hturn] using h.sessions id t ht

end Registry.Resynced

section
variable {σ : Type} [RegionIndex σ]

/-! Standings other than those of blocks and entities are answered from what is known of the
subject, so only the session itself looks up regions while it starts over, and such rules of the
host's as do so on their own account. -/

variable (found : List (Location × Except IndexError RegionSet))

theorem Inquiry.lookups_conduct (location : Location) (flag : Flag) (inquiry : Inquiry σ)
    {subject : Subject} (hsubject : ∀ probe, subject ≠ .deferred probe) (calls : List Call) :
    ((inquiry.recorded location flag calls).conduct subject).2.lookups =
      calls.filterMap Call.lookup? := by
  induction inquiry generalizing calls with
  | answer result after => simp [recorded, conduct, Recorded.lookups, Call.lookup?]
  | ask regions before resume ih =>
    cases subject with
    | player i => exact ih (i.standing regions) before calls
    | offline i => exact ih (i.toIdentity.standing regions) before calls
    | deferred probe => exact absurd rfl (hsubject probe)
    | constant standing => exact ih standing before calls

theorem Keeps.inquire_lookups (location : Location) (flag : Flag) {subject : Subject}
    (hsubject : ∀ probe, subject ≠ .deferred probe) :
    Keeps (·.lookups = found)
      (inquire location flag · |>.conduct subject : StateM (Recorded σ) _) := by
  intro r hr
  rw [← hr]
  exact (inquire location flag r.index).lookups_conduct location flag hsubject r.calls

theorem Identity.isAllowed_keeps_lookups (i : Identity) (location : Location) (flag : Flag) :
    Keeps (·.lookups = found) (i.isAllowed location flag : StateM (Recorded σ) Bool) :=
  Keeps.inquire_lookups found location flag nofun

theorem Dialogue.hold_keeps_lookups {α : Type} (d : Dialogue α) (hd : d.LooksUpNothing) :
    Keeps (·.index.lookups = found) (d.hold : HostM (Recorded σ) α) := by
  induction d with
  | done outcome => exact Keeps.pure outcome
  | remark text rest ih => exact Keeps.bind (fun _ h => h) fun _ => ih hd
  | lookUp location resume => exact hd.elim
  | inquire location flag subject resume ih =>
    have hanswer := (Keeps.inquire_lookups (σ := σ) found location flag hd.1).bind
      fun out => Keeps.pure out.1
    exact hanswer.consult.bind fun answer => ih answer (hd.2 answer)
  | environment location flag resume ih =>
    have hasked : Keeps (·.lookups = found)
        (RegionIndex.environment location flag : StateM (Recorded σ) Answer) := by
      intro r hr
      apply Eq.trans _ hr
      exact List.filterMap_append.trans (List.append_nil _)
    exact hasked.consult.bind fun answer => ih answer (hd answer)

theorem Handler.start_keeps_lookups (actor : LiveActor) (location : Location) (now : Instant)
    (h : Handler) (hblueprint : h.blueprint.StartsUnseeing) :
    Keeps (·.index.lookups = found)
      (h.start actor location now : HostM (Recorded σ) Handler) := by
  cases h with
  | entryExit => exact Keeps.pure _
  | watch w =>
    have hallowed := actor.toIdentity.isAllowed_keeps_lookups (σ := σ) found location w.flag
    refine Keeps.bind (Keeps.bind hallowed.consult fun value => ?_) fun w => Keeps.pure _
    exact Keeps.ite (Keeps.pure _) (Keeps.bind (fun _ h => h) fun _ => Keeps.pure _)
  | host rule memory =>
    exact (Dialogue.hold_keeps_lookups found _ (hblueprint actor location memory)).bind
      fun _ => Keeps.pure _

theorem Session.startedOver_anchor (s : Session) (turn : Turn) (host : Host σ) :
    s.StartedOver turn (consult (overlapping turn.actor.location) host).1
      (s.anchor turn.actor turn.moment host).1 := by
  have hblueprints := s.anchor_blueprints turn.actor turn.moment host
  unfold anchor at hblueprints ⊢
  simp only [takeRegions_eq] at hblueprints ⊢
  have hknown (found : Except IndexError RegionSet) :
      found.toOption.isSome = true ↔ ∃ here, found = .ok here := by
    cases found <;> simp [Except.toOption]
  exact ⟨rfl, rfl, rfl, hknown _, rfl, rfl, rfl, rfl, rfl, hblueprints⟩

theorem Session.anchor_startedOver (s : Session) (turn : Turn) (host : Host (Recorded σ)) :
    let out := s.anchor turn.actor turn.moment host
    ∃ restart : Restart, restart.turn = turn ∧ s.StartedOver turn restart.found out.1 ∧
      out.2.index.lookups = host.index.lookups ++ restart.lookups ∧
      ((∀ b ∈ s.blueprints, b.StartsUnseeing) → restart.further = []) := by
  let start := s.handlers.mapM (m := HostM (Recorded σ))
    (·.start turn.actor turn.actor.location turn.moment)
  let out := consult (overlapping turn.actor.location) host
  have hlookup : out.2.index.lookups =
      host.index.lookups ++ [(turn.actor.location, out.1)] := List.filterMap_append
  have hmirrors : Mirrors start (s.handlers.mapM (m := HostM σ)
      (·.start turn.actor turn.actor.location turn.moment)) := Mirrors.mapM (Mirrors.start _ _ _) _
  obtain ⟨further, hfurther⟩ := (hmirrors.extended out.2).filterMap Call.lookup?
  refine ⟨⟨turn, out.1, further⟩, rfl, s.startedOver_anchor turn host, ?_, fun hs => ?_⟩
  · rw [Restart.lookups, List.append_cons, ← hlookup]
    exact hfurther.symm
  · have hkept : Keeps (·.index.lookups = out.2.index.lookups) start :=
      Keeps.mapM fun h hh => Handler.start_keeps_lookups _ _ _ _ h
        (hs _ (List.mem_map_of_mem hh))
    exact List.append_right_eq_self.mp (hfurther.trans (hkept out.2 rfl))

namespace Registry
variable (r : Registry)

theorem resyncActor_of_not (turn : Turn) (h : r.resyncs turn = false) (host : Host σ) :
    r.resyncActor turn.actor turn.moment host = (r, host) := by
  unfold resyncActor
  cases hon : turn.actor.isOnline with
  | false => rfl
  | true =>
    cases hs : r.session? turn.actor.id with
    | none => rfl
    | some s => simp [resyncs, hon, hs] at h

theorem resyncActor_of_session {turn : Turn} {s : Session} (hon : turn.actor.isOnline = true)
    (hs : r.session? turn.actor.id = some s) (host : Host σ) :
    r.resyncActor turn.actor turn.moment host =
      let out := s.anchor turn.actor turn.moment host
      (r.store turn.actor.id out.1, out.2) := by
  unfold resyncActor
  rw [hon, hs]
  rfl

/-- One turn after the other, the sessions of those online start over. -/
theorem resync_resynced (turns : List Turn) (host : Host (Recorded σ)) :
    let out := r.resync turns host
    ∃ restarts, r.Resynced turns restarts out.1 ∧
      out.2.index.lookups = host.index.lookups ++ restarts.flatMap (·.lookups) := by
  -- the turns before the last dropped no session, so that it meets one where there was one at first
  induction turns using List.reverseRecOn with
  | nil => exact ⟨[], .nil r, (List.append_nil _).symm⟩
  | append_singleton turns last ih =>
    obtain ⟨restarts, hresynced, hlookups⟩ := ih
    have hlast : r.resync (turns ++ [last]) host =
        (r.resync turns host).1.resyncActor last.actor last.moment (r.resync turns host).2 := by
      rw [resync, List.foldlM_append]
      rfl
    rw [hlast]
    generalize r.resync turns host = before at *
    cases hturn : r.resyncs last with
    | false =>
      rw [resyncActor_of_not]
      · exact ⟨restarts, hresynced.skip hturn, hlookups⟩
      · rw [resyncs, hresynced.kept]
        exact hturn
    | true =>
      obtain ⟨hon, hsession⟩ := Bool.and_eq_true_iff.mp hturn
      rw [← hresynced.kept] at hsession
      obtain ⟨s, hs⟩ := Option.isSome_iff_exists.mp hsession
      obtain ⟨restart, rfl, hover, hfound, hunaided⟩ := s.anchor_startedOver last before.2
      rw [before.1.resyncActor_of_session hon hs]
      refine ⟨restarts ++ [restart], hresynced.concat hon hs hover hunaided, ?_⟩
      rw [hfound, hlookups, List.flatMap_append, List.flatMap_singleton, List.append_assoc]

end Registry
end

namespace Dependencies

theorem toggle_isSome_iff (d : Dependencies) (name : String) (enabled : Bool) :
    (d.toggle name enabled).isSome = true ↔ ∃ w ∈ d.watched, asciiLower w = asciiLower name := by
  simp [toggle, isWatched]

/-- A toggle that is taken up is the dependency's own and nobody else's. -/
theorem toggle_takes {d d' : Dependencies} {name : String} {enabled : Bool}
    (h : d.toggle name enabled = some d') :
    d'.watched = d.watched ∧ ∀ other, d'.isActive other =
      if asciiLower other = asciiLower name then enabled else d.isActive other := by
  unfold toggle at h
  split at h
  · rw [← Option.some.inj h]
    refine ⟨rfl, fun other => ?_⟩
    by_cases hother : asciiLower other = asciiLower name
    · cases enabled <;> simp [isActive, hother]
    · have hne : compare (asciiLower name) (asciiLower other) ≠ .eq :=
        fun heq => hother (Std.LawfulEqCmp.eq_of_compare heq).symm
      cases enabled <;> simp [isActive, hother, hne]
  · cases h

end Dependencies

namespace Engine
variable {σ : Type} [RegionIndex σ] (e : Engine) (name : String) (enabled : Bool)
  (turns : List Turn)

theorem mirrors_onDependencyToggled :
    Mirrors (e.onDependencyToggled name enabled turns : HostM (Recorded σ) _)
      (e.onDependencyToggled name enabled turns : HostM σ _) := by
  unfold onDependencyToggled
  cases e.dependencies.toggle name enabled with
  | none => exact Mirrors.pure _
  | some dependencies => exact (Mirrors.resync e.registry turns).bind fun registry => Mirrors.pure _

/-- A toggle of a dependency that is not watched, up to the case of ASCII letters, asks nothing and
changes nothing. One of a watched dependency changes nothing of the engine but which dependencies
are active and the sessions that start over: those of actors who are online at some turn, at the
last of these, whatever the index answers or fails at. -/
theorem toggle_starts_over_those_online (host : Host (Recorded σ)) :
    let run := e.onDependencyToggled name enabled turns host
    let after := run.1.2
    run.1 = (e.onDependencyToggled name enabled turns (plain host)).1 ∧
    (run.1.1 = true ↔ ∃ w ∈ e.dependencies.watched, asciiLower w = asciiLower name) ∧
    (run.1.1 = false → run = ((false, e), host)) ∧
    (run.1.1 = true →
      after = { e with dependencies := after.dependencies, registry := after.registry } ∧
      after.dependencies.watched = e.dependencies.watched ∧
      (∀ other, after.dependencies.isActive other =
        if asciiLower other = asciiLower name then enabled else e.dependencies.isActive other) ∧
      ∃ restarts, e.registry.Resynced turns restarts after.registry ∧
        run.2.index.lookups = host.index.lookups ++ restarts.flatMap (·.lookups)) := by
  intro run after
  refine ⟨(e.mirrors_onDependencyToggled name enabled turns).value host, ?_⟩
  have hwatched := e.dependencies.toggle_isSome_iff name enabled
  cases htoggle : e.dependencies.toggle name enabled with
  | none =>
    have hrun : run = ((false, e), host) := by
      simp only [run, onDependencyToggled, htoggle]
      rfl
    rw [htoggle] at hwatched
    have hfalse : run.1.1 = false := by rw [hrun]
    rw [hfalse]
    exact ⟨hwatched, fun _ => hrun, nofun⟩
  | some dependencies =>
    let out := e.registry.resync turns host
    have hrun : run = ((true, { e with dependencies, registry := out.1 }), out.2) := by
      simp only [run, onDependencyToggled, htoggle]
      rfl
    rw [htoggle] at hwatched
    obtain ⟨hsame, hactive⟩ := Dependencies.toggle_takes htoggle
    clear_value run
    subst hrun
    refine ⟨hwatched, nofun, fun _ => ⟨rfl, hsame, hactive, ?_⟩⟩
    exact e.registry.resync_resynced turns host

end Engine

/-- While the index starts up, a visitor's session starts over before the town and once more in it.
Their last turn finds them gone, and a dependency nobody watches goes unnoticed. -/
theorem toggle_starts_over_those_online_in_town :
    let inTown : LiveActor := { Town.visitor with location := Town.place 10 }
    let gone : LiveActor := { Town.visitor with isOnline := false }
    let turns : List Turn := [⟨Town.visitor, ⟨1⟩⟩, ⟨inTown, ⟨2⟩⟩, ⟨gone, ⟨3⟩⟩]
    let id := Town.visitor.id
    let e := ((Engine.new { watchedDependencies := ["Voice"] }).onJoin Town.visitor ⟨0⟩
      (Town.hostAfter 1)).1
    let host := (Town.hostAfter 0).recorded
    e.onDependencyToggled "Chat" true turns host = ((false, e), host) ∧
    ∃ after later restarts found s s',
      e.onDependencyToggled "VOICE" true turns host = ((true, after), later) ∧
      e.registry.Resynced turns restarts after.registry ∧ restarts.length = 2 ∧
      e.registry.session? id = some s ∧ after.registry.session? id = some s' ∧
      s.StartedOver ⟨inTown, ⟨2⟩⟩ found s' := by
  intro inTown gone turns id e host
  obtain ⟨-, -, hignored, -⟩ := e.toggle_starts_over_those_online "Chat" true turns host
  refine ⟨hignored (by decide +kernel), ?_⟩
  obtain ⟨-, hwatched, -, htaken⟩ := e.toggle_starts_over_those_online "VOICE" true turns host
  generalize e.onDependencyToggled "VOICE" true turns host = run at hwatched htaken ⊢
  obtain ⟨⟨taken, after⟩, later⟩ := run
  have hname : asciiLower "Voice" = asciiLower "VOICE" := by simp [asciiLower, String.ext_iff]
  obtain rfl : taken = true := hwatched.mpr ⟨"Voice", List.mem_cons_self, hname⟩
  obtain ⟨-, -, -, restarts, hresynced, -⟩ := htaken rfl
  have hlength : restarts.length = (turns.filter e.registry.resyncs).length := by
    rw [← hresynced.taken, List.length_map]
  have hsession : (e.registry.session? id).isSome = true := by decide +kernel
  obtain ⟨s, hs⟩ := Option.isSome_iff_exists.mp hsession
  obtain ⟨restart, s', -, -, hs', hover⟩ := hresynced.sessions id s hs
  refine ⟨after, later, restarts, restart.found, s, s', rfl, hresynced, ?_, hs, hs', hover⟩
  exact hlength.trans (by decide +kernel)

end RegionAccess
