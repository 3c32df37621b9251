import RegionAccess.Profile
import RegionAccess.Session
import RegionAccess.World

/-! The sessions of all actors: entering, leaving, expiry, bypass, and the judgement of moves. -/
namespace RegionAccess

structure SessionConfig where
  tickInterval : Nat := 2
  /-- Seconds without a touch after which a session is dropped. -/
  expirySeconds : Nat := 600
  /-- The world's name follows it in the permission that grants a bypass. -/
  bypassPermissionRoot : String := "regionward.region.bypass."
  deriving DecidableEq, Repr

def SessionConfig.bypassPermission (c : SessionConfig) (world : String) : String :=
  c.bypassPermissionRoot ++ world

inductive SessionError where
  | notFound (actor : EntityId)
  deriving DecidableEq

def SessionError.message : SessionError → String
  | .notFound id => "no session for actor " ++ id.text

/-- An actor among others who are dealt with one after the other, and when it is their turn. -/
structure Turn where
  actor : LiveActor
  moment : Instant

structure Registry where
  config : SessionConfig := {}
  worlds : WorldPolicies := {}
  sessions : Std.ExtTreeMap EntityId Session := ∅
  /-- What new sessions get, in this order. -/
  blueprints : List Blueprint := [.entryExit]
  profiles : ProfileCache := {}

namespace Registry

/-- Sessions entered from now on get the handler too. -/
def register (r : Registry) (blueprint : Blueprint) : Registry :=
  { r with blueprints := r.blueprints ++ [blueprint] }

def session? (r : Registry) (id : EntityId) : Option Session := r.sessions[id]?

def size (r : Registry) : Nat := r.sessions.size

def store (r : Registry) (id : EntityId) (s : Session) : Registry :=
  { r with sessions := r.sessions.insert id s }

/-- The actor's session, or a new one. -/
def sessionOf (r : Registry) (id : EntityId) (now : Instant) : Session :=
  (r.session? id).getD (.fresh id r.blueprints now)

/-- The session in its last phase, and the registry without it. -/
def remove (r : Registry) (id : EntityId) : Except SessionError (Session × Registry) :=
  match r.session? id with
  | none => .error (.notFound id)
  | some s => .ok ({ s with phase := .removed }, { r with sessions := r.sessions.erase id })

/-- Drops the sessions that were last touched too long ago, and counts them. -/
def expire (r : Registry) (now : Instant) : Nat × Registry :=
  let expiry := Span.cappedSeconds r.config.expirySeconds
  let kept := r.sessions.filter fun _ s => decide (now.since s.lastSeen ≤ expiry)
  (r.sessions.size - kept.size, { r with sessions := kept })

/-- Whether an identity is not checked in a world: automation where the world says so, and whoever
is permitted unless they do without it. -/
def hasBypass (r : Registry) (i : Identity) (world : WorldId) : Bool :=
  (i.isFake && (r.worlds.policyOf world).fakePlayersBypass) ||
    (!((r.session? i.id).any (·.bypassOff)) && i.permits (r.config.bypassPermission world.text))

def setBypassOff (r : Registry) (id : EntityId) (off : Bool) : Except SessionError Registry :=
  match r.session? id with
  | none => .error (.notFound id)
  | some s => .ok (r.store id { s with bypassOff := off })

section
variable {σ : Type} [RegionIndex σ]

/-- The actor's session starts, or starts over, where they are, and their name is cached. -/
def enter (r : Registry) (actor : LiveActor) (now : Instant) : HostM σ Registry := do
  let s ← (r.sessionOf actor.id now).anchor actor now
  return { r.store actor.id s with profiles := (r.profiles.submit false ⟨actor.id, actor.name⟩).2 }

def tickActor (r : Registry) (actor : LiveActor) (now : Instant) : HostM σ Registry := do
  if !actor.isOnline then return r
  let s ← (r.sessionOf actor.id now).ensureActive actor now
  return r.store actor.id (← s.tick actor (r.profiles.name? actor.id) now)

/-- Ticks the sessions of those online, entering the ones that have none. All of them are touched
when the tick starts. -/
def tick (r : Registry) (actors : List LiveActor) (now : Instant) : HostM σ Registry :=
  actors.foldlM (fun r actor => r.tickActor actor now) r

def resyncActor (r : Registry) (actor : LiveActor) (now : Instant) : HostM σ Registry := do
  if !actor.isOnline then return r
  match r.session? actor.id with
  | none => return r
  | some s => return r.store actor.id (← s.anchor actor now)

/-- Starts over the sessions that those online have. -/
def resync (r : Registry) (turns : List Turn) : HostM σ Registry :=
  turns.foldlM (fun r turn => r.resyncActor turn.actor turn.moment) r

/-- Judges a move; whoever has a bypass is not checked. -/
def judgeMove (r : Registry) (actor : LiveActor) (target : Location) (kind : MoveKind)
    (now : Instant) : HostM σ (Option Location × Registry) := do
  let s := r.sessionOf actor.id now
  if r.hasBypass actor.toIdentity target.world then
    return (none, r.store actor.id (s.movedBlindly target))
  let s ← s.ensureActive actor now
  let (back, s) ← s.judgeMove actor target kind now
  return (back, r.store actor.id s)

end
end Registry
end RegionAccess
