import RegionAccess.Cause.Resolution
import RegionAccess.Config
import RegionAccess.Dependency
import RegionAccess.Event.Damage
import RegionAccess.Event.Protection
import RegionAccess.Schedule
import RegionAccess.Session.Vehicle

/-! The engine that a host drives: recorded attributions, sessions, dependencies and the tick
count. Every call is given the platform as it is at that time. -/
namespace RegionAccess

structure Engine where
  config : Config := {}
  attributions : Attributions := {}
  registry : Registry := {}
  dependencies : Dependencies := {}
  tick : Nat := 0

namespace Engine

def new (config : Config) : Engine where
  config := config
  registry := { config := config.session, worlds := config.worlds }
  dependencies := { watched := config.watchedDependencies }

/-- The count of server ticks stays at the largest 64-bit word once it gets there. -/
def lastTick : Nat := UInt64.size - 1

def register (e : Engine) (blueprint : Blueprint) : Engine :=
  { e with registry := e.registry.register blueprint }

def resolve (e : Engine) (platform : Platform) (triggers : List ActorRef) : Cause :=
  RegionAccess.resolve platform.relations e.attributions triggers

def subject (e : Engine) (platform : Platform) (cause : Cause) : Subject :=
  cause.subject platform e.config.worlds

section
variable {σ : Type} [RegionIndex σ]

/-- The flags of the environment come before the build flag. -/
def onBlockChange (e : Engine) (platform : Platform) (change : BlockChange) :
    StateM σ BlockChange := do
  (← change.checkEnvironment e.config.worlds).protect platform e.config.worlds e.registry

def onDamage (e : Engine) (platform : Platform) (damage : Damage) : StateM σ Damage :=
  damage.checkFall platform e.config.worlds

def onJoin (e : Engine) (actor : LiveActor) (now : Instant) : HostM σ Engine := do
  return { e with registry := ← e.registry.enter actor now }

/-- Drops what is kept of an actor, and gives their session back if there was one. -/
def onQuit (e : Engine) (actor : LiveActor) : Option Session × Engine :=
  let e := { e with attributions := e.attributions.removeAll (.player ⟨actor.id, actor.name⟩) }
  match e.registry.remove actor.id with
  | .ok (s, registry) => (some s, { e with registry })
  | .error _ => (none, e)

/-- Gives where to put the actor back if the move is refused. -/
def onMove (e : Engine) (actor : LiveActor) (target : Location) (kind : MoveKind) (now : Instant) :
    HostM σ (Option Location × Engine) := do
  let (back, registry) ← e.registry.judgeMove actor target kind now
  return (back, { e with registry })

def onVehicleMove (e : Engine) (m : VehicleMove) (riders : List Turn) :
    HostM σ (VehicleVerdict × Engine) := do
  let (verdict, registry) ← e.registry.judgeVehicle m riders
  return (verdict, { e with registry })

/-- Whether the dependency is watched, in which case all sessions of those online start over. -/
def onDependencyToggled (e : Engine) (name : String) (enabled : Bool) (turns : List Turn) :
    HostM σ (Bool × Engine) :=
  match e.dependencies.toggle name enabled with
  | none => pure (false, e)
  | some dependencies => do
      return (true, { e with dependencies, registry := ← e.registry.resync turns })

/-- Ticks sessions and invalidates the index's cache, each when it is due. Sessions expire once
they are ticked, by the clock as it is then. -/
def onTick (e : Engine) (actors : List LiveActor) (now later : Instant) : HostM σ Engine := do
  let tick := min (e.tick + 1) lastTick
  let registry ←
    if (Schedule.mk e.config.session.tickInterval).fires tick then do
      pure ((← e.registry.tick actors now).expire later).2
    else pure e.registry
  if (Schedule.mk e.config.cacheInterval).fires tick then consult RegionIndex.invalidate
  return { e with tick, registry }

end
end Engine
end RegionAccess
