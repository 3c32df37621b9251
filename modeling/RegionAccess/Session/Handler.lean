import RegionAccess.Session.Rule
import RegionAccess.Time

/-! The handlers a session carries. Each has a say in every move that crosses a block boundary and
may keep a state of its own. -/
namespace RegionAccess

/-- A flag followed at the actor's position, with its last value and when that last changed. -/
structure FlagWatch where
  flag : Flag
  lastValue : Option Bool := none
  lastChange : Option Instant := none

inductive Handler where
  | entryExit
  | watch (watch : FlagWatch)
  /-- A rule of the host's, with what it has in mind of the session. -/
  | host (rule : HostRule) (memory : Memory)

/-- What makes a fresh handler for each new session. -/
inductive Blueprint where
  | entryExit
  | watch (flag : Flag)
  | host (rule : HostRule)

def Blueprint.build : Blueprint → Handler
  | .entryExit => .entryExit
  | .watch flag => .watch { flag }
  | .host rule => .host rule rule.fresh

section
variable {σ : Type} [RegionIndex σ]

/-- Evaluates the flag, and reports the value when it is not the last one. -/
def FlagWatch.evaluate (w : FlagWatch) (actor : LiveActor) (location : Location) (now : Instant) :
    HostM σ FlagWatch := do
  let value ← consult (actor.toIdentity.isAllowed location w.flag)
  if w.lastValue = some value then return w
  notify [.flagChanged actor.id w.flag value]
  return { w with lastValue := some value, lastChange := some now }

/-- Entering some region takes the entry flag at the target, leaving some region the exit flag
at the source. -/
def Move.passesEntryExit (m : Move) : StateM σ Bool := do
  if !m.entered.isEmpty then
    if !(← m.actor.toIdentity.isAllowed m.target .entry) then return false
  if !m.exited.isEmpty then
    if !(← m.actor.toIdentity.isAllowed m.source .exit) then return false
  return true

namespace Handler

def name : Handler → String
  | .entryExit => "entry-exit"
  | .watch w => w.flag.name
  | .host r _ => r.name

/-- The session starts at a location, or starts over there. -/
def start (actor : LiveActor) (location : Location) (now : Instant) :
    Handler → HostM σ Handler
  | .entryExit => pure .entryExit
  | .watch w => return .watch (← w.evaluate actor location now)
  | .host r memory => return .host r (← (r.onStart actor location).run memory).2

/-- Whether the move may happen; a rule of the host's may learn from being asked. -/
def permits (m : Move) : Handler → HostM σ (Bool × Handler)
  | .entryExit => return (← consult m.passesEntryExit, .entryExit)
  | .watch w => pure (true, .watch w)
  | .host r memory => do
      let (permitted, memory) ← (r.judge m).run memory
      return (permitted, .host r memory)

/-- The move was accepted. -/
def cross (m : Move) (now : Instant) : Handler → HostM σ Handler
  | .entryExit => pure .entryExit
  | .watch w => return .watch (← w.evaluate m.actor m.target now)
  | .host r memory => return .host r (← (r.onCross m).run memory).2

def tick (actor : LiveActor) (now : Instant) : Handler → HostM σ Handler
  | .entryExit => pure .entryExit
  | .watch w => return .watch (← w.evaluate actor actor.location now)
  | .host r memory => return .host r (← (r.onTick actor).run memory).2

end Handler

/-- Whether every handler permits the move, and the handlers once they were asked; none is asked
after the first refusal. -/
def allPermit (m : Move) : List Handler → HostM σ (Bool × List Handler)
  | [] => pure (true, [])
  | h :: hs => do
      let (permitted, h) ← h.permits m
      if permitted then
        let (permitted, hs) ← allPermit m hs
        return (permitted, h :: hs)
      else return (false, h :: hs)

end
end RegionAccess
