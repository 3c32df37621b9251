import RegionAccess.Session.Handler

/-! What is kept of one actor: the last position they were allowed to be at, the regions there
when known, and their handlers. -/
namespace RegionAccess

inductive Phase where
  | uninitialized | active | removed
  deriving DecidableEq, Repr

instance : Labelled Phase where
  all := [.uninitialized, .active, .removed]
  label
    | .uninitialized => "Uninitialized"
    | .active => "Active"
    | .removed => "Removed"
  find_label a := by cases a <;> decide +kernel

structure Session where
  actor : EntityId
  phase : Phase := .uninitialized
  lastValid : Option Location := none
  /-- The regions at the last valid position, as far as they are known. -/
  regions : RegionSet := ∅
  regionsKnown : Bool := false
  handlers : List Handler
  createdAt : Instant
  lastSeen : Instant
  /-- The actor does without a bypass they are permitted. -/
  bypassOff : Bool := false
  profileName : Option String := none

namespace Session

def fresh (actor : EntityId) (blueprints : List Blueprint) (now : Instant) : Session where
  actor := actor
  handlers := blueprints.map (·.build)
  createdAt := now
  lastSeen := now

def learnRegions (s : Session) (here : RegionSet) : Session :=
  { s with regions := here, regionsKnown := true }

def forgetRegions (s : Session) : Session := { s with regions := ∅, regionsKnown := false }

/-- The session once its regions were looked up. -/
def takeRegions (s : Session) : Except IndexError RegionSet → Session
  | .ok here => s.learnRegions here
  | .error _ => s.forgetRegions

/-- The session at a position whose regions were not looked up. -/
def movedBlindly (s : Session) (target : Location) : Session :=
  { s.forgetRegions with lastValid := some target }

section
variable {σ : Type} [RegionIndex σ]
open RegionIndex

/-- Takes the actor's position and its regions as they are, without judging. -/
def anchor (s : Session) (actor : LiveActor) (now : Instant) : HostM σ Session := do
  let found ← consult (overlapping actor.location)
  let handlers ← s.handlers.mapM (·.start actor actor.location now)
  return { s.takeRegions found with
    phase := .active, lastValid := some actor.location, handlers, lastSeen := now }

def ensureActive (s : Session) (actor : LiveActor) (now : Instant) : HostM σ Session :=
  if s.phase = .active then pure s else s.anchor actor now

/-- The regions at the last valid position, looked up when they are not known. -/
def sourceRegions (s : Session) (source : Location) : StateM σ (Except IndexError RegionSet) :=
  if s.regionsKnown then pure (.ok s.regions) else overlapping source

/-- Judges a move out of a block once the regions at the source are known. -/
def judgeCrossing (s : Session) (actor : LiveActor) (source target : Location)
    (here there : RegionSet) (kind : MoveKind) (now : Instant) :
    HostM σ (Option Location × Session) := do
  let move : Move := ⟨actor, source, target, here, there, kind⟩
  let (permitted, handlers) ← allPermit move s.handlers
  if !permitted && kind.isRefusable then return (some source, { s with handlers })
  let handlers ← handlers.mapM (·.cross move now)
  return (none, { s with lastValid := some target, regions := there, handlers })

/-- A move whose regions cannot be looked up is refused where it can be. -/
def moveUnseen (s : Session) (source target : Location) (kind : MoveKind) :
    Option Location × Session :=
  if kind.isRefusable then (some source, s) else (none, s.movedBlindly target)

/-- Judges a move from the last valid position. A refused move gives the position to go back to;
an accepted one becomes the last valid position. -/
def judgeMove (s : Session) (actor : LiveActor) (target : Location) (kind : MoveKind)
    (now : Instant) : HostM σ (Option Location × Session) :=
  match s.lastValid with
  | none => pure (none, { s with lastValid := some target })
  | some source =>
      if !source.leavesBlock target then pure (none, { s with lastValid := some target })
      else do
        match ← consult (s.sourceRegions source) with
        | .error _ => return s.moveUnseen source target kind
        | .ok here =>
            let s := s.learnRegions here
            match ← consult (overlapping target) with
            | .error _ => return s.moveUnseen source target kind
            | .ok there => s.judgeCrossing actor source target here there kind now

def tick (s : Session) (actor : LiveActor) (name : Option String) (now : Instant) :
    HostM σ Session := do
  let handlers ← s.handlers.mapM (·.tick actor now)
  return { s with handlers, lastSeen := now, profileName := name <|> s.profileName }

end
end Session
end RegionAccess
