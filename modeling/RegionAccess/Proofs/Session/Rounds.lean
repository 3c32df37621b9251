import RegionAccess.Proofs.Session.Runs

/-! The rounds in which sessions call their handlers: when a session starts, when a crossing was
accepted, and at a tick. Watches change in rounds and nowhere else, and no change of a flag is
reported but in a round. -/
namespace RegionAccess
open RegionIndex

/-- Why a session calls its handlers. -/
inductive Occasion where
  | start (actor : LiveActor)
  | cross (move : Move)
  | tick (actor : LiveActor)

namespace Occasion

def actor : Occasion → LiveActor
  | .start actor | .tick actor => actor
  | .cross move => move.actor

/-- Where the actor is for the handlers. -/
def location : Occasion → Location
  | .start actor | .tick actor => actor.location
  | .cross move => move.target

end Occasion

/-- The handlers of a session are called in order, on a host. -/
structure Round (σ : Type) where
  occasion : Occasion
  moment : Instant
  handlers : List Handler
  host : Host σ

/-- The part that one handler has in a round, from how things are when its turn comes. -/
structure Part (σ : Type) where
  occasion : Occasion
  moment : Instant
  handler : Handler
  host : Host σ

def Handler.watch? : Handler → Option FlagWatch
  | .watch w => some w
  | .entryExit | .host _ _ => none

/-- A change of a flag, as against a remark. -/
def Notice.isReport : Notice → Bool
  | .flagChanged _ _ _ => true
  | .remark _ => false

/-- The changes of flags that a host was told of. -/
def Host.reports {σ : Type} (h : Host σ) : List Notice := h.notices.filter (·.isReport)

section
variable {σ : Type} [RegionIndex σ]

def Handler.attend (occasion : Occasion) (now : Instant) (h : Handler) : HostM σ Handler :=
  match occasion with
  | .start actor => h.start actor actor.location now
  | .cross move => h.cross move now
  | .tick actor => h.tick actor now

namespace Part

def after (p : Part σ) : Handler × Host σ := p.handler.attend p.occasion p.moment p.host

/-- What the handler sends in its part. -/
def sent (p : Part σ) : List Notice := p.after.2.notices.drop p.host.notices.length

/-- The answer of the index on a flag where the actor is. -/
def answer (p : Part σ) (flag : Flag) : Answer :=
  let inquiry := inquire p.occasion.location flag p.host.index
  (inquiry.conduct (.player p.occasion.actor.toIdentity)).1.1

/-- The verdict on that answer, where a failure leaves it to the category of the flag. -/
def verdict (p : Part σ) (flag : Flag) : Bool := flag.verdict (p.answer flag)

end Part

def Round.id (round : Round σ) : EntityId := round.occasion.actor.id

/-- What becomes of the handlers and the host in a round. -/
def Round.outcome (round : Round σ) : List Handler × Host σ :=
  round.handlers.mapM (·.attend round.occasion round.moment) round.host

def partsOf (occasion : Occasion) (now : Instant) : List Handler → Host σ → List (Part σ)
  | [], _ => []
  | h :: handlers, host =>
      ⟨occasion, now, h, host⟩ :: partsOf occasion now handlers (h.attend occasion now host).2

/-- The parts of the handlers, in their order. -/
def Round.parts (round : Round σ) : List (Part σ) :=
  partsOf round.occasion round.moment round.handlers round.host

/-- What the watches among them send. -/
def Round.reports (round : Round σ) : List Notice :=
  (round.parts.filter (·.handler.watch?.isSome)).flatMap (·.sent)

namespace Session

def startRound (s : Session) (actor : LiveActor) (now : Instant) (host : Host σ) : Round σ :=
  ⟨.start actor, now, s.handlers, (consult (overlapping actor.location) host).2⟩

def ensureRounds (s : Session) (actor : LiveActor) (now : Instant) (host : Host σ) :
    List (Round σ) :=
  if s.phase = .active then [] else [s.startRound actor now host]

/-- A crossing that some handler refuses is reported to none. -/
def crossRounds (s : Session) (move : Move) (now : Instant) : HostM σ (List (Round σ)) := do
  let (permitted, handlers) ← allPermit move s.handlers
  if !permitted && move.kind.isRefusable then return []
  return [⟨.cross move, now, handlers, ← get⟩]

def moveRounds (s : Session) (actor : LiveActor) (target : Location) (kind : MoveKind)
    (now : Instant) : HostM σ (List (Round σ)) :=
  match s.lastValid with
  | none => return []
  | some source =>
      if !source.leavesBlock target then return []
      else do
        match ← consult (s.sourceRegions source) with
        | .error _ => return []
        | .ok here =>
            match ← consult (overlapping target) with
            | .error _ => return []
            | .ok there => s.crossRounds ⟨actor, source, target, here, there, kind⟩ now

end Session

namespace Registry

def tickActorRounds (r : Registry) (actor : LiveActor) (now : Instant) (host : Host σ) :
    List (Round σ) :=
  if !actor.isOnline then []
  else
    let s := r.sessionOf actor.id now
    let (active, later) := s.ensureActive actor now host
    s.ensureRounds actor now host ++ [⟨.tick actor, now, active.handlers, later⟩]

def resyncActorRounds (r : Registry) (actor : LiveActor) (now : Instant) (host : Host σ) :
    List (Round σ) :=
  if !actor.isOnline then []
  else
    match r.session? actor.id with
    | none => []
    | some s => [s.startRound actor now host]

/-- The rounds of what is done for some one after the other. -/
def roundsInTurn {α : Type} (work : Registry → α → HostM σ Registry)
    (rounds : Registry → α → Host σ → List (Round σ)) : List α → Registry → Host σ → List (Round σ)
  | [], _, _ => []
  | a :: as, r, host =>
      rounds r a host ++ roundsInTurn work rounds as (work r a host).1 (work r a host).2

def moveRounds (r : Registry) (actor : LiveActor) (target : Location) (kind : MoveKind)
    (now : Instant) (host : Host σ) : List (Round σ) :=
  if r.hasBypass actor.toIdentity target.world then []
  else
    let s := r.sessionOf actor.id now
    let (active, later) := s.ensureActive actor now host
    s.ensureRounds actor now host ++ (active.moveRounds actor target kind now later).1

def riderRounds (m : VehicleMove) : List Turn → Registry → Host σ → List (Round σ)
  | [], _, _ => []
  | ⟨rider, moment⟩ :: riders, r, host =>
      r.moveRounds rider m.target .ride moment host ++
        match r.judgeMove rider m.target .ride moment host with
        | ((none, r), host) => riderRounds m riders r host
        | ((some _, _), _) => []

/-- The rounds that an operation calls handlers in, whosever they are. -/
def rounds (r : Registry) (host : Host σ) : Operation → List (Round σ)
  | .enter actor now => [(r.sessionOf actor.id now).startRound actor now host]
  | .tick actors now =>
      roundsInTurn (fun r actor => r.tickActor actor now)
        (fun r actor => r.tickActorRounds actor now) actors r host
  | .resync turns =>
      roundsInTurn (fun r turn => r.resyncActor turn.actor turn.moment)
        (fun r turn => r.resyncActorRounds turn.actor turn.moment) turns r host
  | .judgeMove actor target kind now => r.moveRounds actor target kind now host
  | .judgeVehicle m riders =>
      if (r.worlds.policyOf m.source.world).useRegions && m.source.leavesBlock m.target then
        riderRounds m riders r host
      else []
  | .setBypassOff _ _ | .remove _ | .expire _ => []

/-- The handlers of the actor's session, or those it would be made with. -/
def handlersOf (r : Registry) (id : EntityId) : List Handler :=
  ((r.session? id).map (·.handlers)).getD (r.blueprints.map (·.build))

end Registry

/-- Handlers go from one list to another through rounds, each of them on from the one before. In
between, what rules of the host's have in mind may change, but no watch does. -/
inductive Linked : List Handler → List (Round σ) → List Handler → Prop where
  | nil {first last : List Handler} :
      last.map (·.watch?) = first.map (·.watch?) → Linked first [] last
  | cons {first last : List Handler} (round : Round σ) {rounds : List (Round σ)} :
      round.handlers.map (·.watch?) = first.map (·.watch?) → Linked round.outcome.1 rounds last →
      Linked first (round :: rounds) last

namespace Linked
variable {first second third : List Handler} {rounds more : List (Round σ)}

theorem of_same (hsame : second.map (·.watch?) = first.map (·.watch?))
    (h : Linked second rounds third) : Linked first rounds third := by
  cases h with
  | nil h => exact .nil (h.trans hsame)
  | cons round h hrest => exact .cons round (h.trans hsame) hrest

theorem append (h : Linked first rounds second) (h' : Linked second more third) :
    Linked first (rounds ++ more) third := by
  induction h with
  | nil hsame => exact h'.of_same hsame
  | cons round hsame _ ih => exact .cons round hsame (ih h')

theorem singleton (round : Round σ) : Linked round.handlers [round] round.outcome.1 :=
  .cons round rfl (.nil rfl)

end Linked

/-! What handlers send in their parts. -/

/-- What a watch sends when its flag has a value. -/
def FlagWatch.news (w : FlagWatch) (id : EntityId) (value : Bool) : List Notice :=
  if w.lastValue = some value then [] else [.flagChanged id w.flag value]

theorem FlagWatch.evaluate_takes (w : FlagWatch) (actor : LiveActor) (location : Location)
    (now : Instant) (host : Host σ) :
    let value := (consult (actor.toIdentity.isAllowed location w.flag) host).1
    let out := w.evaluate actor location now host
    out.1.flag = w.flag ∧ out.1.lastValue = some value ∧
      out.2.notices = host.notices ++ w.news actor.id value := by
  intro value out
  have hout : out = (if w.lastValue = some value then pure w else do
      notify [.flagChanged actor.id w.flag value]
      return { w with lastValue := some value, lastChange := some now } : HostM σ FlagWatch)
        (consult (actor.toIdentity.isAllowed location w.flag) host).2 := rfl
  unfold news
  split at hout <;> rw [hout]
  next hlast =>
    rw [if_pos hlast]
    exact ⟨rfl, hlast, (List.append_nil _).symm⟩
  next hlast =>
    rw [if_neg hlast]
    exact ⟨rfl, rfl, rfl⟩

theorem Handler.eq_of_watch? {h : Handler} {w : FlagWatch} (hh : h.watch? = some w) :
    h = .watch w := by
  cases h with
  | watch w' => exact congrArg Handler.watch (Option.some.inj hh)
  | entryExit => cases hh
  | host rule memory => cases hh

/-- Whatever a rule asks, it tells the host nothing but words. -/
theorem Dialogue.hold_remarks {α : Type} (d : Dialogue α) (host : Host σ) :
    ∃ words : List String, (d.hold host).2.notices = host.notices ++ words.map .remark := by
  induction d generalizing host with
  | done outcome => exact ⟨[], (List.append_nil _).symm⟩
  | remark text rest ih =>
    obtain ⟨words, hwords⟩ := ih (notify [.remark text] host).2
    exact ⟨text :: words, hwords.trans (List.append_cons _ _ _).symm⟩
  | lookUp location resume ih => exact ih _ _
  | inquire location flag subject resume ih => exact ih _ _
  | environment location flag resume ih => exact ih _ _

/-- Handlers that watch no flag send remarks at most. -/
theorem Handler.attend_remarks (occasion : Occasion) (now : Instant) {h : Handler}
    (hh : h.watch? = none) (host : Host σ) :
    ∃ words : List String,
      (h.attend occasion now host).2.notices = host.notices ++ words.map .remark := by
  cases h with
  | entryExit =>
    refine ⟨[], ?_⟩
    rw [List.map_nil, List.append_nil]
    cases occasion <;> rfl
  | watch w => cases hh
  | host rule memory => cases occasion <;> exact Dialogue.hold_remarks _ host

namespace Part

/-- A watch evaluates its flag, remembers the value, and sends it where it is new. -/
theorem after_watch {p : Part σ} {w : FlagWatch} (h : p.handler = .watch w) :
    let value := p.verdict w.flag
    ∃ w', p.after.1 = .watch w' ∧ w'.flag = w.flag ∧ w'.lastValue = some value ∧
      p.after.2.notices = p.host.notices ++ w.news p.occasion.actor.id value := by
  obtain ⟨occasion, now, handler, host⟩ := p
  cases h
  have hattend : (⟨occasion, now, .watch w, host⟩ : Part σ).after =
      let out := w.evaluate occasion.actor occasion.location now host
      (.watch out.1, out.2) := by cases occasion <;> rfl
  rw [hattend]
  obtain ⟨hflag, hlast, hnotices⟩ :=
    w.evaluate_takes occasion.actor occasion.location now host
  exact ⟨_, rfl, hflag, hlast, hnotices⟩

theorem sent_eq {p : Part σ} {more : List Notice}
    (h : p.after.2.notices = p.host.notices ++ more) : p.sent = more := by
  rw [sent, h, List.drop_left]

/-- Only watches send changes of flags, and they send nothing else. -/
theorem after_notices (p : Part σ) :
    p.after.2.notices = p.host.notices ++ p.sent ∧
      p.sent.filter (·.isReport) = if p.handler.watch?.isSome then p.sent else [] := by
  cases hp : p.handler.watch? with
  | some w =>
    obtain ⟨-, -, -, -, hnotices⟩ := after_watch (Handler.eq_of_watch? hp)
    rw [sent_eq hnotices]
    refine ⟨hnotices, ?_⟩
    unfold FlagWatch.news
    split <;> rfl
  | none =>
    obtain ⟨words, hnotices⟩ := Handler.attend_remarks p.occasion p.moment hp p.host
    rw [sent_eq hnotices]
    exact ⟨hnotices, by simp [Notice.isReport]⟩

end Part

theorem mapM_attend (occasion : Occasion) (now : Instant) (handlers : List Handler)
    (host : Host σ) :
    let out := handlers.mapM (·.attend occasion now) host
    let parts := partsOf occasion now handlers host
    out.1 = parts.map (·.after.1) ∧ out.2.notices = host.notices ++ parts.flatMap (·.sent) := by
  induction handlers generalizing host with
  | nil => exact ⟨rfl, (List.append_nil _).symm⟩
  | cons h handlers ih =>
    let first : Part σ := ⟨occasion, now, h, host⟩
    obtain ⟨hvalue, hnotices⟩ := ih first.after.2
    rw [List.mapM_cons]
    refine ⟨congrArg (first.after.1 :: ·) hvalue, ?_⟩
    rw [partsOf, List.flatMap_cons, ← List.append_assoc, ← first.after_notices.1]
    exact hnotices

namespace Round

theorem outcome_handlers (round : Round σ) :
    round.outcome.1 = round.parts.map (·.after.1) :=
  (mapM_attend round.occasion round.moment round.handlers round.host).1

theorem outcome_reports (round : Round σ) :
    round.outcome.2.reports = round.host.reports ++ round.reports := by
  have hnotices := (mapM_attend round.occasion round.moment round.handlers round.host).2
  have hreports (parts : List (Part σ)) : (parts.flatMap (·.sent)).filter (·.isReport) =
      (parts.filter (·.handler.watch?.isSome)).flatMap (·.sent) := by
    induction parts with
    | nil => rfl
    | cons p parts ih =>
      rw [List.flatMap_cons, List.filter_append, p.after_notices.2, ih, List.filter_cons]
      split <;> rfl
  rw [Host.reports, Host.reports, reports, ← hreports, ← List.filter_append]
  exact congrArg (List.filter _) hnotices

end Round
end
end RegionAccess
