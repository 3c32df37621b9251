import RegionAccess.Proofs.Session.Judging
import RegionAccess.Proofs.Session.Runs

/-! An active session has a position, so that no move of its actor goes unjudged for want of one. -/
namespace RegionAccess

def Session.Placed (s : Session) : Prop :=
  s.phase = .active → ∃ position, s.lastValid = some position

/-- Where the next move of an actor is judged from: the last valid position of an active session,
and where the actor is when their session has yet to start. -/
def Registry.judgedFrom (r : Registry) (actor : LiveActor) : Location :=
  match r.session? actor.id with
  | some s => if s.phase = .active then s.lastValid.getD actor.location else actor.location
  | none => actor.location

/-- What it takes to refuse a move, and where that sends the actor. -/
structure Registry.Refuses (r : Registry) (actor : LiveActor) (target : Location) (kind : MoveKind)
    (back : Location) : Prop where
  checked : r.hasBypass actor.toIdentity target.world = false
  refusable : kind.isRefusable = true
  crossing : back.leavesBlock target = true
  source : back = r.judgedFrom actor

/-- The actor has a session, and its last valid position is the given one. -/
def Registry.IsAt (r : Registry) (id : EntityId) (position : Location) : Prop :=
  ∃ s, r.session? id = some s ∧ s.lastValid = some position

/-- What judging a move may come to: the verdict, and the session afterwards. -/
inductive Session.Judged (s : Session) (target : Location) (kind : MoveKind) :
    Option Location × Session → Prop where
  | accepted (regions : RegionSet) (regionsKnown : Bool) (handlers : List Handler) :
      Judged s target kind
        (none, { s with lastValid := some target, regions, regionsKnown, handlers })
  | refused {source : Location} (regions : RegionSet) (regionsKnown : Bool)
      (handlers : List Handler) :
      s.lastValid = some source → source.leavesBlock target = true → kind.isRefusable = true →
      Judged s target kind (some source, { s with regions, regionsKnown, handlers })

section
variable {σ : Type} [RegionIndex σ]

theorem Session.anchor_placed (s : Session) (actor : LiveActor) (now : Instant) :
    Yields (s.anchor actor now : HostM σ Session) fun s' =>
      s'.lastValid = some actor.location :=
  Yields.bind Yields.any fun _ _ => Yields.bind Yields.any fun _ _ => Yields.pure rfl

/-- A judged move is accepted at its target, or sends a refusable crossing back to where it
started. -/
theorem Session.judgeMove_judged (s : Session) (actor : LiveActor) (target : Location)
    (kind : MoveKind) (now : Instant) :
    Yields (s.judgeMove actor target kind now : HostM σ _) (s.Judged target kind) := by
  have hunseen (regions : RegionSet) (regionsKnown : Bool) (source : Location)
      (hl : s.lastValid = some source) (hcross : source.leavesBlock target = true) :
      s.Judged target kind
        (({ s with regions, regionsKnown } : Session).moveUnseen source target kind) := by
    unfold moveUnseen
    split
    next hk => exact .refused _ _ _ hl hcross hk
    next => exact .accepted _ _ _
  refine s.judgeMove_rule actor target now (fun _ _ => Yields.any) Yields.any
    (fun _ => .accepted _ _ _) (fun _ _ _ => .accepted _ _ _) ?_ ?_ ?_
  · intro source e hl hcross _
    exact hunseen s.regions s.regionsKnown source hl hcross
  · intro source here e hl hcross _ _
    exact hunseen here true source hl hcross
  · intro source here there hl hcross _ _
    exact judgeCrossing_rule _ actor source target here there now Yields.any
      (fun _ _ => Yields.any) (fun handlers _ hk => .refused _ _ handlers hl hcross hk)
      fun _ handlers _ _ _ => .accepted _ _ handlers

/-- Judging leaves a position behind: an accepted move its target, a refused one its source. -/
theorem Session.judgeMove_placed (s : Session) (actor : LiveActor) (target : Location)
    (kind : MoveKind) (now : Instant) :
    Yields (s.judgeMove actor target kind now : HostM σ _) fun out =>
      out.2.lastValid = some (out.1.getD target) := by
  refine (s.judgeMove_judged actor target kind now).mono fun out h => ?_
  cases h with
  | accepted => rfl
  | refused _ _ _ hl => exact hl

/-- Checked or not, an actor is at the target of an accepted move, and where a refused one sends
them back to. -/
theorem Registry.judgeMove_isAt (r : Registry) (actor : LiveActor) (target : Location)
    (kind : MoveKind) (now : Instant) :
    Yields (r.judgeMove actor target kind now : HostM σ _) fun out =>
      out.2.IsAt actor.id (out.1.getD target) := by
  have hstore (s : Session) : (r.store actor.id s).session? actor.id = some s := by
    rw [session?_store, if_pos rfl]
  unfold judgeMove
  split
  next => exact Yields.pure ⟨_, hstore _, rfl⟩
  next =>
    refine Yields.bind Yields.any fun s _ => ?_
    refine Yields.bind (s.judgeMove_placed actor target kind now) fun out hout => Yields.pure ?_
    exact ⟨out.2, hstore out.2, hout⟩

theorem sessionInvariant_placed (σ : Type) [RegionIndex σ] (admits : Blueprint → Prop) :
    SessionInvariant σ admits fun _ s => s.Placed where
  of_fresh _ _ _ _ _ h := by cases h
  of_anchor s actor now _ := (s.anchor_placed actor now).mono fun _ h _ => ⟨_, h⟩
  of_judgeMove s actor target kind now _ _ :=
    (s.judgeMove_placed actor target kind now).mono fun _ h _ => ⟨_, h⟩
  of_tick s actor name now hs := Yields.bind Yields.any fun _ _ => Yields.pure hs
  of_movedBlindly _ _ _ _ _ := ⟨_, rfl⟩
  of_bypassOff _ _ _ hs := hs

/-- Started if need be, the session is where the next move is judged from. -/
theorem Registry.ensureActive_judgedFrom {admits : Blueprint → Prop} {r : Registry}
    (hr : r.Holds admits fun _ s => s.Placed) (actor : LiveActor) (now : Instant) :
    Yields ((r.sessionOf actor.id now).ensureActive actor now : HostM σ Session) fun s =>
      s.lastValid = some (r.judgedFrom actor) := by
  unfold Registry.sessionOf Registry.judgedFrom Session.ensureActive
  cases hs : r.session? actor.id with
  | none => exact Session.anchor_placed _ actor now
  | some s =>
    simp only [Option.getD_some]
    split
    next ha =>
      obtain ⟨position, hp⟩ := hr.sessions _ s hs ha
      exact Yields.pure (by rw [hp, Option.getD_some])
    next => exact s.anchor_placed actor now

/-- Nothing is refused but a checked, refusable move out of its block. -/
theorem Registry.judgeMove_refuses {admits : Blueprint → Prop} {r : Registry}
    (hr : r.Holds admits fun _ s => s.Placed) (actor : LiveActor) (target : Location)
    (kind : MoveKind) (now : Instant) :
    Yields (r.judgeMove actor target kind now : HostM σ _) fun out =>
      ∀ back, out.1 = some back → r.Refuses actor target kind back := by
  unfold judgeMove
  split
  next => exact Yields.pure nofun
  next hb =>
    refine Yields.bind (ensureActive_judgedFrom hr actor now) fun s hs => ?_
    refine Yields.bind (s.judgeMove_judged actor target kind now) fun out hout => Yields.pure ?_
    intro back hback
    cases hout with
    | accepted => cases hback
    | refused _ _ _ hsource hcross hk =>
      obtain rfl := Option.some.inj hback
      exact ⟨by simpa using hb, hk, hcross, Option.some.inj (hsource.symm.trans hs)⟩

end
end RegionAccess
