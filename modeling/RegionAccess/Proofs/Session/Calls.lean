import RegionAccess.Proofs.Index.Calls
import RegionAccess.Proofs.Session.Runs

/-! Work on sessions with a recorded index: it does what it does with the index itself. -/
namespace RegionAccess
variable {σ : Type} [RegionIndex σ]

namespace Mirrors

theorem evaluate (w : FlagWatch) (actor : LiveActor) (location : Location) (now : Instant) :
    Mirrors (w.evaluate actor location now : HostM (Recorded σ) _)
      (w.evaluate actor location now : HostM σ _) := by
  apply (consult (isAllowed actor.toIdentity location w.flag)).bind
  intro value
  exact ite (Mirrors.pure _) ((notify _).bind fun _ => Mirrors.pure _)

theorem hold {α : Type} (d : Dialogue α) :
    Mirrors (d.hold : HostM (Recorded σ) _) (d.hold : HostM σ _) := by
  induction d with
  | done outcome => exact Mirrors.pure outcome
  | remark text rest ih => exact (notify _).bind fun _ => ih
  | lookUp location resume ih => exact (consult (overlapping location)).bind ih
  | inquire location flag subject resume ih =>
    have hanswer := (inquire (σ := σ) location flag subject).bind fun out => Mirrors.pure out.1
    exact (consult hanswer).bind ih
  | environment location flag resume ih => exact (consult (environment location flag)).bind ih

theorem start (actor : LiveActor) (location : Location) (now : Instant) (h : Handler) :
    Mirrors (h.start actor location now : HostM (Recorded σ) _)
      (h.start actor location now : HostM σ _) := by
  cases h with
  | entryExit => exact Mirrors.pure _
  | watch w => exact (evaluate w actor location now).bind fun w => Mirrors.pure _
  | host rule memory => exact (hold _).bind fun _ => Mirrors.pure _

theorem cross (m : Move) (now : Instant) (h : Handler) :
    Mirrors (h.cross m now : HostM (Recorded σ) _) (h.cross m now : HostM σ _) := by
  cases h with
  | entryExit => exact Mirrors.pure _
  | watch w => exact (evaluate w m.actor m.target now).bind fun w => Mirrors.pure _
  | host rule memory => exact (hold _).bind fun _ => Mirrors.pure _

theorem passesEntryExit (m : Move) :
    Mirrors (m.passesEntryExit : StateM (Recorded σ) _) (m.passesEntryExit : StateM σ _) := by
  have hexit : Mirrors
      (if !m.exited.isEmpty then
        (m.actor.toIdentity.isAllowed m.source .exit : StateM (Recorded σ) _) >>= fun allowed =>
          if !allowed then pure false else pure true
      else pure true)
      (if !m.exited.isEmpty then
        (m.actor.toIdentity.isAllowed m.source .exit : StateM σ _) >>= fun allowed =>
          if !allowed then pure false else pure true
      else pure true) :=
    ite ((isAllowed _ _ _).bind fun _ => ite (Mirrors.pure _) (Mirrors.pure _)) (Mirrors.pure _)
  exact ite ((isAllowed _ _ _).bind fun _ => ite (Mirrors.pure _) hexit) hexit

theorem permits (m : Move) (h : Handler) :
    Mirrors (h.permits m : HostM (Recorded σ) _) (h.permits m : HostM σ _) := by
  cases h with
  | entryExit => exact (consult (passesEntryExit m)).bind fun _ => Mirrors.pure _
  | watch w => exact Mirrors.pure _
  | host rule memory => exact (hold _).bind fun _ => Mirrors.pure _

theorem allPermit (m : Move) (hs : List Handler) :
    Mirrors (RegionAccess.allPermit m hs : HostM (Recorded σ) _)
      (RegionAccess.allPermit m hs : HostM σ _) := by
  induction hs with
  | nil => exact Mirrors.pure _
  | cons h hs ih =>
    exact (permits m h).bind fun _ => ite (ih.bind fun _ => Mirrors.pure _) (Mirrors.pure _)

theorem anchor (s : Session) (actor : LiveActor) (now : Instant) :
    Mirrors (s.anchor actor now : HostM (Recorded σ) _) (s.anchor actor now : HostM σ _) := by
  apply (consult (overlapping actor.location)).bind
  intro found
  exact (mapM (start actor actor.location now) s.handlers).bind fun _ => Mirrors.pure _

theorem ensureActive (s : Session) (actor : LiveActor) (now : Instant) :
    Mirrors (s.ensureActive actor now : HostM (Recorded σ) _)
      (s.ensureActive actor now : HostM σ _) :=
  ite (Mirrors.pure s) (anchor s actor now)

theorem sourceRegions (s : Session) (source : Location) :
    Mirrors (s.sourceRegions source : StateM (Recorded σ) _)
      (s.sourceRegions source : StateM σ _) :=
  ite (Mirrors.pure _) (overlapping source)

theorem judgeCrossing (s : Session) (actor : LiveActor) (source target : Location)
    (here there : RegionSet) (kind : MoveKind) (now : Instant) :
    Mirrors (s.judgeCrossing actor source target here there kind now : HostM (Recorded σ) _)
      (s.judgeCrossing actor source target here there kind now : HostM σ _) := by
  refine (allPermit _ s.handlers).bind fun asked => ite (Mirrors.pure _) ?_
  exact (mapM (cross _ now) asked.2).bind fun _ => Mirrors.pure _

theorem sessionMove (s : Session) (actor : LiveActor) (target : Location) (kind : MoveKind)
    (now : Instant) :
    Mirrors (s.judgeMove actor target kind now : HostM (Recorded σ) _)
      (s.judgeMove actor target kind now : HostM σ _) := by
  unfold Session.judgeMove
  cases s.lastValid with
  | none => exact Mirrors.pure _
  | some source =>
    refine ite (Mirrors.pure _) ((consult (sourceRegions s source)).bind fun found => ?_)
    cases found with
    | error e => exact Mirrors.pure _
    | ok here =>
      apply (consult (overlapping target)).bind
      intro found
      cases found with
      | error e => exact Mirrors.pure _
      | ok there => exact judgeCrossing _ actor source target here there kind now

theorem judgeMove (r : Registry) (actor : LiveActor) (target : Location) (kind : MoveKind)
    (now : Instant) :
    Mirrors (r.judgeMove actor target kind now : HostM (Recorded σ) _)
      (r.judgeMove actor target kind now : HostM σ _) := by
  refine ite (Mirrors.pure _) ((ensureActive _ actor now).bind fun s => ?_)
  exact (sessionMove s actor target kind now).bind fun _ => Mirrors.pure _

theorem resyncActor (r : Registry) (actor : LiveActor) (now : Instant) :
    Mirrors (r.resyncActor actor now : HostM (Recorded σ) _)
      (r.resyncActor actor now : HostM σ _) := by
  refine ite (Mirrors.pure _) ?_
  cases r.session? actor.id with
  | none => exact Mirrors.pure _
  | some s => exact (anchor s actor now).bind fun _ => Mirrors.pure _

theorem resync (r : Registry) (turns : List Turn) :
    Mirrors (r.resync turns : HostM (Recorded σ) _) (r.resync turns : HostM σ _) := by
  apply foldlM
  intro r turn
  exact resyncActor r turn.actor turn.moment

theorem tickHandler (actor : LiveActor) (now : Instant) (h : Handler) :
    Mirrors (h.tick actor now : HostM (Recorded σ) _) (h.tick actor now : HostM σ _) := by
  cases h with
  | entryExit => exact Mirrors.pure _
  | watch w => exact (evaluate w actor actor.location now).bind fun w => Mirrors.pure _
  | host rule memory => exact (hold _).bind fun _ => Mirrors.pure _

theorem sessionTick (s : Session) (actor : LiveActor) (name : Option String) (now : Instant) :
    Mirrors (s.tick actor name now : HostM (Recorded σ) _) (s.tick actor name now : HostM σ _) :=
  (mapM (tickHandler actor now) s.handlers).bind fun _ => Mirrors.pure _

theorem tickActor (r : Registry) (actor : LiveActor) (now : Instant) :
    Mirrors (r.tickActor actor now : HostM (Recorded σ) _)
      (r.tickActor actor now : HostM σ _) := by
  refine ite (Mirrors.pure _) ((ensureActive _ actor now).bind fun s => ?_)
  exact (sessionTick s actor _ now).bind fun _ => Mirrors.pure _

theorem judgeRiders (m : VehicleMove) (riders : List Turn) (r : Registry) :
    Mirrors (r.judgeRiders m riders : HostM (Recorded σ) _)
      (r.judgeRiders m riders : HostM σ _) := by
  induction riders generalizing r with
  | nil => exact Mirrors.pure _
  | cons turn riders ih =>
    apply (judgeMove r turn.actor m.target .ride turn.moment).bind
    intro ⟨back, r'⟩
    cases back with
    | none => exact ih r'
    | some back => exact Mirrors.pure _

theorem judgeVehicle (r : Registry) (m : VehicleMove) (riders : List Turn) :
    Mirrors (r.judgeVehicle m riders : HostM (Recorded σ) _)
      (r.judgeVehicle m riders : HostM σ _) :=
  ite (judgeRiders m riders r) (Mirrors.pure _)

theorem perform (r : Registry) (operation : Operation) :
    Mirrors (r.perform operation : HostM (Recorded σ) _) (r.perform operation : HostM σ _) := by
  cases operation with
  | enter actor now => exact (anchor _ actor now).bind fun _ => Mirrors.pure _
  | tick actors now => exact foldlM (fun r actor => tickActor r actor now) actors r
  | resync turns => exact resync r turns
  | judgeMove actor target kind now =>
    exact (judgeMove r actor target kind now).bind fun _ => Mirrors.pure _
  | judgeVehicle move riders => exact (judgeVehicle r move riders).bind fun _ => Mirrors.pure _
  | setBypassOff actor off => exact Mirrors.pure _
  | remove actor => exact Mirrors.pure _
  | expire now => exact Mirrors.pure _

end Mirrors
end RegionAccess
