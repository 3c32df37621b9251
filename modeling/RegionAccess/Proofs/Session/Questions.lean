import RegionAccess.Proofs.Index.Calls
import RegionAccess.Proofs.Session.Rounds

/-! Work on sessions does nothing to an index but ask: what every question to the index keeps, every
operation on a registry keeps. -/
namespace RegionAccess

/-- Whatever the index is asked, the predicate still holds of it. -/
structure KeptByAsking {σ : Type} [RegionIndex σ] (P : σ → Prop) : Prop where
  overlapping : ∀ location, Keeps P (RegionIndex.overlapping location : StateM σ _)
  inquire : ∀ location flag subject,
    Keeps P (RegionIndex.inquire location flag · |>.conduct subject : StateM σ _)
  environment : ∀ location flag, Keeps P (RegionIndex.environment location flag : StateM σ _)

namespace KeptByAsking
variable {σ : Type} [RegionIndex σ] {P : σ → Prop} (hP : KeptByAsking P)
include hP

theorem allows (location : Location) (flag : Flag) (subject : Subject) :
    Keeps P (RegionAccess.allows location flag subject : StateM σ _) :=
  (hP.inquire location flag subject).bind fun _ => Keeps.pure _

theorem environmentAllows (flag : Flag) (location : Location) :
    Keeps P (RegionAccess.environmentAllows flag location : StateM σ _) :=
  (hP.environment location flag).bind fun _ => Keeps.pure _

theorem isAllowed (i : Identity) (location : Location) (flag : Flag) :
    Keeps P (i.isAllowed location flag : StateM σ _) :=
  (hP.allows location flag (.player i)).bind fun out => Keeps.pure out.1

theorem evaluate (w : FlagWatch) (actor : LiveActor) (location : Location) (now : Instant) :
    Keeps (P ·.index) (w.evaluate actor location now : HostM σ _) := by
  apply (hP.isAllowed actor.toIdentity location w.flag).consult.bind
  intro value
  exact Keeps.ite (Keeps.pure _) ((Keeps.notify _).bind fun _ => Keeps.pure _)

theorem hold {α : Type} (d : Dialogue α) : Keeps (P ·.index) (d.hold : HostM σ α) := by
  induction d with
  | done outcome => exact Keeps.pure outcome
  | remark text rest ih => exact (Keeps.notify _).bind fun _ => ih
  | lookUp location resume ih => exact (hP.overlapping location).consult.bind ih
  | inquire location flag subject resume ih =>
    exact ((hP.inquire location flag subject).bind fun _ => Keeps.pure _).consult.bind ih
  | environment location flag resume ih => exact (hP.environment location flag).consult.bind ih

theorem attend (occasion : Occasion) (now : Instant) (h : Handler) :
    Keeps (P ·.index) (h.attend occasion now : HostM σ _) := by
  cases h with
  | entryExit => cases occasion <;> exact Keeps.pure _
  | watch w => cases occasion <;> exact (hP.evaluate w _ _ now).bind fun w => Keeps.pure _
  | host rule memory => cases occasion <;> exact (hP.hold _).bind fun _ => Keeps.pure _

theorem passesEntryExit (m : Move) : Keeps P (m.passesEntryExit : StateM σ _) := by
  have hexit : Keeps P
      (if !m.exited.isEmpty then
        (m.actor.toIdentity.isAllowed m.source .exit : StateM σ _) >>= fun allowed =>
          if !allowed then pure false else pure true
      else pure true) :=
    Keeps.ite
      ((hP.isAllowed _ _ _).bind fun _ => Keeps.ite (Keeps.pure _) (Keeps.pure _)) (Keeps.pure _)
  exact Keeps.ite ((hP.isAllowed _ _ _).bind fun _ => Keeps.ite (Keeps.pure _) hexit) hexit

theorem permits (m : Move) (h : Handler) : Keeps (P ·.index) (h.permits m : HostM σ _) := by
  cases h with
  | entryExit => exact (hP.passesEntryExit m).consult.bind fun _ => Keeps.pure _
  | watch w => exact Keeps.pure _
  | host rule memory => exact (hP.hold _).bind fun _ => Keeps.pure _

theorem allPermit (m : Move) (hs : List Handler) :
    Keeps (P ·.index) (RegionAccess.allPermit m hs : HostM σ _) := by
  induction hs with
  | nil => exact Keeps.pure _
  | cons h hs ih =>
    exact (hP.permits m h).bind fun _ => Keeps.ite (ih.bind fun _ => Keeps.pure _) (Keeps.pure _)

theorem anchor (s : Session) (actor : LiveActor) (now : Instant) :
    Keeps (P ·.index) (s.anchor actor now : HostM σ _) := by
  apply (hP.overlapping actor.location).consult.bind
  intro found
  exact (Keeps.mapM fun h _ => hP.attend (.start actor) now h).bind fun _ => Keeps.pure _

theorem ensureActive (s : Session) (actor : LiveActor) (now : Instant) :
    Keeps (P ·.index) (s.ensureActive actor now : HostM σ _) :=
  Keeps.ite (Keeps.pure s) (hP.anchor s actor now)

theorem sourceRegions (s : Session) (source : Location) :
    Keeps P (s.sourceRegions source : StateM σ _) :=
  Keeps.ite (Keeps.pure _) (hP.overlapping source)

theorem judgeCrossing (s : Session) (actor : LiveActor) (source target : Location)
    (here there : RegionSet) (kind : MoveKind) (now : Instant) :
    Keeps (P ·.index) (s.judgeCrossing actor source target here there kind now : HostM σ _) := by
  refine (hP.allPermit _ s.handlers).bind fun asked => Keeps.ite (Keeps.pure _) ?_
  exact (Keeps.mapM fun h _ => hP.attend (.cross _) now h).bind fun _ => Keeps.pure _

theorem sessionMove (s : Session) (actor : LiveActor) (target : Location) (kind : MoveKind)
    (now : Instant) : Keeps (P ·.index) (s.judgeMove actor target kind now : HostM σ _) := by
  unfold Session.judgeMove
  cases s.lastValid with
  | none => exact Keeps.pure _
  | some source =>
    refine Keeps.ite (Keeps.pure _) ((hP.sourceRegions s source).consult.bind fun found => ?_)
    cases found with
    | error e => exact Keeps.pure _
    | ok here =>
      apply (hP.overlapping target).consult.bind
      intro found
      cases found with
      | error e => exact Keeps.pure _
      | ok there => exact hP.judgeCrossing _ actor source target here there kind now

theorem sessionTick (s : Session) (actor : LiveActor) (name : Option String) (now : Instant) :
    Keeps (P ·.index) (s.tick actor name now : HostM σ _) :=
  (Keeps.mapM fun h _ => hP.attend (.tick actor) now h).bind fun _ => Keeps.pure _

theorem judgeMove (r : Registry) (actor : LiveActor) (target : Location) (kind : MoveKind)
    (now : Instant) : Keeps (P ·.index) (r.judgeMove actor target kind now : HostM σ _) := by
  refine Keeps.ite (Keeps.pure _) ((hP.ensureActive _ actor now).bind fun s => ?_)
  exact (hP.sessionMove s actor target kind now).bind fun _ => Keeps.pure _

theorem judgeRiders (m : VehicleMove) (riders : List Turn) (r : Registry) :
    Keeps (P ·.index) (r.judgeRiders m riders : HostM σ _) := by
  induction riders generalizing r with
  | nil => exact Keeps.pure _
  | cons turn riders ih =>
    apply (hP.judgeMove r turn.actor m.target .ride turn.moment).bind
    intro ⟨back, r'⟩
    cases back with
    | none => exact ih r'
    | some back => exact Keeps.pure _

theorem judgeVehicle (r : Registry) (m : VehicleMove) (riders : List Turn) :
    Keeps (P ·.index) (r.judgeVehicle m riders : HostM σ _) :=
  Keeps.ite (hP.judgeRiders m riders r) (Keeps.pure _)

theorem tickActor (r : Registry) (actor : LiveActor) (now : Instant) :
    Keeps (P ·.index) (r.tickActor actor now : HostM σ _) := by
  refine Keeps.ite (Keeps.pure _) ((hP.ensureActive _ actor now).bind fun s => ?_)
  exact (hP.sessionTick s actor _ now).bind fun _ => Keeps.pure _

theorem resyncActor (r : Registry) (actor : LiveActor) (now : Instant) :
    Keeps (P ·.index) (r.resyncActor actor now : HostM σ _) := by
  refine Keeps.ite (Keeps.pure _) ?_
  cases r.session? actor.id with
  | none => exact Keeps.pure _
  | some s => exact (hP.anchor s actor now).bind fun _ => Keeps.pure _

theorem perform (r : Registry) (operation : Operation) :
    Keeps (P ·.index) (r.perform operation : HostM σ _) := by
  cases operation with
  | enter actor now => exact (hP.anchor _ actor now).bind fun _ => Keeps.pure _
  | tick actors now => exact Keeps.foldlM (fun r actor => hP.tickActor r actor now) actors r
  | resync turns =>
    exact Keeps.foldlM (fun r turn => hP.resyncActor r turn.actor turn.moment) turns r
  | judgeMove actor target kind now =>
    exact (hP.judgeMove r actor target kind now).bind fun _ => Keeps.pure _
  | judgeVehicle move riders => exact (hP.judgeVehicle r move riders).bind fun _ => Keeps.pure _
  | setBypassOff actor off => exact Keeps.pure _
  | remove actor => exact Keeps.pure _
  | expire now => exact Keeps.pure _

end KeptByAsking

/-! A record tells whether the index was told to drop its cached answers. -/

def Call.isInvalidation : Call → Bool
  | .invalidation => true
  | .overlapping _ _ | .inquiry _ _ _ | .environment _ _ _ => false

/-- How often the index was told to drop its cached answers. -/
def Recorded.invalidations {σ : Type} (r : Recorded σ) : Nat := r.calls.countP (·.isInvalidation)

section
variable {σ : Type} [RegionIndex σ] (n : Nat)

theorem Subject.standing_keeps_invalidations (subject : Subject) (regions : List ProtectedRegion) :
    Keeps (·.invalidations = n) (subject.standing regions : StateM (Recorded σ) _) := by
  cases subject with
  | player i => exact Keeps.pure _
  | offline i => exact Keeps.pure _
  | constant s => exact Keeps.pure _
  | deferred p =>
    refine Keeps.bind ?_ fun out => Keeps.pure _
    unfold OverlapProbe.find
    split
    · exact Keeps.pure _
    · refine Keeps.bind (fun r hr => ?_) fun found => Keeps.pure _
      exact List.countP_append.trans hr

theorem Inquiry.conduct_keeps_invalidations (location : Location) (flag : Flag)
    (inquiry : Inquiry σ) (subject : Subject) {calls : List Call}
    (h : calls.countP (·.isInvalidation) = n) :
    ((inquiry.recorded location flag calls).conduct subject).2.invalidations = n := by
  induction inquiry generalizing subject calls with
  | answer result after => exact List.countP_append.trans h
  | ask regions before resume ih =>
    exact ih _ _ _ (subject.standing_keeps_invalidations n regions ⟨before, calls⟩ h)

/-- An invalidation is not a question. -/
theorem Recorded.invalidations_keptByAsking :
    KeptByAsking fun r : Recorded σ => r.invalidations = n where
  overlapping _ _ hr := List.countP_append.trans hr
  inquire location flag subject r hr :=
    Inquiry.conduct_keeps_invalidations n location flag
      (RegionIndex.inquire location flag r.index) subject hr
  environment _ _ _ hr := List.countP_append.trans hr

end
end RegionAccess
