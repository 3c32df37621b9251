import RegionAccess.Proofs.Computation
import RegionAccess.Session

/-! What judging a move comes to. The branches of a judgement are gone through here once. Whatever
is said of its outcome elsewhere is said of the outcomes here, given what the lookups and the
handlers of the session yield. -/
namespace RegionAccess
open RegionIndex

namespace Session
variable {σ : Type} [RegionIndex σ] {Q : Option Location × Session → Prop} {kind : MoveKind}

theorem takeRegions_eq (s : Session) (found : Except IndexError RegionSet) :
    s.takeRegions found = { s with
      regions := found.toOption.getD ∅, regionsKnown := found.toOption.isSome } := by
  cases found <;> rfl

theorem moveUnseen_fst (s : Session) (source target : Location) (kind : MoveKind) :
    (s.moveUnseen source target kind).1 = if kind.isRefusable then some source else none := by
  unfold moveUnseen
  split <;> rfl

/-- A crossing is refused where some handler objects to a refusable move, and accepted else. Being
asked is not without effect on the handlers. -/
theorem judgeCrossing_rule (s : Session) (actor : LiveActor) (source target : Location)
    (here there : RegionSet) (now : Instant) {Asked : Bool × List Handler → Prop}
    {Crossed : List Handler → Prop}
    (hask : Yields (allPermit ⟨actor, source, target, here, there, kind⟩ s.handlers :
      HostM σ _) Asked)
    (hcross : ∀ asked, Asked asked →
      Yields (asked.2.mapM (·.cross ⟨actor, source, target, here, there, kind⟩ now) : HostM σ _)
        Crossed)
    (refused : ∀ handlers, Asked (false, handlers) → kind.isRefusable = true →
      Q (some source, { s with handlers }))
    (accepted : ∀ asked handlers, Asked asked → (kind.isRefusable = true → asked.1 = true) →
      Crossed handlers →
      Q (none, { s with lastValid := some target, regions := there, handlers })) :
    Yields (s.judgeCrossing actor source target here there kind now : HostM σ _) Q := by
  refine Yields.bind hask fun ⟨permitted, asked⟩ hasked => ?_
  dsimp only
  split
  next hno =>
    obtain ⟨hno, hk⟩ := Bool.and_eq_true_iff.mp hno
    rw [Bool.not_eq_true'] at hno
    exact Yields.pure (refused asked (hno ▸ hasked) hk)
  next hyes =>
    refine Yields.bind (hcross _ hasked) fun handlers hhandlers => Yields.pure ?_
    refine accepted _ handlers hasked (fun hk => ?_) hhandlers
    simpa [hk] using hyes

/-- A move is accepted within its block and where there is no position to judge it from. Out of the
block it is a crossing, or is judged unseen where the regions at one end are not found. -/
theorem judgeMove_rule (s : Session) (actor : LiveActor) (target : Location) (now : Instant)
    {Here : Location → Except IndexError RegionSet → Prop}
    {There : Except IndexError RegionSet → Prop}
    (hhere : ∀ source, s.lastValid = some source →
      Yields (s.sourceRegions source : StateM σ _) (Here source))
    (hthere : Yields (overlapping target : StateM σ _) There)
    (unplaced : s.lastValid = none → Q (none, { s with lastValid := some target }))
    (stays : ∀ source, s.lastValid = some source → source.leavesBlock target = false →
      Q (none, { s with lastValid := some target }))
    (lost : ∀ source e, s.lastValid = some source → source.leavesBlock target = true →
      Here source (.error e) → Q (s.moveUnseen source target kind))
    (blind : ∀ source here e, s.lastValid = some source → source.leavesBlock target = true →
      Here source (.ok here) → There (.error e) →
      Q ((s.learnRegions here).moveUnseen source target kind))
    (crosses : ∀ source here there, s.lastValid = some source → source.leavesBlock target = true →
      Here source (.ok here) → There (.ok there) →
      Yields ((s.learnRegions here).judgeCrossing actor source target here there kind now :
        HostM σ _) Q) :
    Yields (s.judgeMove actor target kind now : HostM σ _) Q := by
  unfold judgeMove
  split
  next hl => exact Yields.pure (unplaced hl)
  next source hl =>
    split
    next hsame =>
      rw [Bool.not_eq_true'] at hsame
      exact Yields.pure (stays source hl hsame)
    next hleaves =>
      rw [Bool.not_eq_true', Bool.not_eq_false] at hleaves
      refine Yields.bind (Yields.consult (hhere source hl)) fun found hfound => ?_
      cases found with
      | error e => exact Yields.pure (lost source e hl hleaves hfound)
      | ok here =>
        refine Yields.bind (Yields.consult hthere) fun found hfound' => ?_
        cases found with
        | error e => exact Yields.pure (blind source here e hl hleaves hfound hfound')
        | ok there => exact crosses source here there hl hleaves hfound hfound'

end Session
end RegionAccess
