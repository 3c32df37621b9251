import RegionAccess.Proofs.Index.Calls

/-! Indexes whose answers follow a rule: those that answer alike whenever they answer, and those
that give every question one fixed answer, failures included. -/
namespace RegionAccess
open RegionIndex

/-- Where denial is the verdict on a failure, only an explicit allow permits. -/
theorem Flag.verdict_eq_true_iff {f : Flag} (hf : f.category.failVerdict = false)
    {answer : Answer} : f.verdict answer = true ↔ answer = .ok (some .allow) := by
  cases answer with
  | error e => simp [verdict, hf]
  | ok value => simp [verdict]

instance (answer : Answer) (value : Option Ruling) : Decidable (answer = .ok value) :=
  match answer with
  | .ok found => decidable_of_iff (found = value) ⟨congrArg Except.ok, Except.ok.inj⟩
  | .error _ => isFalse fun h => nomatch h

theorem Flag.verdict_eq_decide {f : Flag} (hf : f.category.failVerdict = false) (answer : Answer) :
    f.verdict answer = decide (answer = .ok (some .allow)) := by
  rw [Bool.eq_iff_iff, verdict_eq_true_iff hf, decide_eq_true_iff]

/-- Successful answers never change and depend on a location only through its block cell. Any call
may fail. -/
structure SteadyIndex (σ : Type) [RegionIndex σ] where
  regionsAt : Block → RegionSet
  ruling : Block → Flag → (List ProtectedRegion → Standing) → Option Ruling
  overlapping_ok : ∀ location (s : σ) regions,
    (overlapping location s).1 = .ok regions → regions = regionsAt location.block
  inquire_ok : ∀ location flag (i : Identity) (s : σ) value,
    ((inquire location flag s).conduct (.player i)).1.1 = .ok value →
      value = ruling location.block flag i.standing

namespace SteadyIndex
variable {σ : Type} [RegionIndex σ] (truth : SteadyIndex σ)

/-- Recording an index changes none of its answers. -/
def recorded : SteadyIndex (Recorded σ) where
  regionsAt := truth.regionsAt
  ruling := truth.ruling
  overlapping_ok location r regions h := truth.overlapping_ok location r.index regions h
  inquire_ok location flag i r value h := by
    obtain ⟨asked, hr⟩ :=
      (inquire location flag r.index).conduct_recorded location flag (.player i) r.calls
    apply truth.inquire_ok location flag i r.index value
    exact (congrArg (fun out => out.1.1) hr).symm.trans h

theorem yields_overlapping (location : Location) :
    Yields (overlapping location : StateM σ _) fun found =>
      ∀ regions, found = .ok regions → regions = truth.regionsAt location.block :=
  fun s regions h => truth.overlapping_ok location s regions h

theorem finds_overlapping (location : Location) :
    Finds (overlapping location : StateM (Recorded σ) _) (truth.regionsAt location.block) := by
  refine ⟨fun r => ?_, (Mirrors.overlapping location).extended⟩
  cases hf : (overlapping location r.index).1 with
  | ok regions =>
    rw [← truth.overlapping_ok location r.index regions hf]
    exact .inl hf
  | error e =>
    refine .inr ⟨e, hf, .overlapping location (.error e), ?_, rfl⟩
    rw [← hf]
    exact List.mem_append_right _ List.mem_cons_self

/-- A flag whose failures deny is checked by its ruling, and an answer of allow is needed. -/
theorem decides_isAllowed (i : Identity) (location : Location) (flag : Flag)
    (hf : flag.category.failVerdict = false) :
    Decides (i.isAllowed location flag : StateM (Recorded σ) Bool) (· = true)
      (truth.ruling location.block flag i.standing = some .allow)
      (· = .inquiry location flag (.ok (some .allow))) := by
  have hanswer (r : Recorded σ) (h : (i.isAllowed location flag r).1 = true) :
      ((inquire location flag r).conduct (.player i)).1.1 = .ok (some .allow) :=
    (Flag.verdict_eq_true_iff hf).mp h
  refine ⟨fun r h => ?_, fun r h c hc => ?_, fun r h => ?_,
    (Mirrors.isAllowed i location flag).extended⟩
  · exact (truth.recorded.inquire_ok location flag i r _ (hanswer r h)).symm
  · rw [hc, ← hanswer r h]
    exact mem_calls_inquire location flag (.player i) r
  · cases ha : ((inquire location flag r).conduct (.player i)).1.1 with
    | ok value =>
      refine .inl ((Flag.verdict_eq_true_iff hf).mpr ?_)
      rw [ha, truth.recorded.inquire_ok location flag i r value ha]
      exact congrArg Except.ok h
    | error e =>
      refine .inr ⟨.inquiry location flag (.error e), ?_, rfl⟩
      rw [← ha]
      exact mem_calls_inquire location flag (.player i) r

end SteadyIndex

/-- Whom a subject answers as, given what lookups find. -/
def Subject.judgement (found : Location → Except IndexError RegionSet) :
    Subject → List ProtectedRegion → Standing
  | .player i => i.standing
  | .offline i => i.toIdentity.standing
  | .deferred p => OverlapProbe.standingIn (p.found?.getD (found p.location).toOption)
  | .constant s => fun _ => s

/-- Where lookups are fixed, subjects stand as they are judged, and being asked changes nothing. -/
theorem Subject.standing_judgement {σ : Type} [RegionIndex σ]
    {found : Location → Except IndexError RegionSet}
    (h : ∀ location (s : σ), (overlapping location s).1 = found location) (subject : Subject)
    (regions : List ProtectedRegion) (s : σ) :
    (subject.standing regions s).1.1 = subject.judgement found regions ∧
      (subject.standing regions s).1.2.judgement found = subject.judgement found := by
  cases subject with
  | player i => exact ⟨rfl, rfl⟩
  | offline i => exact ⟨rfl, rfl⟩
  | constant s => exact ⟨rfl, rfl⟩
  | deferred p =>
    obtain ⟨location, _ | known⟩ := p
    · have hfound : (overlapping location s).1.toOption = (found location).toOption := by rw [h]
      exact ⟨congrArg (OverlapProbe.standingIn · regions) hfound,
        congrArg OverlapProbe.standingIn hfound⟩
    · exact ⟨rfl, rfl⟩

/-- Every question has its one answer, which may be a failure, in all states of the index. -/
structure FixedAnswers (σ : Type) [RegionIndex σ] where
  found : Location → Except IndexError RegionSet
  answer : Location → Flag → (List ProtectedRegion → Standing) → Answer
  ambient : Location → Flag → Answer
  overlapping_eq : ∀ location (s : σ), (overlapping location s).1 = found location
  inquire_eq : ∀ location flag (subject : Subject) (s : σ),
    ((inquire location flag s).conduct subject).1.1 =
      answer location flag (subject.judgement found)
  environment_eq : ∀ location flag (s : σ), (environment location flag s).1 = ambient location flag

namespace FixedAnswers
variable {σ : Type} [RegionIndex σ] (fixed : FixedAnswers σ)

theorem judgement_conduct (subject : Subject) (inquiry : Inquiry σ) :
    (inquiry.conduct subject).1.2.judgement fixed.found = subject.judgement fixed.found := by
  induction inquiry generalizing subject with
  | answer result after => rfl
  | ask regions before resume ih =>
    rw [Inquiry.conduct_ask, ih]
    exact (subject.standing_judgement fixed.overlapping_eq regions before).2

/-- The flag is allowed there, by an explicit answer. -/
def passes (flag : Flag) (location : Location) : Bool :=
  decide (fixed.ambient location flag = .ok (some .allow))

/-- The subject is allowed to build there, by an explicit answer. -/
def mayBuild (subject : Subject) (location : Location) : Bool :=
  decide (fixed.answer location .build (subject.judgement fixed.found) = .ok (some .allow))

/-- A subject that was asked is judged as before. -/
theorem allows_build (location : Location) (subject : Subject) (s : σ) :
    (allows location .build subject s).1.1 = fixed.mayBuild subject location ∧
      (allows location .build subject s).1.2.judgement fixed.found =
        subject.judgement fixed.found := by
  constructor
  · rw [mayBuild, ← Flag.verdict_eq_decide (f := .build) rfl, ← fixed.inquire_eq _ _ _ s]
    rfl
  · exact fixed.judgement_conduct subject (inquire location .build s)

theorem yields_environmentAllows {flag : Flag} (hf : flag.category.failVerdict = false)
    (location : Location) :
    Yields (environmentAllows flag location : StateM σ Bool) (· = fixed.passes flag location) := by
  intro s
  rw [passes, ← Flag.verdict_eq_decide hf, ← fixed.environment_eq location flag s]
  rfl

end FixedAnswers
end RegionAccess
