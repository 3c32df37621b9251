import RegionAccess.Proofs.Index.Tables
import RegionAccess.Proofs.Session.Position
import RegionAccess.Proofs.Session.Verdict

/-! A vehicle is stopped exactly when some rider would be. Riders are judged one after the other on
a registry that each of them changes, yet each gets the verdict they would get alone, since nobody's
verdict depends on the session of another. -/
namespace RegionAccess
open RegionIndex

/-- A correction is for a rider whom the vehicle would take to another block than theirs. -/
structure VehicleMove.Corrects (m : VehicleMove) (rider : LiveActor) (back : Location)
    (correction : Option RiderCorrection) : Prop where
  isSome_iff : correction.isSome = true ↔ back.block ≠ m.source.block
  facing : ∀ c ∈ correction, c.actor = rider.id ∧
    c.target = { back with yaw := rider.location.yaw, pitch := rider.location.pitch }
  /-- Corrected or taken along, the rider ends in the block they are sent back to. -/
  returned : (correction.elim m.source (·.target)).block = back.block

/-- What is left behind when a vehicle is stopped at a rider: those asked before are at its target,
and those after were not asked. -/
structure VehicleMove.StoppedAt (m : VehicleMove) (r : Registry) (before : List Turn)
    (rider : LiveActor) (after : List Turn) (back : Location) (out : VehicleVerdict × Registry) :
    Prop where
  rejected : ∃ correction, out.1 = .rejected m.vehicle m.source correction ∧
    m.Corrects rider back correction
  advanced : ∀ t ∈ before, out.2.IsAt t.actor.id m.target
  kept : out.2.IsAt rider.id back
  untouched : ∀ t ∈ after, out.2.session? t.actor.id = r.session? t.actor.id

theorem VehicleMove.correction?_corrects (m : VehicleMove) (rider : LiveActor) (back : Location) :
    m.Corrects rider back (m.correction? rider back) := by
  unfold correction?
  split
  next h =>
    rw [Location.leavesBlock_eq_true_iff] at h
    exact ⟨by simp [h], by simp [Location.facing], rfl⟩
  next h =>
    rw [Bool.not_eq_true, Location.leavesBlock_eq_false_iff] at h
    exact ⟨by simp [h], by simp, h.symm⟩

theorem VehicleMove.StoppedAt.isRejected {m : VehicleMove} {r : Registry} {before after : List Turn}
    {rider : LiveActor} {back : Location} {out : VehicleVerdict × Registry}
    (h : m.StoppedAt r before rider after back out) : out.1.isRejected = true := by
  obtain ⟨correction, hout, -⟩ := h.rejected
  rw [hout]
  rfl

/-- Nobody among the other riders is the first one. -/
theorem Turn.ne_of_distinct {turn : Turn} {riders : List Turn}
    (hdistinct : ((turn :: riders).map (·.actor.id)).Nodup) {t : Turn} (ht : t ∈ riders) :
    turn.actor.id ≠ t.actor.id := fun hsame =>
  (List.nodup_cons.mp hdistinct).1 (List.mem_map.mpr ⟨t, ht, hsame.symm⟩)

section
variable {σ : Type} [RegionIndex σ] {r : Registry} {m : VehicleMove}

/-- Out of its block, in a world with regions, a vehicle moves as its riders may. -/
theorem Registry.judgeVehicle_eq (hworld : (r.worlds.policyOf m.source.world).useRegions = true)
    (hcross : m.source.leavesBlock m.target = true) (riders : List Turn) :
    (r.judgeVehicle m riders : HostM σ _) = r.judgeRiders m riders :=
  if_pos (by rw [hworld, hcross]; rfl)

namespace FixedAnswers
variable (fixed : FixedAnswers σ)

/-- A rider gets their verdict and is where it puts them; nobody else is touched. -/
theorem judgeRider (r : Registry) (m : VehicleMove) (rider : Turn) :
    Yields (r.judgeMove rider.actor m.target .ride rider.moment : HostM σ _) fun out =>
      out.1 = fixed.verdict r rider.actor m.target .ride ∧
      r.AgreesOutside (rider.actor.id = ·) out.2 ∧
      out.2.IsAt rider.actor.id (out.1.getD m.target) :=
  (fixed.yields_verdict r rider.actor m.target .ride rider.moment).and
    ((r.judgeMove_agrees rider.actor m.target .ride rider.moment).and
      (r.judgeMove_isAt rider.actor m.target .ride rider.moment))

theorem judgeRiders_allowed {riders : List Turn} (hdistinct : (riders.map (·.actor.id)).Nodup)
    (hnone : ∀ t ∈ riders, fixed.verdict r t.actor m.target .ride = none) :
    Yields (r.judgeRiders m riders : HostM σ _) fun out => out.1 = .allowed := by
  induction riders generalizing r with
  | nil => exact Yields.pure rfl
  | cons turn riders ih =>
    refine Yields.bind (fixed.judgeRider r m turn) ?_
    rintro ⟨verdict, r'⟩ ⟨hverdict, hagrees, -⟩
    obtain rfl : verdict = none := hverdict.trans (hnone turn List.mem_cons_self)
    refine ih (List.nodup_cons.mp hdistinct).2 fun t ht => ?_
    rw [fixed.verdict_eq hagrees (Turn.ne_of_distinct hdistinct ht)]
    exact hnone t (List.mem_cons_of_mem _ ht)

theorem judgeRiders_stopped {before after : List Turn} {rider : Turn} {back : Location}
    (hdistinct : ((before ++ rider :: after).map (·.actor.id)).Nodup)
    (hbefore : ∀ t ∈ before, fixed.verdict r t.actor m.target .ride = none)
    (hrider : fixed.verdict r rider.actor m.target .ride = some back) :
    Yields (r.judgeRiders m (before ++ rider :: after) : HostM σ _)
      (m.StoppedAt r before rider.actor after back) := by
  induction before generalizing r with
  | nil =>
    refine Yields.bind (fixed.judgeRider r m rider) ?_
    rintro ⟨verdict, r'⟩ ⟨hverdict, hagrees, hat⟩
    obtain rfl : verdict = some back := hverdict.trans hrider
    refine Yields.pure ⟨⟨_, rfl, m.correction?_corrects rider.actor back⟩, by simp, hat, ?_⟩
    exact fun t ht => hagrees.sessions _ (Turn.ne_of_distinct hdistinct ht)
  | cons turn before ih =>
    refine Yields.bind (fixed.judgeRider r m turn) ?_
    rintro ⟨verdict, r'⟩ ⟨hverdict, hagrees, s, hs, hl⟩
    obtain rfl : verdict = none := hverdict.trans (hbefore turn List.mem_cons_self)
    have hne {t : Turn} (ht : t ∈ before ++ rider :: after) : turn.actor.id ≠ t.actor.id :=
      Turn.ne_of_distinct hdistinct ht
    have hstopped := ih (r := r') (List.nodup_cons.mp hdistinct).2
      (fun t ht => by
        rw [fixed.verdict_eq hagrees (hne (List.mem_append_left _ ht))]
        exact hbefore t (List.mem_cons_of_mem _ ht))
      (by rwa [fixed.verdict_eq hagrees (hne (List.mem_append_right _ List.mem_cons_self))])
    refine (hstopped.and (r'.judgeRiders_agrees m _)).mono fun out ⟨hout, hrest⟩ => ?_
    refine ⟨hout.rejected, List.forall_mem_cons.mpr ⟨⟨s, ?_, hl⟩, hout.advanced⟩, hout.kept,
      fun t ht => ?_⟩
    · exact (hrest.sessions _ fun ⟨t, ht, hsame⟩ => hne ht hsame.symm).trans hs
    · exact (hout.untouched t ht).trans (hagrees.sessions _
        (hne (List.mem_append_right _ (List.mem_cons_of_mem _ ht))))

/-- On a crossing from a world with regions, riders are judged, and those verdicts decide. -/
theorem judgeVehicle_isRejected (hworld : (r.worlds.policyOf m.source.world).useRegions = true)
    (hcross : m.source.leavesBlock m.target = true) {riders : List Turn}
    (hdistinct : (riders.map (·.actor.id)).Nodup) :
    Yields (r.judgeVehicle m riders : HostM σ _) fun out => out.1.isRejected =
      (riders.map (·.actor)).any fun rider => (fixed.verdict r rider m.target .ride).isSome := by
  rw [Registry.judgeVehicle_eq hworld hcross]
  cases hfirst : riders.find? fun t => (fixed.verdict r t.actor m.target .ride).isSome with
  | none =>
    have hnone : ∀ t ∈ riders, fixed.verdict r t.actor m.target .ride = none := by
      simpa using hfirst
    refine (fixed.judgeRiders_allowed hdistinct hnone).mono fun out h => ?_
    rw [h, List.any_map, List.any_eq_false.mpr fun t ht => by simp [hnone t ht]]
    rfl
  | some rider =>
    obtain ⟨hrider, before, after, rfl, hbefore⟩ := List.find?_eq_some_iff_append.mp hfirst
    obtain ⟨back, hback⟩ := Option.isSome_iff_exists.mp hrider
    have hbefore : ∀ t ∈ before, fixed.verdict r t.actor m.target .ride = none := by
      simpa using hbefore
    refine (fixed.judgeRiders_stopped hdistinct hbefore hback).mono fun out h => ?_
    rw [h.isRejected, List.any_map, eq_comm, List.any_eq_true]
    exact ⟨rider, List.mem_append_right _ List.mem_cons_self, hrider⟩

include fixed in
/-- A vehicle that leaves its block is stopped exactly if some rider alone would be, in whatever
order they are asked, and then at the first of them who would. -/
theorem stopped_exactly_by_refused_rider
    (hworld : (r.worlds.policyOf m.source.world).useRegions = true)
    (hcross : m.source.leavesBlock m.target = true) {riders : List Turn}
    (hdistinct : (riders.map (·.actor.id)).Nodup) (host : Host σ) (moment : LiveActor → Instant)
    (alone : LiveActor → Host σ) :
    let lone (rider : LiveActor) :=
      (r.judgeMove rider m.target .ride (moment rider) (alone rider)).1.1
    let out := (r.judgeVehicle m riders host).1
    (out.1.isRejected = true ↔ ∃ t ∈ riders, lone t.actor ≠ none) ∧
    (∀ (others : List Turn) (host' : Host σ),
      (others.map (·.actor)).Perm (riders.map (·.actor)) →
      (r.judgeVehicle m others host').1.1.isRejected = out.1.isRejected) ∧
    ∀ before rider after back, riders = before ++ rider :: after →
      (∀ t ∈ before, lone t.actor = none) → lone rider.actor = some back →
      m.StoppedAt r before rider.actor after back out := by
  intro lone out
  have hlone (rider : LiveActor) : lone rider = fixed.verdict r rider m.target .ride :=
    fixed.yields_verdict r rider m.target .ride (moment rider) (alone rider)
  have hrejected := fixed.judgeVehicle_isRejected hworld hcross hdistinct host
  refine ⟨?_, fun others host' hperm => ?_, ?_⟩
  · simp only [out, hrejected, List.any_map, List.any_eq_true, hlone, Function.comp_apply,
      Option.isSome_iff_ne_none]
  · have hdistinct' : (others.map (·.actor.id)).Nodup := by
      have hids := (hperm.map (·.id)).nodup_iff
      simp only [List.map_map, Function.comp_def] at hids
      exact hids.mpr hdistinct
    rw [fixed.judgeVehicle_isRejected hworld hcross hdistinct' host', hperm.any_eq]
    exact hrejected.symm
  · rintro before rider after back rfl hbefore hrider
    rw [hlone] at hrider
    have hbefore : ∀ t ∈ before, fixed.verdict r t.actor m.target .ride = none :=
      fun t ht => (hlone t.actor).symm.trans (hbefore t ht)
    have hstopped := fixed.judgeRiders_stopped hdistinct hbefore hrider host
    rwa [← Registry.judgeVehicle_eq hworld hcross] at hstopped

end FixedAnswers
end

/-- A driver with a bypass takes a visitor and a guest to town: the visitor may not come in, and the
guest is not asked. -/
theorem stopped_exactly_by_refused_rider_at_town :
    let host : Host (Served Town.steadyTables) := { index := {} }
    let driver : LiveActor := { Town.visitor with id := ⟨⟨8⟩⟩, permits := fun _ => true }
    let guest : LiveActor := { Town.visitor with id := ⟨⟨9⟩⟩ }
    let r := (({} : Registry).perform (.enter guest ⟨0⟩) host).1
    let m : VehicleMove := { vehicle := ⟨⟨20⟩⟩, source := Town.place 9, target := Town.place 10 }
    let riders : List Turn := [⟨driver, ⟨1⟩⟩, ⟨Town.visitor, ⟨2⟩⟩, ⟨guest, ⟨3⟩⟩]
    (r.worlds.policyOf m.source.world).useRegions = true ∧ m.source.leavesBlock m.target = true ∧
    (riders.map (·.actor.id)).Nodup ∧
    (r.judgeMove driver m.target .ride ⟨1⟩ host).1.1 = none ∧
    (r.judgeMove Town.visitor m.target .ride ⟨1⟩ host).1.1 = some (Town.place 0) ∧
    m.StoppedAt r [⟨driver, ⟨1⟩⟩] Town.visitor [⟨guest, ⟨3⟩⟩] (Town.place 0)
      (r.judgeVehicle m riders host).1 := by
  intro host driver guest r m riders
  have hworld : (r.worlds.policyOf m.source.world).useRegions = true := rfl
  have hcross : m.source.leavesBlock m.target = true := by decide
  have hdistinct : (riders.map (·.actor.id)).Nodup := by decide
  have hdriver : (r.judgeMove driver m.target .ride ⟨1⟩ host).1.1 = none := rfl
  have hvisitor : (r.judgeMove Town.visitor m.target .ride ⟨1⟩ host).1.1 = some (Town.place 0) := by
    have hr : r.Reachable (Served Town.steadyTables) fun _ => True := .step _ _ (.empty {} {})
    have hrefused : (r.judgeMove Town.visitor m.target .ride ⟨1⟩ host).1.1.isSome = true := by
      decide +kernel
    obtain ⟨back, hback⟩ := Option.isSome_iff_exists.mp hrefused
    have hplaced := (sessionInvariant_placed _ _).reachable hr trivial
    rw [hback, (Registry.judgeMove_refuses hplaced Town.visitor m.target .ride ⟨1⟩ host back
      hback).source]
    rfl
  have hstopped := ((Town.steadyTables.fixed fun _ => rfl).stopped_exactly_by_refused_rider hworld
    hcross hdistinct host (fun _ => ⟨1⟩) fun _ => host).2.2
  refine ⟨hworld, hcross, hdistinct, hdriver, hvisitor, ?_⟩
  exact hstopped [⟨driver, ⟨1⟩⟩] ⟨Town.visitor, ⟨2⟩⟩ [⟨guest, ⟨3⟩⟩] (Town.place 0) rfl
    (by simpa using hdriver) hvisitor

end RegionAccess
