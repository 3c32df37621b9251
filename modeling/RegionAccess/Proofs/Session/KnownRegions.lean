import RegionAccess.Proofs.Index.Tables
import RegionAccess.Proofs.Session.Judging
import RegionAccess.Proofs.Session.Runs

/-! The regions a session knows are those at its last valid position, and it keeps none that it does
not know. Position, regions and whether they are known are written separately, and a failed lookup
may strike in between; what is kept is that the three agree. -/
namespace RegionAccess
open RegionIndex

/-- The regions are those at the last valid position where they are known, and none elsewhere. -/
structure Session.Current (regionsAt : Block → RegionSet) (s : Session) : Prop where
  known : s.regionsKnown = true →
    ∃ position, s.lastValid = some position ∧ s.regions = regionsAt position.block
  unknown : s.regionsKnown = false → s.regions = ∅

namespace Session.Current
variable {regionsAt : Block → RegionSet} {s : Session}

theorem of_unknown (h : s.regionsKnown = false) (hr : s.regions = ∅) : s.Current regionsAt where
  known hk := absurd (h.symm.trans hk) Bool.false_ne_true
  unknown _ := hr

theorem of_known {position : Location} (h : s.regionsKnown = true)
    (hl : s.lastValid = some position) (hr : s.regions = regionsAt position.block) :
    s.Current regionsAt where
  known _ := ⟨position, hl, hr⟩
  unknown hk := absurd (hk.symm.trans h) Bool.false_ne_true

/-- Within its block cell the position may change alone. -/
theorem moved (hs : s.Current regionsAt) {source target : Location}
    (hl : s.lastValid = some source) (hb : source.block = target.block) :
    ({ s with lastValid := some target } : Session).Current regionsAt where
  known hk := by
    obtain ⟨position, hp, hr⟩ := hs.known hk
    obtain rfl := Option.some.inj (hl.symm.trans hp)
    exact ⟨target, rfl, hb ▸ hr⟩
  unknown := hs.unknown

/-- Without a position nothing is known, so nothing is known at the first one either. -/
theorem placed (hs : s.Current regionsAt) (hl : s.lastValid = none) (target : Location) :
    ({ s with lastValid := some target } : Session).Current regionsAt where
  known hk := by
    obtain ⟨position, hp, -⟩ := hs.known hk
    rw [hl] at hp
    cases hp
  unknown := hs.unknown

theorem moveUnseen (hs : s.Current regionsAt) (source target : Location) (kind : MoveKind) :
    (s.moveUnseen source target kind).2.Current regionsAt := by
  unfold Session.moveUnseen
  split
  · exact hs
  · exact of_unknown rfl rfl

end Session.Current

namespace SteadyIndex
variable {σ : Type} [RegionIndex σ] (truth : SteadyIndex σ) {s : Session}

/-- Known or looked up, the regions at the source are those there. -/
theorem yields_sourceRegions (hs : s.Current truth.regionsAt) {source : Location}
    (hl : s.lastValid = some source) :
    Yields (s.sourceRegions source : StateM σ _) fun found =>
      ∀ regions, found = .ok regions → regions = truth.regionsAt source.block := by
  unfold Session.sourceRegions
  split
  next hk =>
    apply Yields.pure
    intro regions h
    obtain ⟨position, hp, hr⟩ := hs.known hk
    obtain rfl := Option.some.inj (hl.symm.trans hp)
    exact (Except.ok.inj h).symm.trans hr
  next => exact truth.yields_overlapping source

theorem anchor_current (s : Session) (actor : LiveActor) (now : Instant) :
    Yields (s.anchor actor now : HostM σ Session) fun s => s.Current truth.regionsAt := by
  refine Yields.bind (Yields.consult (truth.yields_overlapping actor.location)) ?_
  intro found hf
  refine Yields.bind Yields.any fun handlers _ => Yields.pure ?_
  cases found with
  | error e => exact Session.Current.of_unknown rfl rfl
  | ok regions => exact Session.Current.of_known rfl rfl (hf regions rfl)

/-- The regions at the source are known by then, so those at the target are taken for known. -/
theorem judgeCrossing_current (hs : s.Current truth.regionsAt) (hk : s.regionsKnown = true)
    (actor : LiveActor) (source target : Location) (here : RegionSet) (kind : MoveKind)
    (now : Instant) :
    Yields (s.judgeCrossing actor source target here (truth.regionsAt target.block) kind now :
      HostM σ _) fun out => out.2.Current truth.regionsAt :=
  s.judgeCrossing_rule actor source target here _ now Yields.any (fun _ _ => Yields.any)
    (fun _ _ _ => ⟨hs.known, hs.unknown⟩)
    fun _ _ _ _ _ => Session.Current.of_known hk rfl rfl

theorem judgeMove_current (hs : s.Current truth.regionsAt) (actor : LiveActor)
    (target : Location) (kind : MoveKind) (now : Instant) :
    Yields (s.judgeMove actor target kind now : HostM σ _) fun out =>
      out.2.Current truth.regionsAt := by
  have hfound {source : Location} {here : RegionSet} (hl : s.lastValid = some source)
      (hhere : ∀ regions, .ok here = (.ok regions : Except IndexError RegionSet) →
        regions = truth.regionsAt source.block) :
      (s.learnRegions here).Current truth.regionsAt :=
    Session.Current.of_known rfl hl (hhere here rfl)
  refine s.judgeMove_rule actor target now (fun source hl => truth.yields_sourceRegions hs hl)
    (truth.yields_overlapping target) ?_ ?_ ?_ ?_ ?_
  · intro hl
    exact hs.placed hl target
  · intro source hl hsame
    exact hs.moved hl (Location.leavesBlock_eq_false_iff.mp hsame)
  · intro source e _ _ _
    exact hs.moveUnseen source target kind
  · intro source here e hl _ hhere _
    exact (hfound hl hhere).moveUnseen source target kind
  · intro source here there hl _ hhere hthere
    obtain rfl := hthere there rfl
    exact truth.judgeCrossing_current (hfound hl hhere) rfl actor source target here kind now

theorem sessionInvariant_current (admits : Blueprint → Prop) :
    SessionInvariant σ admits fun _ s => s.Current truth.regionsAt where
  of_fresh _ _ _ _ _ := Session.Current.of_unknown rfl rfl
  of_anchor s actor now _ := truth.anchor_current s actor now
  of_judgeMove _ actor target kind now _ hs := truth.judgeMove_current hs actor target kind now
  of_tick s actor name now hs := by
    refine Yields.bind Yields.any fun handlers _ => Yields.pure ?_
    exact ⟨hs.known, hs.unknown⟩
  of_movedBlindly _ _ _ _ := Session.Current.of_unknown rfl rfl
  of_bypassOff _ _ _ hs := ⟨hs.known, hs.unknown⟩

/-- Whatever operations led here and whichever lookups failed on the way, a session that knows
regions knows those at its last valid position, and one that knows none keeps none. -/
theorem known_regions_are_current {r : Registry} (hr : r.Reachable σ fun _ => True)
    {id : EntityId} {s : Session} (hs : r.session? id = some s) :
    (s.regionsKnown = true → ∃ position, s.lastValid = some position ∧
      s.regions = truth.regionsAt position.block) ∧
    (s.regionsKnown = false → s.regions = ∅) := by
  have hcurrent : s.Current truth.regionsAt :=
    ((truth.sessionInvariant_current _).reachable hr trivial).sessions id s hs
  exact ⟨hcurrent.known, hcurrent.unknown⟩

end SteadyIndex

/-- A session that started during an outage knows its regions after a first step towards the town,
and one in town that starts over during an outage knows them no more. -/
theorem known_regions_are_current_near_town :
    let entered := (({} : Registry).perform (.enter Town.visitor ⟨0⟩) (Town.hostAfter 0)).1
    let known := (entered.perform (.judgeMove Town.visitor (Town.place 9) .walk ⟨1⟩)
      (Town.hostAfter 1)).1
    let guest : LiveActor := { Town.visitor with id := ⟨⟨9⟩⟩, location := Town.place 12 }
    let inTown := (known.perform (.enter guest ⟨2⟩) (Town.hostAfter 1)).1
    let lost := (inTown.perform (.resync [⟨guest, ⟨3⟩⟩]) (Town.hostAfter 0)).1
    lost.Reachable (Served Town.tables) (fun _ => True) ∧
    (∃ s, lost.session? Town.visitor.id = some s ∧ s.regionsKnown = true ∧
      ∃ position, s.lastValid = some position ∧
        s.regions = Town.tables.steady.regionsAt position.block) ∧
    (∃ s, inTown.session? guest.id = some s ∧ Town.region.id ∈ s.regions) ∧
    ∃ s, lost.session? guest.id = some s ∧ s.regionsKnown = false ∧ s.regions = ∅ := by
  intro entered known guest inTown lost
  have hr : lost.Reachable (Served Town.tables) fun _ => True :=
    .step _ _ (.step _ _ (.step _ _ (.step _ _ (.empty {} {}))))
  have hvisitor : (lost.session? Town.visitor.id).any (·.regionsKnown) = true := by decide +kernel
  obtain ⟨s, hs, hknown⟩ := (Option.any_eq_true _ _).mp hvisitor
  have hbefore : (inTown.session? guest.id).any (Town.region.id ∈ ·.regions) = true := by
    decide +kernel
  obtain ⟨t, ht, hregion⟩ := (Option.any_eq_true _ _).mp hbefore
  have hguest : (lost.session? guest.id).any (!·.regionsKnown) = true := by decide +kernel
  obtain ⟨g, hg, hunknown⟩ := (Option.any_eq_true _ _).mp hguest
  replace hunknown : g.regionsKnown = false := by simpa using hunknown
  exact ⟨hr, ⟨s, hs, hknown, (Town.tables.steady.known_regions_are_current hr hs).1 hknown⟩,
    ⟨t, ht, of_decide_eq_true hregion⟩,
    g, hg, hunknown, (Town.tables.steady.known_regions_are_current hr hg).2 hunknown⟩

end RegionAccess
