import RegionAccess.Proofs.Session.Boundary
import RegionAccess.Proofs.Session.Frames

/-! An accepted position is where the next move of the actor is judged from, whatever happens to
others meanwhile. Only a session that is under way remembers it: one that a bypassed move began
has a position, but starts over where the actor is before anything is judged. -/
namespace RegionAccess
open RegionIndex

/-- The session of the actor is under way, and the given position is its last valid one. -/
def Registry.StandsAt (r : Registry) (id : EntityId) (position : Location) : Prop :=
  ∃ s, r.session? id = some s ∧ s.phase = .active ∧ s.lastValid = some position

/-- The session of the actor is under way. -/
def Registry.IsActive (r : Registry) (id : EntityId) : Prop :=
  ∃ s, r.session? id = some s ∧ s.phase = .active

/-- The operation does not judge a move of the actor, nor start their session over, nor drop it. -/
def Operation.Spares (r : Registry) (id : EntityId) : Operation → Prop
  | .tick _ _ | .setBypassOff _ _ => True
  | operation => ¬ operation.Touches r id

/-- The second registry comes of the first by operations that spare an actor. In between, handlers
are registered, and the host may change its index. -/
inductive Registry.Undisturbed (σ : Type) [RegionIndex σ] (id : EntityId) (r : Registry) :
    Registry → Prop where
  | refl : Undisturbed σ id r r
  | register {r' : Registry} (blueprint : Blueprint) :
      Undisturbed σ id r r' → Undisturbed σ id r (r'.register blueprint)
  | step {r' : Registry} (operation : Operation) (host : Host σ) :
      Undisturbed σ id r r' → operation.Spares r' id →
      Undisturbed σ id r (r'.perform operation host).1

section
variable {σ : Type} [RegionIndex σ]

theorem Session.ensureActive_active (s : Session) (actor : LiveActor) (now : Instant) :
    Yields (s.ensureActive actor now : HostM σ Session) fun s => s.phase = .active := by
  unfold ensureActive
  split
  next h => exact Yields.pure h
  next => exact Yields.bind Yields.any fun _ _ => Yields.bind Yields.any fun _ _ => Yields.pure rfl

namespace Registry
variable {r r' : Registry} {id : EntityId} {position : Location}

theorem Undisturbed.reachable (h : r.Undisturbed σ id r') (hr : r.Reachable σ fun _ => True) :
    r'.Reachable σ fun _ => True := by
  induction h with
  | refl => exact hr
  | register blueprint _ ih => exact ih.register blueprint trivial
  | step operation host _ _ ih => exact ih.step operation host

/-- Where a session is under way, an accepted move leaves it under way at the target, and so does
any accepted move that was judged. -/
theorem judgeMove_standsAt (r : Registry) (actor : LiveActor) (target : Location) (kind : MoveKind)
    (now : Instant) (h : r.hasBypass actor.toIdentity target.world = true → r.IsActive actor.id) :
    Yields (r.judgeMove actor target kind now : HostM σ _) fun out =>
      out.1 = none → out.2.StandsAt actor.id target := by
  have hstore (s : Session) (ha : s.phase = .active) (hl : s.lastValid = some target) :
      (r.store actor.id s).StandsAt actor.id target :=
    ⟨s, by rw [session?_store, if_pos rfl], ha, hl⟩
  unfold judgeMove
  split
  next hb =>
    obtain ⟨s, hs, ha⟩ := h hb
    refine Yields.pure fun _ => hstore _ ?_ rfl
    rw [sessionOf, hs]
    exact ha
  next =>
    refine Yields.bind (Session.ensureActive_active _ actor now) fun s ha => ?_
    refine Yields.bind (s.judgeMove_judged actor target kind now) fun out hout => ?_
    cases hout with
    | accepted => exact Yields.pure fun _ => hstore _ ha rfl
    | refused => exact Yields.pure fun hnone => absurd hnone (Option.some_ne_none _)

/-- A bypassed move does not get a session under way, so the next move is not judged from there. -/
theorem judgedFrom_of_bypassed (actor : LiveActor) (target : Location)
    (kind : MoveKind) (now : Instant) (hb : r.hasBypass actor.toIdentity target.world = true)
    (h : ¬ r.IsActive actor.id) {later : LiveActor} (hid : later.id = actor.id) :
    Yields (r.judgeMove actor target kind now : HostM σ _) fun out =>
      out.2.judgedFrom later = later.location := by
  have hphase : (r.sessionOf actor.id now).phase ≠ .active := by
    unfold sessionOf
    cases hs : r.session? actor.id with
    | none => exact Phase.noConfusion
    | some s => exact fun ha => h ⟨s, hs, ha⟩
  unfold judgeMove
  rw [if_pos hb]
  apply Yields.pure
  rw [judgedFrom, hid, session?_store, if_pos rfl]
  exact if_neg hphase

namespace StandsAt

theorem judgedFrom {actor : LiveActor} (h : r.StandsAt actor.id position) :
    r.judgedFrom actor = position := by
  obtain ⟨s, hs, ha, hl⟩ := h
  simp only [Registry.judgedFrom, hs, ha, hl, if_true, Option.getD_some]

theorem of_agrees {touched : EntityId → Prop} (h : r.StandsAt id position)
    (hagrees : r.AgreesOutside touched r') (hid : ¬ touched id) : r'.StandsAt id position := by
  obtain ⟨s, hs, hstands⟩ := h
  exact ⟨s, (hagrees.sessions id hid).trans hs, hstands⟩

theorem ensureActive (h : r.StandsAt id position) (actor : LiveActor) (now : Instant) :
    Yields ((r.sessionOf id now).ensureActive actor now : HostM σ Session) fun s =>
      s.phase = .active ∧ s.lastValid = some position := by
  obtain ⟨s, hs, ha, hl⟩ := h
  simp only [sessionOf, hs, Option.getD_some, Session.ensureActive, ha, if_true]
  exact Yields.pure ⟨ha, hl⟩

theorem tickActor (h : r.StandsAt id position) (actor : LiveActor) (now : Instant) :
    Yields (r.tickActor actor now : HostM σ Registry) (·.StandsAt id position) := by
  by_cases hid : actor.id = id
  · subst hid
    unfold Registry.tickActor
    split
    next => exact Yields.pure h
    next =>
      refine Yields.bind (h.ensureActive actor now) fun s hs => ?_
      have htick : Yields (s.tick actor (r.profiles.name? actor.id) now : HostM σ Session) fun s =>
          s.phase = .active ∧ s.lastValid = some position :=
        Yields.bind Yields.any fun _ _ => Yields.pure hs
      refine Yields.bind htick fun s hs => Yields.pure ?_
      exact ⟨s, by rw [session?_store, if_pos rfl], hs⟩
  · refine (r.tickActor_agrees actor now).mono fun r' hagrees => ?_
    exact h.of_agrees hagrees fun htouched => hid htouched.2

theorem setBypassOff (h : r.StandsAt id position) (actor : EntityId) (off : Bool) :
    ((r.setBypassOff actor off).toOption.getD r).StandsAt id position := by
  obtain ⟨s, hs, ha, hl⟩ := h
  unfold Registry.setBypassOff
  cases ht : r.session? actor with
  | none => exact ⟨s, hs, ha, hl⟩
  | some t =>
    by_cases hid : actor = id
    · subst hid
      obtain rfl : s = t := Option.some.inj (hs.symm.trans ht)
      exact ⟨_, (session?_store r actor _ actor).trans (if_pos rfl), ha, hl⟩
    · exact ⟨s, ((session?_store r actor _ id).trans (if_neg hid)).trans hs, ha, hl⟩

/-- Operations that spare the actor leave them standing. -/
theorem perform (h : r.StandsAt id position) {operation : Operation}
    (hspares : operation.Spares r id) :
    Yields (r.perform operation : HostM σ Registry) (·.StandsAt id position) := by
  have hkept (huntouched : ¬ operation.Touches r id) :
      Yields (r.perform operation : HostM σ Registry) (·.StandsAt id position) :=
    (r.perform_agrees operation).mono fun r' hagrees => h.of_agrees hagrees huntouched
  cases operation with
  | tick actors now =>
    exact Yields.foldlM (fun r actor hr => hr.tickActor actor now) actors h
  | setBypassOff actor off => exact Yields.pure (h.setBypassOff actor off)
  | enter actor now => exact hkept hspares
  | resync turns => exact hkept hspares
  | judgeMove actor target kind now => exact hkept hspares
  | judgeVehicle move riders => exact hkept hspares
  | remove actor => exact hkept hspares
  | expire now => exact hkept hspares

theorem undisturbed (h : r.StandsAt id position) (hrun : r.Undisturbed σ id r') :
    r'.StandsAt id position := by
  induction hrun with
  | refl => exact h
  | register blueprint _ ih => exact ih
  | step operation host _ hspares ih => exact ih.perform hspares host

end StandsAt
end Registry
end

namespace SteadyIndex
variable {σ : Type} [RegionIndex σ] (truth : SteadyIndex σ)

/-- Whatever rules a host has besides, an accepted move passed the guard of entry and exit. -/
theorem yields_allPermit (m : Move) (hs : m.sourceRegions = truth.regionsAt m.source.block)
    (ht : m.targetRegions = truth.regionsAt m.target.block) (handlers : List Handler) :
    Yields (allPermit m handlers : HostM σ _) fun out => out.1 = true →
      .entryExit ∈ handlers → truth.MayCross m.actor.toIdentity m.source m.target := by
  induction handlers with
  | nil => exact Yields.pure fun _ hguard => absurd hguard List.not_mem_nil
  | cons h handlers ih =>
    have hfirst : Yields (h.permits m : HostM σ _) fun out => out.1 = true →
        h = .entryExit → truth.MayCross m.actor.toIdentity m.source m.target := by
      rintro host hpermits rfl
      have hvalue := (Mirrors.passesEntryExit m).value (host.recorded.index : Recorded σ)
      exact (truth.decides_passesEntryExit m hs ht).sound _ (hvalue.trans hpermits)
    refine Yields.bind hfirst fun ⟨permitted, h'⟩ hp => ?_
    dsimp only
    split
    next hyes =>
      refine Yields.bind ih fun others hothers => Yields.pure fun hall hguard => ?_
      rcases List.mem_cons.mp hguard with rfl | hguard
      · exact hp hyes rfl
      · exact hothers hall hguard
    next => exact Yields.pure fun hno => absurd hno Bool.false_ne_true

theorem yields_sessionMove {s : Session} {kind : MoveKind} (hguard : .entryExit ∈ s.handlers)
    (hcurrent : s.Current truth.regionsAt) (hk : kind.isRefusable = true) (actor : LiveActor)
    {source target : Location} (hl : s.lastValid = some source)
    (hcross : source.leavesBlock target = true) (now : Instant) :
    Yields (s.judgeMove actor target kind now : HostM σ _) fun out =>
      out.1 = none → truth.MayCross actor.toIdentity source target := by
  have hlost (s : Session) (position : Location) :
      (s.moveUnseen position target kind).1 ≠ none := by
    rw [Session.moveUnseen_fst, if_pos hk]
    exact Option.some_ne_none position
  refine s.judgeMove_rule actor target now
    (fun source hl => truth.yields_sourceRegions hcurrent hl) (truth.yields_overlapping target)
    ?_ ?_ ?_ ?_ ?_
  · intro hnone
    rw [hl] at hnone
    cases hnone
  · intro position hposition hsame
    obtain rfl := Option.some.inj (hl.symm.trans hposition)
    exact absurd (hcross.symm.trans hsame) Bool.true_eq_false.mp
  · intro position e _ _ _ hnone
    exact absurd hnone (hlost s position)
  · intro position here e _ _ _ _ hnone
    exact absurd hnone (hlost _ position)
  · intro position here there hposition _ hhere hthere
    obtain rfl := Option.some.inj (hl.symm.trans hposition)
    let m : Move := ⟨actor, source, target, here, there, kind⟩
    refine Session.judgeCrossing_rule _ actor source target here there now
      (truth.yields_allPermit m (hhere here rfl) (hthere there rfl) s.handlers)
      (fun _ _ => Yields.any) (fun _ _ _ hnone => absurd hnone (Option.some_ne_none source)) ?_
    intro permitted handlers hpermitted hyes _ _
    exact hpermitted (hyes hk) hguard

theorem yields_judgeMove {r : Registry} (hr : r.Reachable σ fun _ => True) {kind : MoveKind}
    (hk : kind.isRefusable = true) (actor : LiveActor) {target : Location}
    (hb : r.hasBypass actor.toIdentity target.world = false)
    (hcross : (r.judgedFrom actor).leavesBlock target = true) (now : Instant) :
    Yields (r.judgeMove actor target kind now : HostM σ _) fun out =>
      out.1 = none → truth.MayCross actor.toIdentity (r.judgedFrom actor) target := by
  have hplaced := (sessionInvariant_placed σ _).reachable hr trivial
  have hadmitted := (sessionInvariant_admitted σ _).reachable hr trivial
  have hcurrent := (truth.sessionInvariant_current _).reachable hr trivial
  simp only [Registry.judgeMove, hb, Bool.false_eq_true, if_false]
  refine Yields.bind (truth.yields_ready hplaced hadmitted hcurrent actor now) ?_
  rintro s ⟨hl, hs, hc⟩
  exact Yields.bind (truth.yields_sessionMove hs.entryExit_mem hc hk actor hl hcross now)
    fun out hout => Yields.pure hout

/-- An accepted position is where the next move of the actor is judged from, unless a bypass
accepted it before the session was under way: then the next move is judged from where the actor
is. -/
theorem accepted_position_judges_next_move {r : Registry} (hr : r.Reachable σ fun _ => True)
    (actor : LiveActor) (target : Location) (kind : MoveKind) (now : Instant) (host : Host σ)
    (haccepted : (r.judgeMove actor target kind now host).1.1 = none) {later : LiveActor}
    (hid : later.id = actor.id) :
    let moved := (r.judgeMove actor target kind now host).1.2
    ((r.hasBypass actor.toIdentity target.world = true → r.IsActive actor.id) →
      ∀ r', moved.Undisturbed σ actor.id r' → r'.judgedFrom later = target ∧
      ∀ (next : Location) (kind' : MoveKind) (now' : Instant) (host' : Host σ),
        let back := (r'.judgeMove later next kind' now' host').1.1
        (∀ position, back = some position → position = target) ∧
        (r'.hasBypass later.toIdentity next.world = false → kind'.isRefusable = true →
          (∃ region ∈ truth.regionsAt target.block, region ∉ truth.regionsAt next.block) →
          truth.ruling target.block .exit later.toIdentity.standing ≠ some .allow →
          back = some target)) ∧
    (r.hasBypass actor.toIdentity target.world = true → ¬ r.IsActive actor.id →
      moved.judgedFrom later = later.location) := by
  intro moved
  refine ⟨fun hactive r' hrun => ?_, fun hb hnone =>
    r.judgedFrom_of_bypassed actor target kind now hb hnone hid host⟩
  have hreachable : r'.Reachable σ fun _ => True :=
    hrun.reachable (hr.step (.judgeMove actor target kind now) host)
  have hstands : r'.StandsAt later.id target := by
    rw [hid]
    exact (r.judgeMove_standsAt actor target kind now hactive host haccepted).undisturbed hrun
  refine ⟨hstands.judgedFrom, fun next kind' now' host' => ?_⟩
  have hplaced := (sessionInvariant_placed σ _).reachable hreachable trivial
  have hback (position : Location)
      (h : (r'.judgeMove later next kind' now' host').1.1 = some position) : position = target :=
    (Registry.judgeMove_refuses hplaced later next kind' now' host' position h).source.trans
      hstands.judgedFrom
  refine ⟨hback, fun hb hk hleft hdenied => ?_⟩
  obtain ⟨region, hregion, hgone⟩ := hleft
  have hcross : target.leavesBlock next = true := by
    rw [Location.leavesBlock_eq_true_iff]
    intro hsame
    exact hgone (hsame ▸ hregion)
  rw [← hstands.judgedFrom] at hcross
  have hrefused : (r'.judgeMove later next kind' now' host').1.1 ≠ none := by
    intro hnone
    have hmay := truth.yields_judgeMove hreachable hk later hb hcross now' host' hnone
    rw [hstands.judgedFrom] at hmay
    exact hmay.exit.elim (fun hall => hgone (hall region hregion)) hdenied
  obtain ⟨position, hposition⟩ := Option.ne_none_iff_exists'.mp hrefused
  exact hposition.trans (congrArg some (hback position hposition))

end SteadyIndex

/-- A guest walks about the town they started in, and may not leave it. -/
theorem accepted_position_judges_next_move_in_town :
    let truth := Town.steadyTables.steady
    let host : Host (Served Town.steadyTables) := { index := {} }
    let guest : LiveActor := { Town.visitor with location := Town.place 12 }
    let r := (({} : Registry).perform (.enter guest ⟨0⟩) host).1
    let moved := (r.judgeMove guest (Town.place 20) .walk ⟨1⟩ host).1
    let r' := (moved.2.perform (.tick [guest] ⟨2⟩) host).1
    r.Reachable (Served Town.steadyTables) (fun _ => True) ∧ moved.1 = none ∧
    moved.2.Undisturbed (Served Town.steadyTables) guest.id r' ∧
    (r.hasBypass guest.toIdentity Town.world = true → r.IsActive guest.id) ∧
    r'.hasBypass guest.toIdentity Town.world = false ∧ MoveKind.walk.isRefusable = true ∧
    (∃ region ∈ truth.regionsAt (Town.place 20).block,
      region ∉ truth.regionsAt (Town.place 5).block) ∧
    truth.ruling (Town.place 20).block .exit guest.toIdentity.standing ≠ some .allow ∧
    (r'.judgeMove guest (Town.place 5) .walk ⟨3⟩ host).1.1 = some (Town.place 20) := by
  intro truth host guest r moved r'
  have hr : r.Reachable (Served Town.steadyTables) fun _ => True := .step _ _ (.empty {} {})
  have haccepted : moved.1 = none := by
    rw [← Option.isNone_iff_eq_none]
    decide +kernel
  have hrun : moved.2.Undisturbed (Served Town.steadyTables) guest.id r' := .step _ _ .refl trivial
  have hactive : r.hasBypass guest.toIdentity Town.world = true → r.IsActive guest.id :=
    fun hb => absurd hb (by decide)
  have hb : r'.hasBypass guest.toIdentity Town.world = false := by decide +kernel
  have hleft : ∃ region ∈ truth.regionsAt (Town.place 20).block,
      region ∉ truth.regionsAt (Town.place 5).block := ⟨Town.region.id, by decide, by decide⟩
  have hdenied : truth.ruling (Town.place 20).block .exit guest.toIdentity.standing ≠
      some .allow := by decide
  have hjudged := ((truth.accepted_position_judges_next_move hr guest (Town.place 20) .walk ⟨1⟩
    host haccepted rfl).1 hactive r' hrun).2 (Town.place 5) .walk ⟨3⟩ host
  exact ⟨hr, haccepted, hrun, hactive, hb, rfl, hleft, hdenied, hjudged.2 hb rfl hleft hdenied⟩

/-- Whom a bypass brought to town before their session was under way is let out of it again without
one. -/
theorem bypassed_position_is_passed_over_in_town :
    let truth := Town.steadyTables.steady
    let host : Host (Served Town.steadyTables) := { index := {} }
    let guest : LiveActor := { Town.visitor with permits := fun _ => true }
    let moved := (({} : Registry).judgeMove guest (Town.place 20) .teleport ⟨0⟩ host).1
    let r' := (moved.2.perform (.setBypassOff guest.id true) host).1
    ({} : Registry).Reachable (Served Town.steadyTables) (fun _ => True) ∧ moved.1 = none ∧
    moved.2.Undisturbed (Served Town.steadyTables) guest.id r' ∧
    r'.hasBypass guest.toIdentity Town.world = false ∧ MoveKind.walk.isRefusable = true ∧
    (∃ region ∈ truth.regionsAt (Town.place 20).block,
      region ∉ truth.regionsAt (Town.place 5).block) ∧
    truth.ruling (Town.place 20).block .exit guest.toIdentity.standing ≠ some .allow ∧
    (r'.judgeMove guest (Town.place 5) .walk ⟨1⟩ host).1.1 = none := by
  intro truth host guest moved r'
  refine ⟨.empty {} {}, rfl, .step _ _ .refl trivial, by decide, rfl,
    ⟨Town.region.id, by decide, by decide⟩, by decide, ?_⟩
  rw [← Option.isNone_iff_eq_none]
  decide

end RegionAccess
