import RegionAccess.Proofs.Session.Moments
import RegionAccess.Proofs.Session.Refusal
import RegionAccess.Proofs.Session.Terms

/-! A move that is judged a second time. Where every question has its one answer it gets the same
verdict, and nothing happens: an accepted move no longer leaves its block, and a refused one runs
into the same failure or objection, over regions that are known by then. -/
namespace RegionAccess
open RegionIndex

/-- Judging a move changes nothing and comes to this verdict, in silence. -/
def Session.Repeats (σ : Type) [RegionIndex σ] (actor : LiveActor) (target : Location)
    (kind : MoveKind) (out : Option Location × Session) : Prop :=
  ∀ now, Settles (out.2.judgeMove actor target kind now : HostM σ _) out []

namespace Session
variable {σ : Type} [RegionIndex σ] {s : Session} {actor : LiveActor} {source target : Location}
  {kind : MoveKind}

/-- Where the session already is, the move goes nowhere. -/
theorem repeats_at_target (hl : s.lastValid = some target) :
    Repeats σ actor target kind (none, s) := by
  intro now
  have hsame : target.leavesBlock target = false := by simp
  have hs : { s with lastValid := some target } = s := by rw [← hl]
  simp only [judgeMove, hl, hsame, Bool.not_false, if_true, hs]
  exact .pure _

/-- A refused move whose source is still not found. -/
theorem repeats_lost {e : IndexError} (hl : s.lastValid = some source)
    (hcross : source.leavesBlock target = true) (hk : kind.isRefusable = true)
    (hhere : Yields (s.sourceRegions source : StateM σ _) (· = .error e)) :
    Repeats σ actor target kind (some source, s) := by
  intro now
  simp only [judgeMove, hl, hcross, Bool.not_true, Bool.false_eq_true, if_false]
  apply (Settles.consult hhere).bind
  simp only [moveUnseen, hk, if_true]
  exact .pure _

/-- A session that knows its regions looks up those at the target alone. -/
theorem judgeMove_of_known (hl : s.lastValid = some source)
    (hcross : source.leavesBlock target = true) (hknown : s.regionsKnown = true) (now : Instant) :
    (s.judgeMove actor target kind now : HostM σ _) =
      consult (overlapping target) >>= fun
        | .error _ => pure (s.moveUnseen source target kind)
        | .ok there => s.judgeCrossing actor source target s.regions there kind now := by
  obtain ⟨id, phase, lastValid, regions, known, handlers, createdAt, lastSeen, off, name⟩ := s
  cases hl
  cases hknown
  simp only [judgeMove, hcross, Bool.not_true, Bool.false_eq_true, if_false]
  rfl

/-- A refused move whose target is still not found. -/
theorem repeats_blind {e : IndexError} (hl : s.lastValid = some source)
    (hcross : source.leavesBlock target = true) (hk : kind.isRefusable = true)
    (hknown : s.regionsKnown = true)
    (hthere : Yields (overlapping target : StateM σ _) (· = .error e)) :
    Repeats σ actor target kind (some source, s) := by
  intro now
  rw [judgeMove_of_known hl hcross hknown]
  apply (Settles.consult hthere).bind
  simp only [moveUnseen, hk, if_true]
  exact .pure _

/-- A refused move that a handler still objects to. -/
theorem repeats_denied {there : RegionSet} (hl : s.lastValid = some source)
    (hcross : source.leavesBlock target = true) (hk : kind.isRefusable = true)
    (hknown : s.regionsKnown = true)
    (hthere : Yields (overlapping target : StateM σ _) (· = .ok there))
    (hdenied : Settles (allPermit ⟨actor, source, target, s.regions, there, kind⟩ s.handlers :
      HostM σ _) (false, s.handlers) []) :
    Repeats σ actor target kind (some source, s) := by
  intro now
  rw [judgeMove_of_known hl hcross hknown]
  apply (Settles.consult hthere).bind
  apply hdenied.bind
  simp only [hk, Bool.not_false, Bool.and_true, if_true]
  exact .pure _

end Session

namespace FixedAnswers
variable {σ : Type} [RegionIndex σ] (fixed : FixedAnswers σ)
include fixed

/-- The library's own rules settle on one verdict, without a word and without a trace. -/
theorem settles_allPermit (m : Move) {handlers : List Handler}
    (hb : ∀ h ∈ handlers, h.blueprint.isBuiltIn = true) :
    Settles (allPermit m handlers : HostM σ _)
      ((handlers.map (·.stance)).all (fixed.permits m), handlers) [] where
  value := ((fixed.yields_allPermit m handlers).and (allPermit_builtIn m hb)).mono
    fun _ h => Prod.ext h.1 h.2
  notices h := (allPermit_quiet m hb h trivial).trans (List.append_nil _).symm

theorem judgeMove_repeats {s : Session} (hb : ∀ h ∈ s.handlers, h.blueprint.isBuiltIn = true)
    (actor : LiveActor) (target : Location) (kind : MoveKind) (now : Instant) :
    Yields (s.judgeMove actor target kind now : HostM σ _)
      (Session.Repeats σ actor target kind) := by
  have hsource (source : Location) :
      Yields (s.sourceRegions source : StateM σ _) fun found =>
        Yields (s.sourceRegions source : StateM σ _) (· = found) := by
    obtain ⟨found, hfound⟩ := fixed.sourceRegions_settled s source
    exact hfound.mono fun found' h => h ▸ hfound
  refine s.judgeMove_rule actor target now (fun source _ => hsource source)
    (fixed.yields_overlapping target) ?_ ?_ ?_ ?_ ?_
  · exact fun _ => Session.repeats_at_target rfl
  · exact fun _ _ _ => Session.repeats_at_target rfl
  · intro source e hl hcross hhere
    unfold Session.moveUnseen
    split
    next hk => exact Session.repeats_lost hl hcross hk hhere
    next => exact Session.repeats_at_target rfl
  · intro source here e hl hcross _ hthere
    have hfails : Yields (overlapping target : StateM σ _) (· = .error e) :=
      hthere ▸ fixed.yields_overlapping target
    unfold Session.moveUnseen
    split
    next hk => exact Session.repeats_blind hl hcross hk rfl hfails
    next => exact Session.repeats_at_target rfl
  · intro source here there hl hcross _ hthere
    have hfound : Yields (overlapping target : StateM σ _) (· = .ok there) :=
      hthere ▸ fixed.yields_overlapping target
    have hpermits := fixed.settles_allPermit ⟨actor, source, target, here, there, kind⟩ hb
    refine Session.judgeCrossing_rule _ actor source target here there now hpermits.value
      (fun _ _ => Yields.any) (fun handlers hno hk => ?_)
      fun _ _ _ _ _ => Session.repeats_at_target rfl
    obtain rfl : handlers = s.handlers := congrArg Prod.snd hno
    exact Session.repeats_denied hl hcross hk rfl hfound (hno ▸ hpermits)

end FixedAnswers

namespace Registry
variable {σ : Type} [RegionIndex σ] {r : Registry} {actor : LiveActor} {target : Location}

/-- Storing the session that is there already changes nothing. -/
theorem store_of_session {id : EntityId} {s : Session} (h : r.session? id = some s) :
    r.store id s = r := by
  have hsessions : r.sessions.insert id s = r.sessions := by
    refine Std.ExtTreeMap.ext_getElem? fun other => ?_
    rw [Std.ExtTreeMap.getElem?_insert]
    split
    next hother =>
      rw [← Std.LawfulEqCmp.eq_of_compare hother]
      exact h.symm
    next => rfl
  rw [store, hsessions]

/-- Who has a bypass is where they go. -/
theorem judgeMove_of_bypass (hb : r.hasBypass actor.toIdentity target.world = true)
    (kind : MoveKind) (now : Instant) :
    (r.judgeMove actor target kind now : HostM σ _) =
      pure (none, r.store actor.id ((r.sessionOf actor.id now).movedBlindly target)) := by
  simp [judgeMove, hb]

/-- A bypassed move, once more. -/
theorem settles_of_bypass {s : Session} (hb : r.hasBypass actor.toIdentity target.world = true)
    (hs : r.session? actor.id = some (s.movedBlindly target)) (kind : MoveKind) (now : Instant) :
    Settles (r.judgeMove actor target kind now : HostM σ _) (none, r) [] := by
  have hsession : r.sessionOf actor.id now = s.movedBlindly target := by
    rw [sessionOf, hs, Option.getD_some]
  have hmoved : (s.movedBlindly target).movedBlindly target = s.movedBlindly target := rfl
  rw [judgeMove_of_bypass hb, hsession, hmoved, store_of_session hs]
  exact .pure _

/-- A judged move, once more. -/
theorem settles_of_repeats {out : Option Location × Session} {kind : MoveKind}
    (hb : r.hasBypass actor.toIdentity target.world = false)
    (hs : r.session? actor.id = some out.2) (ha : out.2.phase = .active)
    (hrepeats : Session.Repeats σ actor target kind out) (now : Instant) :
    Settles (r.judgeMove actor target kind now : HostM σ _) (out.1, r) [] := by
  obtain ⟨back, s⟩ := out
  have hdone : Settles (pure (back, r.store actor.id s) : HostM σ _) (back, r) [] := by
    rw [store_of_session hs]
    exact .pure _
  rw [judgeMove_of_active hb hs ha]
  exact (hrepeats now).bind hdone

end Registry

namespace FixedAnswers
variable {σ : Type} [RegionIndex σ] (fixed : FixedAnswers σ)
include fixed

/-- A checked move leaves a session under way that repeats it. -/
theorem judgeMove_leaves_repeating {r : Registry} (hr : r.Reachable σ (·.isBuiltIn = true))
    (actor : LiveActor) (target : Location) (kind : MoveKind) (now : Instant)
    (hb : r.hasBypass actor.toIdentity target.world = false) :
    Yields (r.judgeMove actor target kind now : HostM σ _) fun out =>
      ∃ s, out = (out.1, r.store actor.id s) ∧ s.phase = .active ∧
        Session.Repeats σ actor target kind (out.1, s) := by
  have hadmitted := sessionInvariant_admitted σ (·.isBuiltIn = true)
  have hready := hadmitted.ensureActive actor
    ((hadmitted.reachable hr rfl).sessionOf hadmitted actor.id now) now
  simp only [Registry.judgeMove, hb, Bool.false_eq_true, if_false]
  refine Yields.bind hready ?_
  rintro s ⟨ha, hs⟩
  have hbuilt : ∀ h ∈ s.handlers, h.blueprint.isBuiltIn = true := fun h hh =>
    hs.2 _ (List.mem_map_of_mem hh)
  refine Yields.bind ((s.judgeMove_judged actor target kind now).and
    (fixed.judgeMove_repeats hbuilt actor target kind now)) ?_
  rintro out ⟨hjudged, hrepeats⟩
  refine Yields.pure ⟨out.2, rfl, ?_, hrepeats⟩
  cases hjudged <;> exact ha

/-- Where every question has its one answer, a move that is judged a second time gets the verdict it
got, leaves the registry as the first time left it, and nobody hears of it. -/
theorem second_judgement_changes_nothing {r : Registry} (hr : r.Reachable σ (·.isBuiltIn = true))
    (actor : LiveActor) (target : Location) (kind : MoveKind) (now later : Instant)
    (host between : Host σ) :
    let first := (r.judgeMove actor target kind now host).1
    let second := first.2.judgeMove actor target kind later between
    second.1.1 = first.1 ∧ second.1.2 = first.2 ∧ second.2.notices = between.notices := by
  intro first second
  have hsame : first.2.hasBypass = r.hasBypass :=
    (r.judgeMove_attends actor target kind now host).hasBypass_eq
      (r.judgeMove_agrees actor target kind now host)
  have hstored (s : Session) : (r.store actor.id s).session? actor.id = some s := by
    rw [Registry.session?_store, if_pos rfl]
  have hsettles : Settles (first.2.judgeMove actor target kind later : HostM σ _) first [] := by
    cases hb : r.hasBypass actor.toIdentity target.world with
    | true =>
      have hfirst : first = (none, r.store actor.id
          ((r.sessionOf actor.id now).movedBlindly target)) :=
        congrArg (fun x : HostM σ _ => (x host).1) (Registry.judgeMove_of_bypass hb kind now)
      rw [hfirst] at hsame ⊢
      exact Registry.settles_of_bypass ((congrFun (congrFun hsame _) _).trans hb) (hstored _) kind
        later
    | false =>
      obtain ⟨s, hfirst, ha, hrepeats⟩ :=
        fixed.judgeMove_leaves_repeating hr actor target kind now hb host
      replace hfirst : first = (first.1, r.store actor.id s) := hfirst
      rw [hfirst] at hsame ⊢
      exact Registry.settles_of_repeats ((congrFun (congrFun hsame _) _).trans hb) (hstored s) ha
        hrepeats later
  have hvalue : second.1 = first := hsettles.value between
  have hnotices : second.2.notices = between.notices ++ [] := hsettles.notices between
  rw [hvalue, hnotices, List.append_nil]
  exact ⟨rfl, rfl, rfl⟩

end FixedAnswers

/-- A visitor without a session is not let into town, and their watch reports a flag once. They try
again. -/
theorem second_judgement_changes_nothing_in_town :
    let host : Host (Served Town.steadyTables) := { index := {} }
    let r := ({} : Registry).register (.watch .build)
    let first := r.judgeMove Town.visitor (Town.place 10) .walk ⟨1⟩ host
    let second := first.1.2.judgeMove Town.visitor (Town.place 10) .walk ⟨2⟩ first.2
    r.Reachable (Served Town.steadyTables) (·.isBuiltIn = true) ∧
    first.1.1 = some (Town.place 0) ∧
    first.2.notices = [.flagChanged Town.visitor.id .build true] ∧
    second.1.1 = some (Town.place 0) ∧ second.1.2 = first.1.2 ∧
    second.2.notices = [.flagChanged Town.visitor.id .build true] := by
  intro host r first second
  have hr : r.Reachable (Served Town.steadyTables) (·.isBuiltIn = true) :=
    .register _ (.empty {} {}) rfl
  have hrefused : first.1.1.isSome = true := by decide +kernel
  have hverdict : first.1.1 = some (Town.place 0) := by
    obtain ⟨back, hback⟩ := Option.isSome_iff_exists.mp hrefused
    have hplaced := (sessionInvariant_placed _ _).reachable hr rfl
    rw [hback, (Registry.judgeMove_refuses hplaced Town.visitor _ .walk _ host back hback).source]
    rfl
  have hnotices : first.2.notices = [.flagChanged Town.visitor.id .build true] := by decide
  obtain ⟨hagain, hregistry, hsilent⟩ :=
    (Town.steadyTables.fixed fun _ => rfl).second_judgement_changes_nothing hr Town.visitor
      (Town.place 10) .walk ⟨1⟩ ⟨2⟩ host first.2
  exact ⟨hr, hverdict, hnotices, hagain.trans hverdict, hregistry, hsilent.trans hnotices⟩

end RegionAccess
