import RegionAccess.Proofs.Index.Tables
import RegionAccess.Proofs.Session.Calls
import RegionAccess.Proofs.Session.Handlers
import RegionAccess.Proofs.Session.KnownRegions
import RegionAccess.Proofs.Session.Position

/-! Entry and exit are enforced along whole runs. A move is judged by regions remembered from the
last position, and these are current whatever happened before; what is refused beyond what the
flags ask is refused because a call to the index failed. -/
namespace RegionAccess
open RegionIndex

namespace SteadyIndex
variable {σ : Type} [RegionIndex σ] (truth : SteadyIndex σ)

/-- Whoever comes into a region needs the entry flag at the target, whoever leaves one the exit
flag at the source. -/
structure MayCross (i : Identity) (source target : Location) : Prop where
  entry : (∀ region ∈ truth.regionsAt target.block, region ∈ truth.regionsAt source.block) ∨
    truth.ruling target.block .entry i.standing = some .allow
  exit : (∀ region ∈ truth.regionsAt source.block, region ∈ truth.regionsAt target.block) ∨
    truth.ruling source.block .exit i.standing = some .allow

/-- The answers that a crossing rests on: an explicit allow of each flag it needs. -/
inductive Rests (source target : Location) : Call → Prop where
  | entry : (¬ ∀ region ∈ truth.regionsAt target.block, region ∈ truth.regionsAt source.block) →
      Rests source target (.inquiry target .entry (.ok (some .allow)))
  | exit : (¬ ∀ region ∈ truth.regionsAt source.block, region ∈ truth.regionsAt target.block) →
      Rests source target (.inquiry source .exit (.ok (some .allow)))

omit [RegionIndex σ] in
/-- A check that is made only where it is due, before what comes next. -/
theorem decides_where_due (exempt : Bool) {x next : StateM (Recorded σ) Bool} {fact rest : Prop}
    {needed more : Call → Prop} (hx : Decides x (· = true) fact needed)
    (hnext : Decides next (· = true) rest more) :
    Decides (if !exempt then x >>= fun allowed => if !allowed then pure false else next else next)
      (· = true) ((exempt = true ∨ fact) ∧ rest)
      fun c => (exempt = false ∧ needed c) ∨ more c := by
  cases exempt with
  | true => exact hnext.congr (by simp) (by simp)
  | false =>
    refine (hx.bind rest more (fun allowed hno => ?_) fun allowed hyes => ?_).congr (by simp)
      (by simp)
    · exact ⟨false, Bool.false_ne_true, by simp [hno]⟩
    · subst hyes
      exact hnext

theorem decides_passesEntryExit (m : Move) (hs : m.sourceRegions = truth.regionsAt m.source.block)
    (ht : m.targetRegions = truth.regionsAt m.target.block) :
    Decides (m.passesEntryExit : StateM (Recorded σ) Bool) (· = true)
      (truth.MayCross m.actor.toIdentity m.source m.target) (truth.Rests m.source m.target) := by
  have hentry := truth.decides_isAllowed m.actor.toIdentity m.target .entry rfl
  have hexit := truth.decides_isAllowed m.actor.toIdentity m.source .exit rfl
  have hdone : Decides (pure true : StateM (Recorded σ) Bool) (· = true) True fun _ => False :=
    Decides.pure rfl trivial fun _ => id
  have hentered : m.entered.isEmpty = true ↔
      ∀ region ∈ truth.regionsAt m.target.block, region ∈ truth.regionsAt m.source.block := by
    rw [Move.entered, hs, ht]
    exact Std.ExtTreeSet.isEmpty_diff_iff
  have hexited : m.exited.isEmpty = true ↔
      ∀ region ∈ truth.regionsAt m.source.block, region ∈ truth.regionsAt m.target.block := by
    rw [Move.exited, hs, ht]
    exact Std.ExtTreeSet.isEmpty_diff_iff
  apply Decides.congr (decides_where_due m.entered.isEmpty hentry
    (decides_where_due m.exited.isEmpty hexit hdone))
  · rw [hentered, hexited]
    exact ⟨fun h => ⟨h.1, h.2.1⟩, fun h => ⟨h.entry, h.exit, trivial⟩⟩
  · intro c hc
    cases hc with
    | entry h => exact .inl ⟨Bool.eq_false_iff.mpr (h ∘ hentered.mp), rfl⟩
    | exit h => exact .inr (.inl ⟨Bool.eq_false_iff.mpr (h ∘ hexited.mp), rfl⟩)

theorem decides_permits (m : Move) (hs : m.sourceRegions = truth.regionsAt m.source.block)
    (ht : m.targetRegions = truth.regionsAt m.target.block) {h : Handler}
    (hb : h.blueprint.isBuiltIn = true) :
    Decides (h.permits m : HostM (Recorded σ) _) (·.1 = true)
      (h = .entryExit → truth.MayCross m.actor.toIdentity m.source m.target)
      fun c => h = .entryExit ∧ truth.Rests m.source m.target c := by
  cases h with
  | entryExit =>
    have hguard := (truth.decides_passesEntryExit m hs ht).consult
    exact (hguard.congr (by simp) (by simp)).map (fun permitted => (permitted, Handler.entryExit))
      fun _ => Iff.rfl
  | watch w => exact Decides.pure rfl (by simp) (by simp)
  | host rule memory => cases hb

theorem decides_allPermit (m : Move) (hs : m.sourceRegions = truth.regionsAt m.source.block)
    (ht : m.targetRegions = truth.regionsAt m.target.block) (handlers : List Handler)
    (hb : ∀ h ∈ handlers, h.blueprint.isBuiltIn = true) :
    Decides (allPermit m handlers : HostM (Recorded σ) _) (·.1 = true)
      (.entryExit ∈ handlers → truth.MayCross m.actor.toIdentity m.source m.target)
      fun c => .entryExit ∈ handlers ∧ truth.Rests m.source m.target c := by
  induction handlers with
  | nil => exact Decides.pure rfl (by simp) (by simp)
  | cons h handlers ih =>
    obtain ⟨hb, hbs⟩ := List.forall_mem_cons.mp hb
    have hrest := ih hbs
    refine ((truth.decides_permits m hs ht hb).bind _
      (fun c => .entryExit ∈ handlers ∧ truth.Rests m.source m.target c) ?_ ?_).congr
      (by rw [List.mem_cons, or_imp, eq_comm]) ?_
    · rintro ⟨permitted, h'⟩ hno
      exact ⟨(false, h' :: handlers), Bool.false_ne_true, by simp_all⟩
    · rintro ⟨permitted, h'⟩ rfl
      exact hrest.map (fun out => (out.1, h' :: out.2)) fun _ => Iff.rfl
    · rintro c ⟨hmem, hc⟩
      rcases List.mem_cons.mp hmem with rfl | hmem
      · exact .inl ⟨rfl, hc⟩
      · exact .inr ⟨hmem, hc⟩

variable {s : Session} {kind : MoveKind}

theorem decides_judgeCrossing (hs : s.Admitted (·.isBuiltIn = true))
    (hk : kind.isRefusable = true) (actor : LiveActor) (source target : Location)
    (now : Instant) :
    Decides (s.judgeCrossing actor source target (truth.regionsAt source.block)
        (truth.regionsAt target.block) kind now : HostM (Recorded σ) _) (fun out => out.1 = none)
      (truth.MayCross actor.toIdentity source target) (truth.Rests source target) := by
  have hbuilt : ∀ h ∈ s.handlers, h.blueprint.isBuiltIn = true := fun h hh =>
    hs.2 _ (List.mem_map_of_mem hh)
  have hguard : Handler.entryExit ∈ s.handlers := hs.entryExit_mem
  let m : Move :=
    ⟨actor, source, target, truth.regionsAt source.block, truth.regionsAt target.block, kind⟩
  have hpermits : Decides (allPermit m s.handlers : HostM (Recorded σ) _) (·.1 = true)
      (truth.MayCross actor.toIdentity source target) (truth.Rests source target) :=
    (truth.decides_allPermit m rfl rfl s.handlers hbuilt).congr (by simp [hguard, m])
      fun c hc => ⟨hguard, hc⟩
  refine hpermits.before ?_ ?_ ?_
  · rintro ⟨permitted, handlers⟩ hno
    refine ⟨(some source, { s with handlers }), by simp, ?_⟩
    simp_all
  · rintro ⟨permitted, handlers⟩ rfl
    exact Yields.bind Yields.any fun _ _ => Yields.pure rfl
  · rintro ⟨permitted, handlers⟩ rfl
    exact ((Mirrors.mapM (Mirrors.cross m now) handlers).bind fun _ => Mirrors.pure _).extended

/-- Refusals that no lookup failure explains are those of the flags, and no others. -/
theorem decides_sessionMove (hs : s.Admitted (·.isBuiltIn = true))
    (hcurrent : s.Current truth.regionsAt) (hk : kind.isRefusable = true) (actor : LiveActor)
    {source target : Location} (hl : s.lastValid = some source)
    (hcross : source.leavesBlock target = true) (now : Instant) :
    Decides (s.judgeMove actor target kind now : HostM (Recorded σ) _) (fun out => out.1 = none)
      (truth.MayCross actor.toIdentity source target) (truth.Rests source target) := by
  have hsource : Finds (s.sourceRegions source : StateM (Recorded σ) _)
      (truth.regionsAt source.block) := by
    unfold Session.sourceRegions
    split
    next hknown =>
      obtain ⟨position, hp, hr⟩ := hcurrent.known hknown
      obtain rfl := Option.some.inj (hl.symm.trans hp)
      rw [hr]
      exact ⟨fun _ => .inl rfl, fun _ => List.prefix_rfl⟩
    next => exact truth.finds_overlapping source
  have hlost (s : Session) : ∃ out : Option Location × Session, ¬ out.1 = none ∧
      (pure (s.moveUnseen source target kind) : HostM (Recorded σ) _) = pure out := by
    refine ⟨(some source, s), by simp, ?_⟩
    simp [Session.moveUnseen, hk]
  simp only [Session.judgeMove, hl, hcross, Bool.not_true, Bool.false_eq_true, if_false]
  apply Decides.after_lookup hsource.consult (fun _ => hlost s)
  apply Decides.after_lookup (truth.finds_overlapping target).consult (fun _ => hlost _)
  exact truth.decides_judgeCrossing (s := s.learnRegions _) hs hk actor source target now

/-- The session that a move is judged with, started if need be, is where the move is judged from.
Its handlers are of admitted kinds, and the regions it knows are current. -/
theorem yields_ready {admits : Blueprint → Prop} {r : Registry}
    (hplaced : r.Holds admits fun _ s => s.Placed)
    (hadmitted : r.Holds admits fun _ s => s.Admitted admits)
    (hcurrent : r.Holds admits fun _ s => s.Current truth.regionsAt) (actor : LiveActor)
    (now : Instant) :
    Yields ((r.sessionOf actor.id now).ensureActive actor now : HostM σ Session) fun s =>
      s.lastValid = some (r.judgedFrom actor) ∧ s.Admitted admits ∧
        s.Current truth.regionsAt := by
  have hl := Registry.ensureActive_judgedFrom (σ := σ) hplaced actor now
  have hs := (sessionInvariant_admitted σ admits).ensureActive actor
    (hadmitted.sessionOf (sessionInvariant_admitted σ admits) actor.id now) now
  have hc := (truth.sessionInvariant_current admits).ensureActive actor
    (hcurrent.sessionOf (truth.sessionInvariant_current admits) actor.id now) now
  exact hl.and ((hs.and hc).mono fun s h => ⟨h.1.2, h.2.2⟩)

/-- A move out of a cell is judged from where the registry has it judged from. -/
theorem decides_judgeMove {r : Registry} (hr : r.Reachable σ (·.isBuiltIn = true))
    (hk : kind.isRefusable = true) (actor : LiveActor) {target : Location}
    (hb : r.hasBypass actor.toIdentity target.world = false)
    (hcross : (r.judgedFrom actor).leavesBlock target = true) (now : Instant) :
    Decides (r.judgeMove actor target kind now : HostM (Recorded σ) _) (fun out => out.1 = none)
      (truth.MayCross actor.toIdentity (r.judgedFrom actor) target)
      (truth.Rests (r.judgedFrom actor) target) := by
  have hplaced := (sessionInvariant_placed σ _).reachable hr rfl
  have hadmitted := (sessionInvariant_admitted σ _).reachable hr rfl
  have hcurrent := (truth.sessionInvariant_current _).reachable hr rfl
  simp only [Registry.judgeMove, hb, Bool.false_eq_true, if_false]
  -- the run so far was against the index itself, the move under judgement is recorded
  refine Decides.after (truth.recorded.yields_ready hplaced hadmitted hcurrent actor now)
    (Mirrors.ensureActive _ actor now).extended fun s ⟨hl, hs, hc⟩ => ?_
  exact (truth.decides_sessionMove hs hc hk actor hl hcross now).before
    (fun out hno => ⟨_, hno, rfl⟩) (fun out hyes => Yields.pure hyes) fun _ _ _ => List.prefix_rfl

/-- After any run, a refusable move out of the cell it is judged from is accepted only where the
flags let the actor cross, and only once those it takes were answered by an explicit allow. Where
no call of that move fails it is accepted exactly where the flags let the actor cross. -/
theorem entry_and_exit_enforced {r : Registry} (hr : r.Reachable σ (·.isBuiltIn = true))
    (actor : LiveActor) {target : Location} (hb : r.hasBypass actor.toIdentity target.world = false)
    (hk : kind.isRefusable = true) (hcross : (r.judgedFrom actor).leavesBlock target = true)
    (now : Instant) (host : Host σ) :
    let calls := (r.judgeMove actor target kind now host.recorded).2.index.calls
    ((r.judgeMove actor target kind now host).1.1 = none →
      truth.MayCross actor.toIdentity (r.judgedFrom actor) target ∧
      ∀ c, truth.Rests (r.judgedFrom actor) target c → c ∈ calls) ∧
    ((∀ c ∈ calls, c.failed = false) →
      ((r.judgeMove actor target kind now host).1.1 = none ↔
        truth.MayCross actor.toIdentity (r.judgedFrom actor) target)) := by
  intro calls
  have hdecides := truth.decides_judgeMove hr hk actor hb hcross now
  have hverdict : (r.judgeMove actor target kind now host.recorded).1 =
      (r.judgeMove actor target kind now host).1 :=
    (Mirrors.judgeMove r actor target kind now).value host.recorded
  rw [← hverdict]
  have hsound := hdecides.sound host.recorded
  constructor
  · intro h
    exact ⟨hsound h, hdecides.asked host.recorded h⟩
  · intro hcalls
    refine ⟨hsound, fun hmay => ?_⟩
    apply (hdecides.complete host.recorded hmay).resolve_right
    rintro ⟨c, hc, hfailed⟩
    exact Bool.false_ne_true ((hcalls c hc).symm.trans hfailed)

end SteadyIndex

/-- A visitor whose session started during an outage walks up to the town, and all calls succeed. -/
theorem entry_and_exit_enforced_in_town :
    let r := (({} : Registry).perform (.enter Town.visitor ⟨0⟩) (Town.hostAfter 0)).1
    let target := Town.place 10
    r.Reachable (Served Town.tables) (·.isBuiltIn = true) ∧
    r.hasBypass Town.visitor.toIdentity target.world = false ∧
    MoveKind.walk.isRefusable = true ∧
    (r.judgedFrom Town.visitor).leavesBlock target = true ∧
    (∀ c ∈ (r.judgeMove Town.visitor target .walk ⟨1⟩ (Town.hostAfter 1).recorded).2.index.calls,
      c.failed = false) ∧
    ((r.judgeMove Town.visitor target .walk ⟨1⟩ (Town.hostAfter 1)).1.1 = none ↔
      Town.tables.steady.MayCross Town.visitor.toIdentity (r.judgedFrom Town.visitor) target) := by
  intro r target
  have hr : r.Reachable (Served Town.tables) (·.isBuiltIn = true) := .step _ _ (.empty {} {})
  have hb : r.hasBypass Town.visitor.toIdentity target.world = false := by decide
  have hcross : (r.judgedFrom Town.visitor).leavesBlock target = true := by decide
  have hcalls : ∀ c ∈ (r.judgeMove Town.visitor target .walk ⟨1⟩
      (Town.hostAfter 1).recorded).2.index.calls, c.failed = false := by decide
  exact ⟨hr, hb, rfl, hcross, hcalls, (Town.tables.steady.entry_and_exit_enforced hr Town.visitor
    hb rfl hcross ⟨1⟩ (Town.hostAfter 1)).2 hcalls⟩

end RegionAccess
