import RegionAccess.Engine
import RegionAccess.Proofs.Session.Calls
import RegionAccess.Proofs.Session.Questions

/-! What an engine does on schedule. A server tick is counted, and then each chore is done whose
interval divides the count. -/
namespace RegionAccess
open RegionIndex

/-- A schedule fires on the positive multiples of its interval, so never if that is zero. -/
theorem Schedule.fires_iff (s : Schedule) (tick : Nat) :
    s.fires tick = true ↔ 0 < tick ∧ s.interval ∣ tick := by
  rw [Nat.dvd_iff_mod_eq_zero]
  simp only [fires, Bool.and_eq_true, bne_iff_ne, beq_iff_eq, Nat.pos_iff_ne_zero]
  constructor
  · exact fun ⟨⟨htick, _⟩, hmod⟩ => ⟨htick, hmod⟩
  · rintro ⟨htick, hmod⟩
    refine ⟨⟨htick, fun hzero => htick ?_⟩, hmod⟩
    rwa [hzero, Nat.mod_zero] at hmod

inductive Chore where
  /-- Sessions are ticked, and those too old expire. -/
  | sessions
  /-- The index drops its cached answers. -/
  | cache
  deriving DecidableEq

namespace Chore

def interval (config : Config) : Chore → Nat
  | .sessions => config.session.tickInterval
  | .cache => config.cacheInterval

/-- In the order in which they are done. -/
def all : List Chore := [.sessions, .cache]

end Chore

namespace Engine
variable {σ : Type} [RegionIndex σ] (e : Engine) (actors : List LiveActor) (now later : Instant)

/-- The engine once another server tick is counted. -/
def count : Engine := { e with tick := min (e.tick + 1) lastTick }

def work : Chore → HostM σ Engine
  | .sessions => return { e with registry := ((← e.registry.tick actors now).expire later).2 }
  | .cache => do
      consult invalidate
      return e

def workIfDue (chore : Chore) : HostM σ Engine :=
  if chore.interval e.config ∣ e.tick then e.work actors now later chore else pure e

theorem count_tick_pos : 0 < e.count.tick := Nat.lt_min.mpr ⟨e.tick.succ_pos, by decide⟩

theorem fires_count (interval : Nat) :
    (Schedule.mk interval).fires e.count.tick = decide (interval ∣ e.count.tick) := by
  rw [Bool.eq_iff_iff, Schedule.fires_iff, decide_eq_true_iff]
  exact and_iff_right e.count_tick_pos

theorem onTick_eq : (e.onTick actors now later : HostM σ Engine) =
    Chore.all.foldlM (fun e chore => e.workIfDue actors now later chore) e.count := by
  have hsessions := e.fires_count e.config.session.tickInterval
  have hcache := e.fires_count e.config.cacheInterval
  simp only [onTick, Chore.all, List.foldlM_cons, List.foldlM_nil, workIfDue, Chore.interval]
  unfold count at hsessions hcache ⊢
  dsimp only at hsessions hcache ⊢
  rw [hsessions, hcache]
  by_cases hs : e.config.session.tickInterval ∣ min (e.tick + 1) lastTick <;>
    by_cases hc : e.config.cacheInterval ∣ min (e.tick + 1) lastTick <;>
    simp [hs, hc, work]

/-- No chore is about the configuration or the count. -/
theorem work_setup (chore : Chore) :
    Yields (e.work actors now later chore : HostM σ Engine) fun e' =>
      e'.config = e.config ∧ e'.tick = e.tick := by
  cases chore <;> exact fun _ => ⟨rfl, rfl⟩

theorem workIfDue_setup (chore : Chore) :
    Yields (e.workIfDue actors now later chore : HostM σ Engine) fun e' =>
      e'.config = e.config ∧ e'.tick = e.tick := by
  unfold workIfDue
  split
  · exact e.work_setup actors now later chore
  · exact Yields.pure ⟨rfl, rfl⟩

theorem onTick_setup : Yields (e.onTick actors now later : HostM σ Engine) fun e' =>
    e'.config = e.config ∧ e'.tick = e.count.tick := by
  rw [onTick_eq]
  refine Yields.foldlM (fun e' chore he' => ?_) Chore.all ⟨rfl, rfl⟩
  exact (e'.workIfDue_setup actors now later chore).mono fun e'' h =>
    ⟨h.1.trans he'.1, h.2.trans he'.2⟩

theorem mirrors_work (chore : Chore) :
    Mirrors (e.work actors now later chore : HostM (Recorded σ) _)
      (e.work actors now later chore : HostM σ _) := by
  cases chore with
  | sessions => exact (Mirrors.perform e.registry (.tick actors now)).bind fun _ => Mirrors.pure _
  | cache =>
    have hinvalidate : Mirrors (invalidate : StateM (Recorded σ) Unit)
        (invalidate : StateM σ Unit) :=
      ⟨fun _ => rfl, fun _ => rfl, fun _ => List.prefix_append _ _⟩
    exact hinvalidate.consult.bind fun _ => Mirrors.pure _

theorem mirrors_onTick :
    Mirrors (e.onTick actors now later : HostM (Recorded σ) _)
      (e.onTick actors now later : HostM σ _) := by
  rw [onTick_eq, onTick_eq]
  refine Mirrors.foldlM (fun e chore => ?_) Chore.all e.count
  exact Mirrors.ite (e.mirrors_work actors now later chore) (Mirrors.pure e)

/-- One chore has the index drop its cached answers, and does so once. -/
theorem work_invalidations (chore : Chore) (host : Host (Recorded σ)) :
    (e.work actors now later chore host).2.index.invalidations =
      host.index.invalidations + if chore = .cache then 1 else 0 := by
  cases chore with
  | sessions =>
    have hP := Recorded.invalidations_keptByAsking (σ := σ) host.index.invalidations
    exact ((hP.perform e.registry (.tick actors now)).bind fun _ => Keeps.pure _) host rfl
  | cache => exact List.countP_append

theorem workIfDue_invalidations (chore : Chore) (host : Host (Recorded σ)) :
    (e.workIfDue actors now later chore host).2.index.invalidations =
      host.index.invalidations +
        if chore = .cache ∧ chore.interval e.config ∣ e.tick then 1 else 0 := by
  unfold workIfDue
  split
  next hdue =>
    rw [work_invalidations]
    simp only [hdue, and_true]
  next hdue =>
    rw [if_neg fun h => hdue h.2]
    rfl

theorem onTick_invalidations (host : Host (Recorded σ)) :
    (e.onTick actors now later host).2.index.invalidations =
      host.index.invalidations + if e.config.cacheInterval ∣ e.count.tick then 1 else 0 := by
  rw [onTick_eq]
  let first := e.count.workIfDue actors now later .sessions host
  have hfirst : first.1.config = e.config ∧ first.1.tick = e.count.tick :=
    e.count.workIfDue_setup actors now later .sessions host
  show (first.1.workIfDue actors now later .cache first.2).2.index.invalidations = _
  rw [workIfDue_invalidations, hfirst.1, hfirst.2]
  show (e.count.workIfDue actors now later .sessions host).2.index.invalidations + _ = _
  rw [workIfDue_invalidations, if_neg fun h => nomatch h.1]
  simp [Chore.interval]

end Engine
end RegionAccess
