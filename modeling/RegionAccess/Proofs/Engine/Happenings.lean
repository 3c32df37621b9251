import RegionAccess.Proofs.Engine.Chores
import RegionAccess.Proofs.Engine.Runs
import RegionAccess.Proofs.Engine.Toggling
import RegionAccess.Proofs.Event.Snapshot

/-! All that can happen to an engine, with the index beside it. The configuration stays as it was
built, server ticks are counted and nothing else is, and but for a server tick nothing has the index
drop its cached answers. -/
namespace RegionAccess
open RegionIndex

/-- What a host does with an engine, and what befalls its index in between. -/
inductive Happening (σ : Type) where
  | event (event : EngineEvent)
  | register (blueprint : Blueprint)
  /-- The host puts another registry in the place of the engine's. -/
  | install (registry : Registry)
  | blockChange (platform : Platform) (change : BlockChange)
  | damage (platform : Platform) (damage : Damage)
  /-- The host checks a flag through the engine, for a subject or for no one in particular. -/
  | check (location : Location) (flag : Flag) (subject : Option Subject)
  /-- The host looks up regions through the engine. -/
  | lookUp (location : Location)
  /-- The index changes without the engine. -/
  | drift (change : σ → σ)

def EngineEvent.isTick : EngineEvent → Bool
  | .tick _ _ _ => true
  | _ => false

namespace Happening
variable {σ : Type}

def isTick : Happening σ → Bool
  | .event e => e.isTick
  | _ => false

/-- How many server ticks it is. -/
def ticks (h : Happening σ) : Nat := if h.isTick then 1 else 0

theorem countP_cons (h : Happening σ) (happenings : List (Happening σ)) :
    (h :: happenings).countP (·.isTick) = h.ticks + happenings.countP (·.isTick) :=
  List.countP_cons.trans (Nat.add_comm _ _)

theorem exists_of_isTick {h : Happening σ} (hh : h.isTick = true) :
    ∃ actors now later, h = .event (.tick actors now later) := by
  cases h with
  | event e =>
    cases e with
    | tick actors now later => exact ⟨actors, now, later, rfl⟩
    | _ => cases hh
  | _ => cases hh

/-- The same, with an index that is recorded; what it does without the engine is not. -/
def recorded : Happening σ → Happening (Recorded σ)
  | .event e => .event e
  | .register blueprint => .register blueprint
  | .install registry => .install registry
  | .blockChange platform c => .blockChange platform c
  | .damage platform d => .damage platform d
  | .check location flag subject => .check location flag subject
  | .lookUp location => .lookUp location
  | .drift change => .drift fun r => { r with index := change r.index }

end Happening

section
variable {σ : Type} [RegionIndex σ]

/-- The engine after something happened, with what that does to the host. -/
def Engine.undergo (e : Engine) : Happening σ → HostM σ Engine
  | .event event => e.handle event
  | .register blueprint => return e.register blueprint
  | .install registry => return { e with registry }
  | .blockChange platform change => do
      let _ ← consult (e.onBlockChange platform change)
      return e
  | .damage platform damage => do
      let _ ← consult (e.onDamage platform damage)
      return e
  | .check location flag (some subject) => do
      let _ ← consult (allows location flag subject)
      return e
  | .check location flag none => do
      let _ ← consult (environmentAllows flag location)
      return e
  | .lookUp location => do
      let _ ← consult (overlapping location)
      return e
  | .drift change => do
      modify fun host => { host with index := change host.index }
      return e

namespace Engine
variable (e : Engine)

theorem handle_counts (event : EngineEvent) : Yields (e.handle event : HostM σ Engine) fun e' =>
    e'.config = e.config ∧ e'.tick = if event.isTick then e.count.tick else e.tick := by
  cases event with
  | quit actor =>
    refine Yields.pure ?_
    rw [onQuit]
    split <;> exact ⟨rfl, rfl⟩
  | toggle dependency enabled turns =>
    simp only [handle, onDependencyToggled]
    cases e.dependencies.toggle dependency enabled with
    | none => exact fun _ => ⟨rfl, rfl⟩
    | some dependencies => exact fun _ => ⟨rfl, rfl⟩
  | tick actors now later => exact e.onTick_setup actors now later
  | _ => exact fun _ => ⟨rfl, rfl⟩

/-- The configuration stays, and as long as there is room the count goes up by one at a server tick
and at nothing else. -/
theorem undergo_counts {e : Engine} {h : Happening σ} (hroom : e.tick + h.ticks ≤ lastTick) :
    Yields (e.undergo h : HostM σ Engine) fun e' =>
      e'.config = e.config ∧ e'.tick = e.tick + h.ticks := by
  cases h with
  | event event =>
    intro host
    obtain ⟨hconfig, htick⟩ := e.handle_counts event host
    refine ⟨hconfig, htick.trans ?_⟩
    cases event with
    | tick actors now later => exact Nat.min_eq_left hroom
    | _ => rfl
  | check location flag subject => cases subject <;> exact fun _ => ⟨rfl, rfl⟩
  | _ => exact fun _ => ⟨rfl, rfl⟩

end Engine

/-! Recording the index changes nothing for an engine. -/

namespace Mirrors
variable (e : Engine)

theorem handle (event : EngineEvent) :
    Mirrors (e.handle event : HostM (Recorded σ) _) (e.handle event : HostM σ _) := by
  cases event with
  | join actor now =>
    exact (perform e.registry (.enter actor now)).bind fun _ => Mirrors.pure _
  | quit actor => exact Mirrors.pure _
  | move actor target kind now =>
    refine Mirrors.bind ?_ fun _ => Mirrors.pure _
    exact (judgeMove e.registry actor target kind now).bind fun _ => Mirrors.pure _
  | vehicleMove move riders =>
    refine Mirrors.bind ?_ fun _ => Mirrors.pure _
    exact (judgeVehicle e.registry move riders).bind fun _ => Mirrors.pure _
  | toggle dependency enabled turns =>
    exact (e.mirrors_onDependencyToggled dependency enabled turns).bind fun _ => Mirrors.pure _
  | tick actors now later => exact e.mirrors_onTick actors now later
  | operate operation => exact (perform e.registry operation).bind fun _ => Mirrors.pure _
  | record attributions => exact Mirrors.pure _

theorem checkFall (d : Damage) (platform : Platform) (worlds : WorldPolicies) :
    Mirrors (d.checkFall platform worlds : StateM (Recorded σ) _)
      (d.checkFall platform worlds : StateM σ _) := by
  refine ite (Mirrors.pure _) (ite (Mirrors.pure _) ?_)
  cases platform.player? d.victim with
  | none => exact Mirrors.pure _
  | some i => exact (isAllowed i d.location .fallDamage).bind fun _ => Mirrors.pure _

theorem undergo (h : Happening σ) :
    Mirrors (e.undergo h.recorded : HostM (Recorded σ) _) (e.undergo h : HostM σ _) := by
  cases h with
  | event event => exact handle e event
  | register blueprint => exact Mirrors.pure _
  | install registry => exact Mirrors.pure _
  | blockChange platform change =>
    exact (consult (e.mirrors_onBlockChange platform change)).bind fun _ => Mirrors.pure _
  | damage platform damage =>
    exact (consult (checkFall damage platform _)).bind fun _ => Mirrors.pure _
  | check location flag subject =>
    cases subject with
    | none => exact (consult (Mirrors.environmentAllows flag location)).bind fun _ => Mirrors.pure _
    | some subject =>
      exact (consult (Mirrors.allows location flag subject)).bind fun _ => Mirrors.pure _
  | lookUp location => exact (consult (Mirrors.overlapping location)).bind fun _ => Mirrors.pure _
  | drift change => exact ⟨fun _ => rfl, fun _ => rfl, fun _ => List.prefix_rfl⟩

end Mirrors

/-! But for server ticks, an engine does nothing to the index but ask. -/

namespace KeptByAsking
variable {P : σ → Prop} (hP : KeptByAsking P)
include hP

theorem checkEnvironment (change : BlockChange) (worlds : WorldPolicies) :
    Keeps P (change.checkEnvironment worlds : StateM σ _) := by
  refine Keeps.ite (Keeps.pure change) (Keeps.foldlM (fun e check => ?_) _ change)
  exact (e.keeps_filter (hP.environmentAllows check.flag) check.cancels).bind fun out =>
    Keeps.pure out.2

theorem checkBuild (change : BlockChange) (subject : Subject) :
    Keeps P (change.checkBuild subject : StateM σ _) := by
  have hallows (l : Location) :
      Keeps (fun t : Subject × σ => P t.2) (paired (RegionAccess.allows l .build)) :=
    fun ⟨subject, s⟩ hs => hP.allows l .build subject s hs
  intro s hs
  have hleft := Keeps.keepPassing hallows change.locations (subject, s) hs
  rw [← paired_keepPassing] at hleft
  exact hleft

theorem onBlockChange (e : Engine) (platform : Platform) (change : BlockChange) :
    Keeps P (e.onBlockChange platform change : StateM σ _) :=
  (hP.checkEnvironment change _).bind fun change =>
    Keeps.ite (Keeps.pure change) (hP.checkBuild change _)

theorem onDamage (e : Engine) (platform : Platform) (damage : Damage) :
    Keeps P (e.onDamage platform damage : StateM σ _) := by
  refine Keeps.ite (Keeps.pure _) (Keeps.ite (Keeps.pure _) ?_)
  cases platform.player? damage.victim with
  | none => exact Keeps.pure _
  | some i => exact (hP.isAllowed i damage.location .fallDamage).bind fun _ => Keeps.pure _

theorem handle (e : Engine) {event : EngineEvent} (h : event.isTick = false) :
    Keeps (P ·.index) (e.handle event : HostM σ _) := by
  cases event with
  | join actor now =>
    exact (hP.perform e.registry (.enter actor now)).bind fun _ => Keeps.pure _
  | quit actor => exact Keeps.pure _
  | move actor target kind now =>
    refine Keeps.bind ?_ fun _ => Keeps.pure _
    exact (hP.judgeMove e.registry actor target kind now).bind fun _ => Keeps.pure _
  | vehicleMove move riders =>
    refine Keeps.bind ?_ fun _ => Keeps.pure _
    exact (hP.judgeVehicle e.registry move riders).bind fun _ => Keeps.pure _
  | toggle dependency enabled turns =>
    refine Keeps.bind ?_ fun _ => Keeps.pure _
    unfold Engine.onDependencyToggled
    cases e.dependencies.toggle dependency enabled with
    | none => exact Keeps.pure _
    | some dependencies =>
      exact (hP.perform e.registry (.resync turns)).bind fun _ => Keeps.pure _
  | tick actors now later => cases h
  | operate operation => exact (hP.perform e.registry operation).bind fun _ => Keeps.pure _
  | record attributions => exact Keeps.pure _

end KeptByAsking

/-- But for a server tick, nothing that happens has the index drop its cached answers. -/
theorem Engine.undergo_keeps_invalidations (e : Engine) {h : Happening σ} (hh : h.isTick = false)
    (n : Nat) :
    Keeps (·.index.invalidations = n) (e.undergo h.recorded : HostM (Recorded σ) _) := by
  have hP := Recorded.invalidations_keptByAsking (σ := σ) n
  cases h with
  | event event => exact hP.handle e hh
  | register blueprint => exact Keeps.pure _
  | install registry => exact Keeps.pure _
  | blockChange platform change =>
    exact (hP.onBlockChange e platform change).consult.bind fun _ => Keeps.pure _
  | damage platform damage =>
    exact (hP.onDamage e platform damage).consult.bind fun _ => Keeps.pure _
  | check location flag subject =>
    cases subject with
    | none => exact (hP.environmentAllows flag location).consult.bind fun _ => Keeps.pure _
    | some subject => exact (hP.allows location flag subject).consult.bind fun _ => Keeps.pure _
  | lookUp location => exact (hP.overlapping location).consult.bind fun _ => Keeps.pure _
  | drift change => exact fun _ hhost => hhost

end
end RegionAccess
