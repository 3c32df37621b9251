import RegionAccess.Engine
import RegionAccess.Proofs.Session.Frames

/-! Runs of an engine. Whatever a host has it do, its registry is changed by operations on
registries alone, so what those keep the engine keeps; and its configuration stays as it was
built. -/
namespace RegionAccess

/-- What changes an engine. Being asked about blocks and damage in between changes nothing. -/
inductive EngineEvent where
  | join (actor : LiveActor) (now : Instant)
  | quit (actor : LiveActor)
  | move (actor : LiveActor) (target : Location) (kind : MoveKind) (now : Instant)
  | vehicleMove (move : VehicleMove) (riders : List Turn)
  | toggle (dependency : String) (enabled : Bool) (turns : List Turn)
  | tick (actors : List LiveActor) (now later : Instant)
  /-- The host works on the sessions itself. -/
  | operate (operation : Operation)
  /-- The host records attributions, or drops some. -/
  | record (attributions : Attributions)

namespace Engine
variable {σ : Type} [RegionIndex σ]

def handle (e : Engine) : EngineEvent → HostM σ Engine
  | .join actor now => e.onJoin actor now
  | .quit actor => return (e.onQuit actor).2
  | .move actor target kind now => return (← e.onMove actor target kind now).2
  | .vehicleMove move riders => return (← e.onVehicleMove move riders).2
  | .toggle dependency enabled turns =>
      return (← e.onDependencyToggled dependency enabled turns).2
  | .tick actors now later => e.onTick actors now later
  | .operate operation => return { e with registry := ← e.registry.perform operation }
  | .record attributions => return { e with attributions }

/-- The engines a run leads to. Before each event the host may have changed its index in any way. -/
inductive Reachable (σ : Type) [RegionIndex σ] (admits : Blueprint → Prop) : Engine → Prop where
  | new (config : Config) : Reachable σ admits (.new config)
  | register {e : Engine} (blueprint : Blueprint) :
      Reachable σ admits e → admits blueprint → Reachable σ admits (e.register blueprint)
  | step {e : Engine} (event : EngineEvent) (host : Host σ) :
      Reachable σ admits e → Reachable σ admits (e.handle event host).1

/-- What every operation keeps of a registry, every event keeps of the engine's. -/
theorem handle_keeps {P : Registry → Prop} (e : Engine)
    (hkeeps : ∀ (r : Registry) operation, P r → Yields (r.perform operation : HostM σ Registry) P)
    (event : EngineEvent) (h : P e.registry) :
    Yields (e.handle event : HostM σ Engine) fun e' => e'.config = e.config ∧ P e'.registry := by
  have hoperate (operation : Operation) :
      Yields (e.registry.perform operation : HostM σ Registry) P :=
    hkeeps e.registry operation h
  cases event with
  | join actor now => exact fun host => ⟨rfl, hoperate (.enter actor now) host⟩
  | move actor target kind now =>
    exact fun host => ⟨rfl, hoperate (.judgeMove actor target kind now) host⟩
  | vehicleMove move riders => exact fun host => ⟨rfl, hoperate (.judgeVehicle move riders) host⟩
  | operate operation => exact fun host => ⟨rfl, hoperate operation host⟩
  | record attributions => exact Yields.pure ⟨rfl, h⟩
  | quit actor =>
    intro host
    have hremove := hoperate (.remove actor.id) host
    simp only [handle, onQuit, Registry.perform] at hremove ⊢
    cases hr : e.registry.remove actor.id with
    | error err => exact ⟨rfl, h⟩
    | ok out =>
      rw [hr] at hremove
      exact ⟨rfl, hremove⟩
  | toggle dependency enabled turns =>
    simp only [handle, onDependencyToggled]
    cases e.dependencies.toggle dependency enabled with
    | none => exact Yields.pure ⟨rfl, h⟩
    | some dependencies => exact fun host => ⟨rfl, hoperate (.resync turns) host⟩
  | tick actors now later =>
    have hrest (due : Bool) (tick : Nat) (r : Registry) (hr : P r) :
        Yields (do
          if due then consult RegionIndex.invalidate
          return { e with tick, registry := r } : HostM σ Engine) fun e' =>
            e'.config = e.config ∧ P e'.registry := by
      cases due with
      | true => exact Yields.bind Yields.any fun _ _ => Yields.pure ⟨rfl, hr⟩
      | false => exact Yields.pure ⟨rfl, hr⟩
    simp only [handle, onTick]
    split
    next =>
      refine Yields.bind (hoperate (.tick actors now)) fun r hr => ?_
      exact Yields.bind (hkeeps r (.expire later) hr) (hrest _ _)
    next => exact Yields.bind (Yields.pure h) (hrest _ _)

namespace Reachable
variable {admits : Blueprint → Prop} {e : Engine}

theorem registry (h : e.Reachable σ admits) : e.registry.Reachable σ admits := by
  induction h with
  | new config => exact .empty _ _
  | register blueprint _ hb ih => exact ih.register blueprint hb
  | step event host _ ih =>
    exact (handle_keeps _ (fun r operation hr host => hr.step operation host) event ih host).2

/-- Sessions are judged by the world policies of the engine's configuration. -/
theorem worlds_eq (h : e.Reachable σ admits) : e.registry.worlds = e.config.worlds := by
  induction h with
  | new config => rfl
  | register blueprint _ _ ih => exact ih
  | @step e event host _ ih =>
    have hkeeps (r : Registry) (operation : Operation) (hr : r.worlds = e.config.worlds) :
        Yields (r.perform operation : HostM σ Registry) (·.worlds = e.config.worlds) :=
      (r.perform_agrees operation).mono fun r' h => h.worlds.trans hr
    obtain ⟨hconfig, hworlds⟩ := e.handle_keeps hkeeps event ih host
    rw [hworlds, hconfig]

end Reachable
end Engine
end RegionAccess
