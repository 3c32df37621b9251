import RegionAccess.Proofs.Engine.Runs
import RegionAccess.Proofs.Event.Effect
import RegionAccess.Proofs.Session.Position

/-! Worlds whose regions are switched off. Block changes, damage and vehicles are left alone there.
Moves of players are not: they are judged as they would be with regions switched on. -/
namespace RegionAccess

namespace WorldPolicies

theorem policyOf_insert (p : WorldPolicies) (w : WorldId) (policy : WorldPolicy) (world : WorldId) :
    (p.insert w policy).policyOf world = if w = world then policy else p.policyOf world := by
  unfold policyOf insert
  rw [Std.ExtTreeMap.getElem?_insert]
  simp only [Std.LawfulEqCmp.compare_eq_iff_eq]
  split <;> rfl

/-- The same policies, but for the regions of one world, which are switched on. -/
def enforcing (p : WorldPolicies) (w : WorldId) : WorldPolicies :=
  p.insert w { p.policyOf w with useRegions := true }

theorem enforcing_fakePlayersBypass (p : WorldPolicies) (w world : WorldId) :
    ((p.enforcing w).policyOf world).fakePlayersBypass = (p.policyOf world).fakePlayersBypass := by
  rw [enforcing, policyOf_insert]
  split
  next h => rw [h]
  next => rfl

end WorldPolicies

namespace Registry

def enforcing (r : Registry) (w : WorldId) : Registry := { r with worlds := r.worlds.enforcing w }

theorem hasBypass_enforcing (r : Registry) (w : WorldId) (i : Identity) (world : WorldId) :
    (r.enforcing w).hasBypass i world = r.hasBypass i world := by
  unfold hasBypass enforcing
  rw [WorldPolicies.enforcing_fakePlayersBypass]
  rfl

/-- Judging a move never looks at whether regions are switched on. -/
theorem judgeMove_enforcing {σ : Type} [RegionIndex σ] (r : Registry) (w : WorldId)
    (actor : LiveActor) (target : Location) (kind : MoveKind) (now : Instant) (host : Host σ) :
    ((r.enforcing w).judgeMove actor target kind now host).1.1 =
      (r.judgeMove actor target kind now host).1.1 := by
  unfold judgeMove
  rw [hasBypass_enforcing]
  split <;> rfl

end Registry

namespace Engine
variable {σ : Type} [RegionIndex σ]

/-- The same engine in the same state, with the regions of one world switched on. -/
def enforcing (e : Engine) (w : WorldId) : Engine :=
  { e with
    config := { e.config with worlds := e.config.worlds.enforcing w }
    registry := e.registry.enforcing w }

theorem onDamage_of_free (e : Engine) (platform : Platform) {damage : Damage}
    (h : (e.config.worlds.policyOf damage.location.world).useRegions = false) :
    (e.onDamage platform damage : StateM σ Damage) = pure damage := by
  rw [onDamage, Damage.checkFall, if_pos]
  rw [h, Bool.not_false, Bool.or_true]

theorem onVehicleMove_of_free (e : Engine) {m : VehicleMove}
    (h : (e.registry.worlds.policyOf m.source.world).useRegions = false) (riders : List Turn) :
    (e.onVehicleMove m riders : HostM σ _) = pure (.allowed, e) := by
  rw [onVehicleMove, Registry.judgeVehicle, if_neg]
  · rfl
  · rw [h, Bool.false_and]
    exact Bool.false_ne_true

/-- A world whose regions are switched off is left alone, except that moves there get the verdict
they would get with regions switched on. -/
theorem free_world_is_left_alone {e : Engine} (hr : e.Reachable σ fun _ => True) {w : WorldId}
    (hfree : (e.config.worlds.policyOf w).useRegions = false) (platform : Platform) :
    (∀ (change : BlockChange) (s : σ), change.world = w →
      (e.onBlockChange platform change s).1 = change) ∧
    (∀ (damage : Damage) (s : σ), damage.location.world = w →
      (e.onDamage platform damage s).1 = damage) ∧
    (∀ (m : VehicleMove) riders (host : Host σ), m.source.world = w →
      (e.onVehicleMove m riders host).1 = (.allowed, e)) ∧
    ∀ (actor : LiveActor) target kind now (host : Host σ),
      let back := (e.onMove actor target kind now host).1.1
      back = ((e.enforcing w).onMove actor target kind now host).1.1 ∧
      ∀ position, back = some position → e.registry.Refuses actor target kind position := by
  refine ⟨?_, ?_, ?_, fun actor target kind now host => ⟨?_, ?_⟩⟩
  · rintro change s rfl
    have hexempt : change.isExempt e.config.worlds = true := by
      rw [BlockChange.isExempt, hfree, Bool.not_false, Bool.or_true]
    rw [e.onBlockChange_of_exempt platform hexempt]
    rfl
  · rintro damage s rfl
    rw [e.onDamage_of_free platform hfree]
    rfl
  · rintro m riders host rfl
    rw [← hr.worlds_eq] at hfree
    rw [e.onVehicleMove_of_free hfree]
    rfl
  · exact (e.registry.judgeMove_enforcing w actor target kind now host).symm
  · have hplaced := (sessionInvariant_placed σ _).reachable hr.registry trivial
    exact Registry.judgeMove_refuses hplaced actor target kind now host

end Engine

/-- A visitor joins before a town that asks for no protection, and a blast at its border goes
ahead. -/
theorem free_world_is_left_alone_at_town :
    let host : Host (Served Town.steadyTables) := { index := {} }
    let e := ((Engine.new { worlds := { fallback := { useRegions := false } } }).handle
      (.join Town.visitor ⟨0⟩) host).1
    e.Reachable (Served Town.steadyTables) (fun _ => True) ∧
    (e.config.worlds.policyOf Town.world).useRegions = false ∧
    (e.onBlockChange Town.platform Town.blast host.index).1 = Town.blast ∧
    (e.onMove Town.visitor (Town.place 10) .walk ⟨1⟩ host).1.1 =
      ((e.enforcing Town.world).onMove Town.visitor (Town.place 10) .walk ⟨1⟩ host).1.1 := by
  intro host e
  have hr : e.Reachable (Served Town.steadyTables) fun _ => True := .step _ _ (.new _)
  have hfree : (e.config.worlds.policyOf Town.world).useRegions = false := by decide
  obtain ⟨hchange, -, -, hmove⟩ := Engine.free_world_is_left_alone hr hfree Town.platform
  exact ⟨hr, hfree, hchange Town.blast host.index rfl,
    (hmove Town.visitor (Town.place 10) .walk ⟨1⟩ host).1⟩

/-- The visitor is refused entry even so. -/
theorem move_in_free_world_is_refused_at_town :
    let host : Host (Served Town.steadyTables) := { index := {} }
    let e := ((Engine.new { worlds := { fallback := { useRegions := false } } }).handle
      (.join Town.visitor ⟨0⟩) host).1
    e.Reachable (Served Town.steadyTables) (fun _ => True) ∧
    (e.config.worlds.policyOf Town.world).useRegions = false ∧
    (e.registry.judgedFrom Town.visitor).world = Town.world ∧
    (e.onMove Town.visitor (Town.place 10) .walk ⟨1⟩ host).1.1 ≠ none := by
  intro host e
  have hrefused : (e.onMove Town.visitor (Town.place 10) .walk ⟨1⟩ host).1.1.isSome = true := by
    decide +kernel
  exact ⟨.step _ _ (.new _), by decide, rfl, Option.isSome_iff_ne_none.mp hrefused⟩

end RegionAccess
