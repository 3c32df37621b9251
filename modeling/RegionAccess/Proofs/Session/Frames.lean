import RegionAccess.Proofs.Session.Runs

/-! What operations leave alone. None of them changes how a registry is set up, and each touches
the sessions of the actors it is about and no others. -/
namespace RegionAccess

/-- The second registry is set up like the first, with the same sessions but for the touched. -/
structure Registry.AgreesOutside (touched : EntityId → Prop) (r r' : Registry) : Prop where
  config : r'.config = r.config
  worlds : r'.worlds = r.worlds
  blueprints : r'.blueprints = r.blueprints
  sessions : ∀ id, ¬ touched id → r'.session? id = r.session? id

/-- Whose session an operation may start, change or drop. -/
def Operation.Touches (r : Registry) : Operation → EntityId → Prop
  | .enter actor _, id | .judgeMove actor _ _ _, id => actor.id = id
  | .tick actors _, id => ∃ actor ∈ actors, actor.isOnline = true ∧ actor.id = id
  | .resync turns, id => ∃ turn ∈ turns, turn.actor.isOnline = true ∧ turn.actor.id = id
  | .judgeVehicle _ riders, id => ∃ turn ∈ riders, turn.actor.id = id
  | .setBypassOff actor _, id | .remove actor, id => actor = id
  | .expire now, id => ∃ s, r.session? id = some s ∧
      ¬ now.since s.lastSeen ≤ Span.cappedSeconds r.config.expirySeconds

namespace Registry
variable {touched : EntityId → Prop} {r r' : Registry}

namespace AgreesOutside

theorem refl (r : Registry) : r.AgreesOutside touched r := ⟨rfl, rfl, rfl, fun _ _ => rfl⟩

theorem trans {r'' : Registry} (h : r.AgreesOutside touched r')
    (h' : r'.AgreesOutside touched r'') : r.AgreesOutside touched r'' where
  config := h'.config.trans h.config
  worlds := h'.worlds.trans h.worlds
  blueprints := h'.blueprints.trans h.blueprints
  sessions id hid := (h'.sessions id hid).trans (h.sessions id hid)

theorem mono {more : EntityId → Prop} (h : r.AgreesOutside touched r')
    (hmore : ∀ id, touched id → more id) : r.AgreesOutside more r' where
  config := h.config
  worlds := h.worlds
  blueprints := h.blueprints
  sessions id hid := h.sessions id (mt (hmore id) hid)

theorem store {id : EntityId} (hid : touched id) (r : Registry) (s : Session) :
    r.AgreesOutside touched (r.store id s) where
  config := rfl
  worlds := rfl
  blueprints := rfl
  sessions other hother := by
    rw [session?_store, if_neg]
    rintro rfl
    exact hother hid

/-- Whether an identity has a bypass is between the registry's setup and its own session. -/
theorem hasBypass_eq (h : r.AgreesOutside touched r') {i : Identity} (hi : ¬ touched i.id)
    (world : WorldId) : r'.hasBypass i world = r.hasBypass i world := by
  rw [hasBypass, hasBypass, h.config, h.worlds, h.sessions i.id hi]

/-- A traversal touches what its turns touch. -/
theorem foldlM {σ α : Type} {f : Registry → α → HostM σ Registry} {touched : α → EntityId → Prop}
    (hf : ∀ r a, Yields (f r a) (r.AgreesOutside (touched a))) (as : List α) (r : Registry) :
    Yields (as.foldlM f r) (r.AgreesOutside fun id => ∃ a ∈ as, touched a id) := by
  induction as generalizing r with
  | nil => exact Yields.pure (refl r)
  | cons a as ih =>
    rw [List.foldlM_cons]
    refine Yields.bind (hf r a) fun r' hfirst => (ih r').mono fun r'' hrest => ?_
    refine (hfirst.mono ?_).trans (hrest.mono ?_)
    · exact fun id hid => ⟨a, List.mem_cons_self, hid⟩
    · exact fun id ⟨b, hb, hid⟩ => ⟨b, List.mem_cons_of_mem _ hb, hid⟩

end AgreesOutside

section
variable {σ : Type} [RegionIndex σ] (r : Registry)

theorem enter_agrees (actor : LiveActor) (now : Instant) :
    Yields (r.enter actor now : HostM σ Registry) (r.AgreesOutside (actor.id = ·)) := by
  refine Yields.bind Yields.any fun s _ => Yields.pure ?_
  exact (AgreesOutside.store rfl r s).trans ⟨rfl, rfl, rfl, fun _ _ => rfl⟩

theorem tickActor_agrees (actor : LiveActor) (now : Instant) :
    Yields (r.tickActor actor now : HostM σ Registry)
      (r.AgreesOutside fun id => actor.isOnline = true ∧ actor.id = id) := by
  unfold tickActor
  split
  next => exact Yields.pure (.refl r)
  next hon =>
    refine Yields.bind Yields.any fun _ _ => Yields.bind Yields.any fun s _ => Yields.pure ?_
    exact .store ⟨by simpa using hon, rfl⟩ r s

theorem resyncActor_agrees (actor : LiveActor) (now : Instant) :
    Yields (r.resyncActor actor now : HostM σ Registry)
      (r.AgreesOutside fun id => actor.isOnline = true ∧ actor.id = id) := by
  unfold resyncActor
  split
  next => exact Yields.pure (.refl r)
  next hon =>
    split
    next => exact Yields.pure (.refl r)
    next =>
      refine Yields.bind Yields.any fun s _ => Yields.pure ?_
      exact .store ⟨by simpa using hon, rfl⟩ r s

theorem judgeMove_agrees (actor : LiveActor) (target : Location) (kind : MoveKind)
    (now : Instant) :
    Yields (r.judgeMove actor target kind now : HostM σ _) fun out =>
      r.AgreesOutside (actor.id = ·) out.2 := by
  unfold judgeMove
  split
  next => exact Yields.pure (.store rfl r _)
  next =>
    refine Yields.bind Yields.any fun _ _ => Yields.bind Yields.any fun out _ => Yields.pure ?_
    exact .store rfl r _

theorem judgeRiders_agrees (m : VehicleMove) (riders : List Turn) :
    Yields (r.judgeRiders m riders : HostM σ _) fun out =>
      r.AgreesOutside (fun id => ∃ turn ∈ riders, turn.actor.id = id) out.2 := by
  induction riders generalizing r with
  | nil => exact Yields.pure (.refl r)
  | cons turn riders ih =>
    refine Yields.bind (r.judgeMove_agrees turn.actor m.target .ride turn.moment) ?_
    rintro ⟨back, r'⟩ hfirst
    have hturn : r.AgreesOutside (fun id => ∃ t ∈ turn :: riders, t.actor.id = id) r' :=
      hfirst.mono fun id hid => ⟨turn, List.mem_cons_self, hid⟩
    cases back with
    | some back => exact Yields.pure hturn
    | none =>
      refine (ih r').mono fun out hrest => hturn.trans (hrest.mono ?_)
      exact fun id ⟨t, ht, hid⟩ => ⟨t, List.mem_cons_of_mem _ ht, hid⟩

theorem judgeVehicle_agrees (m : VehicleMove) (riders : List Turn) :
    Yields (r.judgeVehicle m riders : HostM σ _) fun out =>
      r.AgreesOutside (fun id => ∃ turn ∈ riders, turn.actor.id = id) out.2 := by
  unfold judgeVehicle
  split
  · exact r.judgeRiders_agrees m riders
  · exact Yields.pure (.refl r)

end

theorem AgreesOutside.setBypassOff {id : EntityId} {off : Bool}
    (h : r.setBypassOff id off = .ok r') : r.AgreesOutside (id = ·) r' := by
  obtain ⟨s, -, rfl⟩ := exists_of_setBypassOff h
  exact .store rfl r _

theorem AgreesOutside.erase (r : Registry) (id : EntityId) :
    r.AgreesOutside (id = ·) { r with sessions := r.sessions.erase id } :=
  ⟨rfl, rfl, rfl, fun other hother => (r.session?_erase id other).trans (if_neg hother)⟩

theorem AgreesOutside.remove {id : EntityId} {s : Session} (h : r.remove id = .ok (s, r')) :
    r.AgreesOutside (id = ·) r' := by
  obtain ⟨-, -, -, rfl⟩ := exists_of_remove h
  exact .erase r id

theorem AgreesOutside.expire (r : Registry) (now : Instant) :
    r.AgreesOutside (Operation.Touches r (.expire now)) (r.expire now).2 := by
  refine ⟨rfl, rfl, rfl, fun id hid => ?_⟩
  simp only [Registry.expire, session?, Std.ExtTreeMap.getElem?_filter]
  cases hs : r.sessions[id]? with
  | none => rfl
  | some s =>
    have hkept : now.since s.lastSeen ≤ Span.cappedSeconds r.config.expirySeconds :=
      Decidable.byContradiction fun hold => hid ⟨s, hs, hold⟩
    simp [hkept]

/-- An operation keeps how the registry is set up, and every session it is not about. -/
theorem perform_agrees {σ : Type} [RegionIndex σ] (r : Registry) (operation : Operation) :
    Yields (r.perform operation : HostM σ Registry) (r.AgreesOutside (operation.Touches r)) := by
  cases operation with
  | enter actor now => exact r.enter_agrees actor now
  | tick actors now => exact AgreesOutside.foldlM (fun r actor => r.tickActor_agrees actor now) _ r
  | resync turns =>
    exact AgreesOutside.foldlM (fun r turn => r.resyncActor_agrees turn.actor turn.moment) _ r
  | judgeMove actor target kind now =>
    exact Yields.bind (r.judgeMove_agrees actor target kind now) fun out h => Yields.pure h
  | judgeVehicle move riders =>
    exact Yields.bind (r.judgeVehicle_agrees move riders) fun out h => Yields.pure h
  | setBypassOff actor off =>
    apply Yields.pure
    cases hr : r.setBypassOff actor off with
    | error e => exact .refl r
    | ok r' => exact .setBypassOff hr
  | remove actor =>
    apply Yields.pure
    cases hr : r.remove actor with
    | error e => exact .refl r
    | ok out => exact .remove hr
  | expire now => exact Yields.pure (.expire r now)

end Registry
end RegionAccess
