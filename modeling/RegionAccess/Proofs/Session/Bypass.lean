import RegionAccess.Proofs.Session.History

/-! A bypass that was switched off stays off until it is switched on or the session ends: none of
the work on sessions gives it back. -/
namespace RegionAccess

namespace History
variable {σ : Type} [RegionIndex σ]

/-- In the session that the actor has, their bypass was switched, and this is how it was switched
last. -/
inductive Switched (id : EntityId) (off : Bool) : History σ → Prop where
  | switched {h : History σ} {r' : Registry} (host : Host σ) :
      h.registry.setBypassOff id off = .ok r' →
      Switched id off (h.step (.setBypassOff id off) host)
  | register {h : History σ} (blueprint : Blueprint) : Switched id off h →
      Switched id off (h.register blueprint)
  | step {h : History σ} (operation : Operation) (host : Host σ) : Switched id off h →
      (∀ off', operation ≠ .setBypassOff id off') → (h.step operation host).HasSession id →
      Switched id off (h.step operation host)

theorem registry_setBypassOff {h : History σ} {id : EntityId} {off : Bool} {r' : Registry}
    (hr : h.registry.setBypassOff id off = .ok r') (host : Host σ) :
    (h.step (.setBypassOff id off) host).registry = r' := by
  show (h.registry.setBypassOff id off).toOption.getD h.registry = r'
  rw [hr]
  rfl

theorem exists_setBypassOff {h : History σ} {id : EntityId} (hs : h.HasSession id) (off : Bool) :
    ∃ r', h.registry.setBypassOff id off = .ok r' := by
  obtain ⟨s, hs⟩ := Option.ne_none_iff_exists'.mp hs
  exact ⟨_, by rw [Registry.setBypassOff, hs]⟩

/-- Without a session there is nothing to switch. -/
theorem setBypassOff_eq_error {h : History σ} {id : EntityId} (hnone : ¬ h.HasSession id)
    (off : Bool) : h.registry.setBypassOff id off = .error (.notFound id) := by
  rw [Registry.setBypassOff, Classical.not_not.mp hnone]

theorem registry_of_not_hasSession {h : History σ} {id : EntityId} (hnone : ¬ h.HasSession id)
    (off : Bool) (host : Host σ) :
    (h.step (.setBypassOff id off) host).registry = h.registry := by
  show (h.registry.setBypassOff id off).toOption.getD h.registry = h.registry
  rw [setBypassOff_eq_error hnone]
  rfl

/-- The last switch is what the session still goes by. -/
theorem Switched.terms {h : History σ} {id : EntityId} {off : Bool} (hlast : Switched id off h) :
    h.HasSession id ∧ (h.registry.terms id).bypassOff = off := by
  induction hlast with
  | switched host hr =>
    obtain ⟨hterms, hs⟩ := Registry.terms_setBypassOff hr
    rw [HasSession, registry_setBypassOff hr host, hterms]
    exact ⟨hs, rfl⟩
  | register blueprint _ ih =>
    exact ⟨ih.1, (congrArg Terms.bypassOff (terms_register _ blueprint ih.1)).trans ih.2⟩
  | @step h operation host _ hother hs ih =>
    have hterms := h.registry.perform_terms hother host hs
    exact ⟨hs, (congrArg Terms.bypassOff hterms).trans ih.2⟩

/-- No work on sessions undoes a switch. -/
theorem Switched.work {h : History σ} {id : EntityId} {off : Bool} (hlast : Switched id off h)
    {operation : Operation} (hwork : operation.isWork = true) (host : Host σ) :
    Switched id off (h.step operation host) := by
  have hattends := h.registry.perform_attends hwork host
  refine hlast.step operation host ?_ (hattends.kept id hlast.terms.1)
  rintro off' rfl
  cases hwork

theorem hasSession_of_bypassOff {h : History σ} {id : EntityId}
    (hoff : (h.registry.terms id).bypassOff = true) : h.HasSession id := by
  intro hnone
  rw [Registry.terms_of_none hnone] at hoff
  cases hoff

/-- Nobody does without a bypass but whoever was last told to. -/
theorem switched_of_bypassOff {h : History σ} {id : EntityId}
    (hoff : (h.registry.terms id).bypassOff = true) : Switched id true h := by
  induction h with
  | new config worlds =>
    exact absurd (hasSession_of_bypassOff hoff) (not_hasSession_new config worlds id)
  | register h blueprint ih =>
    have hs : (h.register blueprint).HasSession id := hasSession_of_bypassOff hoff
    rw [terms_register h blueprint hs] at hoff
    exact (ih hoff).register blueprint
  | step h operation host ih =>
    have hs := hasSession_of_bypassOff hoff
    by_cases hswitch : ∃ off, operation = .setBypassOff id off
    · obtain ⟨off, rfl⟩ := hswitch
      by_cases hbefore : h.HasSession id
      · obtain ⟨r', hr⟩ := exists_setBypassOff hbefore off
        rw [registry_setBypassOff hr host, (Registry.terms_setBypassOff hr).1] at hoff
        obtain rfl : off = true := hoff
        exact .switched host hr
      · rw [HasSession, registry_of_not_hasSession hbefore off host] at hs
        exact absurd hs hbefore
    · have hother : ∀ off, operation ≠ .setBypassOff id off := fun off h => hswitch ⟨off, h⟩
      have hterms := h.registry.perform_terms hother host hs
      exact (ih (hterms ▸ hoff)).step operation host hother hs

/-- An actor does with their bypass while they have no session, or were not told otherwise since
it began. -/
theorem bypassOff_eq_false_iff {h : History σ} {id : EntityId} :
    (h.registry.terms id).bypassOff = false ↔
      ¬ h.HasSession id ∨ ∀ off, Switched id off h → off = false := by
  constructor
  · exact fun hoff => .inr fun off hlast => hlast.terms.2.symm.trans hoff
  · rintro (hnone | hlast)
    · rw [Registry.terms_of_none (Classical.not_not.mp hnone)]
    · refine Bool.eq_false_iff.mpr fun hoff => ?_
      exact Bool.noConfusion (hlast true (switched_of_bypassOff hoff))

/-- A bypass is had by automation where the world says so, and by whoever is permitted and was not
last told, in the session they have, to do without it. No work on sessions gives one or takes one,
and without a session there is nothing to switch. -/
theorem bypass_follows_last_switch (h : History σ) :
    (∀ (i : Identity) (world : WorldId), h.registry.hasBypass i world = true ↔
      (i.isFake = true ∧ (h.registry.worlds.policyOf world).fakePlayersBypass = true) ∨
      (i.permits (h.registry.config.bypassPermission world.text) = true ∧
        (¬ h.HasSession i.id ∨ ∀ off, Switched i.id off h → off = false))) ∧
    (∀ operation host, operation.isWork = true →
      (h.step operation host).registry.hasBypass = h.registry.hasBypass) ∧
    ∀ id off, ¬ h.HasSession id → h.registry.setBypassOff id off = .error (.notFound id) ∧
      ∀ host, (h.step (.setBypassOff id off) host).registry = h.registry := by
  refine ⟨fun i world => ?_, fun operation host hwork => ?_, fun id off hnone => ?_⟩
  · rw [Registry.hasBypass_eq_terms, ← bypassOff_eq_false_iff]
    simp [and_comm]
  · have hagrees := h.registry.perform_agrees operation host
    have hattends := h.registry.perform_attends hwork host
    funext i world
    rw [registry, Registry.hasBypass_eq_terms, Registry.hasBypass_eq_terms, hagrees.config,
      hagrees.worlds, hattends.terms]
  · exact ⟨setBypassOff_eq_error hnone off, registry_of_not_hasSession hnone off⟩

end History

/-- An administrator does without their bypass: joining again and riding to town leave it so. -/
theorem bypass_follows_last_switch_in_town :
    let admin : LiveActor := { Town.visitor with permits := fun _ => true }
    let joined : History (Served Town.tables) :=
      (History.new {} {}).step (.enter admin ⟨0⟩) (Town.hostAfter 0)
    let off := joined.step (.setBypassOff admin.id true) (Town.hostAfter 1)
    let again := off.step (.enter admin ⟨1⟩) (Town.hostAfter 1)
    let h := again.step (.judgeMove admin (Town.place 10) .ride ⟨2⟩) (Town.hostAfter 2)
    History.Switched admin.id true h ∧
    joined.registry.hasBypass admin.toIdentity Town.world = true ∧
    h.registry.hasBypass admin.toIdentity Town.world = false := by
  intro admin joined off again h
  have hjoined : joined.HasSession admin.id := Option.isSome_iff_ne_none.mp (by decide)
  obtain ⟨r, hr⟩ := History.exists_setBypassOff hjoined true
  have hswitched : History.Switched admin.id true off := .switched (Town.hostAfter 1) hr
  have hagain : History.Switched admin.id true again := hswitched.work rfl _
  have hlast : History.Switched admin.id true h := hagain.work rfl _
  refine ⟨hlast, by decide, ?_⟩
  refine Bool.eq_false_iff.mpr fun hbypass => ?_
  rcases (h.bypass_follows_last_switch.1 admin.toIdentity Town.world).mp hbypass with
    hfake | ⟨-, hnone | hoff⟩
  · exact Bool.noConfusion hfake.1
  · exact hnone hlast.terms.1
  · exact Bool.noConfusion (hoff true hlast)

end RegionAccess
