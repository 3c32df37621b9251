import RegionAccess.Proofs.Session.Frames
import RegionAccess.Proofs.Session.Handlers
import RegionAccess.Proofs.Session.Position

/-! The terms on which an actor has a session: the rules it was made with, and whether the actor
does without a bypass. Whoever has no session has the terms on which one would be made, so that
work on sessions keeps everybody's terms. -/
namespace RegionAccess

structure Terms where
  blueprints : List Blueprint
  bypassOff : Bool

def Session.terms (s : Session) : Terms := ⟨s.blueprints, s.bypassOff⟩

/-- The terms of the actor's session, or of the one that would be made for them. -/
def Registry.terms (r : Registry) (id : EntityId) : Terms :=
  match r.session? id with
  | some s => s.terms
  | none => ⟨r.blueprints, false⟩

/-- The operation neither drops sessions nor switches a bypass. -/
def Operation.isWork : Operation → Bool
  | .setBypassOff _ _ | .remove _ | .expire _ => false
  | _ => true

/-- Everybody's terms are kept, and so is every session there was. -/
structure Registry.Attends (r r' : Registry) : Prop where
  terms : r'.terms = r.terms
  kept : ∀ id, r.session? id ≠ none → r'.session? id ≠ none

section
variable {σ : Type} [RegionIndex σ]

namespace Session

theorem anchor_terms (s : Session) (actor : LiveActor) (now : Instant) :
    Yields (s.anchor actor now : HostM σ Session) fun s' => s'.terms = s.terms := by
  refine Yields.bind Yields.any fun found _ => ?_
  refine Yields.bind (Yields.mapM (Handler.start_blueprint actor actor.location now) s.handlers)
    fun handlers hh => Yields.pure ?_
  rw [takeRegions_eq]
  exact congrArg (Terms.mk · s.bypassOff) hh

theorem ensureActive_terms (s : Session) (actor : LiveActor) (now : Instant) :
    Yields (s.ensureActive actor now : HostM σ Session) fun s' => s'.terms = s.terms := by
  unfold ensureActive
  split
  · exact Yields.pure rfl
  · exact s.anchor_terms actor now

theorem judgeMove_terms (s : Session) (actor : LiveActor) (target : Location) (kind : MoveKind)
    (now : Instant) :
    Yields (s.judgeMove actor target kind now : HostM σ _) fun out =>
      out.2.terms = s.terms := by
  have hjudged := s.judgeMove_judged (σ := σ) actor target kind now
  refine (hjudged.and (s.judgeMove_blueprints actor target kind now)).mono fun out h => ?_
  obtain ⟨hout, hblueprints⟩ := h
  have hbypass : out.2.bypassOff = s.bypassOff := by cases hout <;> rfl
  rw [terms, terms, hblueprints, hbypass]

theorem tick_terms (s : Session) (actor : LiveActor) (name : Option String) (now : Instant) :
    Yields (s.tick actor name now : HostM σ Session) fun s' => s'.terms = s.terms := by
  refine Yields.bind (Yields.mapM (Handler.tick_blueprint actor now) s.handlers)
    fun handlers hh => Yields.pure ?_
  exact congrArg (Terms.mk · s.bypassOff) hh

end Session

namespace Registry
variable {r r' : Registry}

theorem terms_of_session {id : EntityId} {s : Session} (h : r.session? id = some s) :
    r.terms id = s.terms := by
  rw [terms, h]

theorem terms_of_none {id : EntityId} (h : r.session? id = none) :
    r.terms id = ⟨r.blueprints, false⟩ := by
  rw [terms, h]

theorem terms_sessionOf (r : Registry) (id : EntityId) (now : Instant) :
    (r.sessionOf id now).terms = r.terms id := by
  unfold sessionOf terms
  cases r.session? id with
  | none => exact congrArg (Terms.mk · false) (Session.blueprints_fresh id r.blueprints now)
  | some s => rfl

theorem hasBypass_eq_terms (r : Registry) (i : Identity) (world : WorldId) :
    r.hasBypass i world = ((i.isFake && (r.worlds.policyOf world).fakePlayersBypass) ||
      (!(r.terms i.id).bypassOff && i.permits (r.config.bypassPermission world.text))) := by
  unfold hasBypass terms
  cases r.session? i.id with
  | none => rfl
  | some s => rfl

/-- Who is touched by nothing keeps their terms. -/
theorem AgreesOutside.terms_eq {touched : EntityId → Prop} (h : r.AgreesOutside touched r')
    {id : EntityId} (hid : ¬ touched id) : r'.terms id = r.terms id := by
  rw [terms, terms, h.sessions id hid, h.blueprints]

namespace Attends

theorem refl (r : Registry) : r.Attends r := ⟨rfl, fun _ h => h⟩

theorem trans {r'' : Registry} (h : r.Attends r') (h' : r'.Attends r'') : r.Attends r'' :=
  ⟨h'.terms.trans h.terms, fun id hid => h'.kept id (h.kept id hid)⟩

theorem store {id : EntityId} {s : Session} (h : s.terms = r.terms id) :
    r.Attends (r.store id s) where
  terms := by
    funext other
    rw [Registry.terms, session?_store]
    by_cases hother : id = other
    · rw [if_pos hother]
      exact h.trans (congrArg r.terms hother)
    · rw [if_neg hother]
      rfl
  kept other hother := by
    rw [session?_store]
    split
    · exact Option.some_ne_none s
    · exact hother

/-- On the same terms, and in a registry set up alike, everybody has the bypass they had. -/
theorem hasBypass_eq {touched : EntityId → Prop} (h : r.Attends r')
    (hagrees : r.AgreesOutside touched r') : r'.hasBypass = r.hasBypass := by
  funext i world
  rw [hasBypass_eq_terms, hasBypass_eq_terms, hagrees.config, hagrees.worlds, h.terms]

end Attends

theorem enter_attends (r : Registry) (actor : LiveActor) (now : Instant) :
    Yields (r.enter actor now : HostM σ Registry) r.Attends := by
  refine Yields.bind (Session.anchor_terms _ actor now) fun s hs => Yields.pure ?_
  have hstore : r.Attends (r.store actor.id s) := .store (hs.trans (r.terms_sessionOf actor.id now))
  exact ⟨hstore.terms, hstore.kept⟩

theorem tickActor_attends (r : Registry) (actor : LiveActor) (now : Instant) :
    Yields (r.tickActor actor now : HostM σ Registry) r.Attends := by
  unfold tickActor
  split
  next => exact Yields.pure (.refl r)
  next =>
    refine Yields.bind (Session.ensureActive_terms _ actor now) fun s hs => ?_
    refine Yields.bind (s.tick_terms actor _ now) fun s' hs' => Yields.pure (.store ?_)
    exact (hs'.trans hs).trans (r.terms_sessionOf actor.id now)

theorem resyncActor_attends (r : Registry) (actor : LiveActor) (now : Instant) :
    Yields (r.resyncActor actor now : HostM σ Registry) r.Attends := by
  unfold resyncActor
  split
  next => exact Yields.pure (.refl r)
  next =>
    split
    next => exact Yields.pure (.refl r)
    next s hs =>
      refine Yields.bind (s.anchor_terms actor now) fun s' hs' => Yields.pure (.store ?_)
      exact hs'.trans (terms_of_session hs).symm

theorem judgeMove_attends (r : Registry) (actor : LiveActor) (target : Location) (kind : MoveKind)
    (now : Instant) :
    Yields (r.judgeMove actor target kind now : HostM σ _) fun out => r.Attends out.2 := by
  have hs := r.terms_sessionOf actor.id now
  unfold judgeMove
  split
  next => exact Yields.pure (.store hs)
  next =>
    refine Yields.bind (Session.ensureActive_terms _ actor now) fun s hactive => ?_
    refine Yields.bind (s.judgeMove_terms actor target kind now) fun out hout => Yields.pure ?_
    exact .store ((hout.trans hactive).trans hs)

theorem judgeRiders_attends (r : Registry) (m : VehicleMove) (riders : List Turn) :
    Yields (r.judgeRiders m riders : HostM σ _) fun out => r.Attends out.2 := by
  induction riders generalizing r with
  | nil => exact Yields.pure (.refl r)
  | cons turn riders ih =>
    refine Yields.bind (r.judgeMove_attends turn.actor m.target .ride turn.moment) ?_
    rintro ⟨back, r'⟩ hfirst
    cases back with
    | some back => exact Yields.pure hfirst
    | none => exact (ih r').mono fun out hrest => hfirst.trans hrest

theorem judgeVehicle_attends (r : Registry) (m : VehicleMove) (riders : List Turn) :
    Yields (r.judgeVehicle m riders : HostM σ _) fun out => r.Attends out.2 := by
  unfold judgeVehicle
  split
  · exact r.judgeRiders_attends m riders
  · exact Yields.pure (.refl r)

/-- Work is done on everybody's own terms. -/
theorem perform_attends (r : Registry) {operation : Operation} (h : operation.isWork = true) :
    Yields (r.perform operation : HostM σ Registry) r.Attends := by
  cases operation with
  | enter actor now => exact r.enter_attends actor now
  | tick actors now =>
    refine Yields.foldlM (R := r.Attends) (fun r' actor hr => ?_) actors (.refl r)
    exact (r'.tickActor_attends actor now).mono fun r'' => hr.trans
  | resync turns =>
    refine Yields.foldlM (R := r.Attends) (fun r' turn hr => ?_) turns (.refl r)
    exact (r'.resyncActor_attends turn.actor turn.moment).mono fun r'' => hr.trans
  | judgeMove actor target kind now =>
    exact Yields.bind (r.judgeMove_attends actor target kind now) fun out h => Yields.pure h
  | judgeVehicle move riders =>
    exact Yields.bind (r.judgeVehicle_attends move riders) fun out h => Yields.pure h
  | setBypassOff actor off => cases h
  | remove actor => cases h
  | expire now => cases h

/-- A switch that takes effect changes that and nothing else about the actor's terms. -/
theorem terms_setBypassOff {id : EntityId} {off : Bool} (h : r.setBypassOff id off = .ok r') :
    r'.terms id = { r.terms id with bypassOff := off } ∧ r'.session? id ≠ none := by
  obtain ⟨s, hs, rfl⟩ := exists_of_setBypassOff h
  have hstored := (r.session?_store id { s with bypassOff := off } id).trans (if_pos rfl)
  rw [terms_of_session hstored, terms_of_session hs, hstored]
  exact ⟨rfl, Option.some_ne_none _⟩

/-- As long as an actor has a session, nothing but a switch of their bypass changes their terms. -/
theorem perform_terms (r : Registry) {operation : Operation} {id : EntityId}
    (h : ∀ off, operation ≠ .setBypassOff id off) :
    Yields (r.perform operation : HostM σ Registry) fun r' =>
      r'.session? id ≠ none → r'.terms id = r.terms id := by
  have hwork (hw : operation.isWork = true) :
      Yields (r.perform operation : HostM σ Registry) fun r' =>
        r'.session? id ≠ none → r'.terms id = r.terms id :=
    (r.perform_attends hw).mono fun r' hr _ => congrFun hr.terms id
  have hdropped {r' : Registry} (hsub : ∀ s, r'.session? id = some s → r.session? id = some s)
      (hs : r'.session? id ≠ none) : r'.terms id = r.terms id := by
    obtain ⟨s, hs⟩ := Option.ne_none_iff_exists'.mp hs
    rw [terms_of_session hs, terms_of_session (hsub s hs)]
  cases operation with
  | setBypassOff actor off =>
    refine (r.perform_agrees (.setBypassOff actor off)).mono fun r' hr _ => hr.terms_eq ?_
    rintro rfl
    exact h off rfl
  | remove actor =>
    apply Yields.pure
    cases hr : r.remove actor with
    | error e => exact fun _ => rfl
    | ok out => exact hdropped fun s hs => session?_of_remove hr hs
  | expire now => exact Yields.pure (hdropped fun s hs => session?_of_expire hs)
  | enter actor now => exact hwork rfl
  | tick actors now => exact hwork rfl
  | resync turns => exact hwork rfl
  | judgeMove actor target kind now => exact hwork rfl
  | judgeVehicle move riders => exact hwork rfl

end Registry
end
end RegionAccess
