import RegionAccess.Proofs.Session.Handlers
import RegionAccess.Proofs.Session.Rounds

/-! What passes in the rounds of a session and of a registry. Watches change in rounds and nowhere
else, and the host is told of changes of flags in rounds and nowhere else. -/
namespace RegionAccess

section
variable {σ : Type} [RegionIndex σ]

/-- From handlers on a host to others through rounds of one actor: watches changed in those, and the
host was told of changes of flags in those. -/
structure Passes (id : EntityId) (before : List Handler × Host σ) (rounds : List (Round σ))
    (after : List Handler × Host σ) : Prop where
  linked : Linked before.1 rounds after.1
  own : ∀ round ∈ rounds, round.id = id
  reports : after.2.reports = before.2.reports ++ rounds.flatMap (·.reports)

namespace Passes
variable {id : EntityId} {before between after : List Handler × Host σ}
  {rounds more : List (Round σ)}

theorem idle {handlers : List Handler} {host host' : Host σ} (h : host'.reports = host.reports) :
    Passes id (handlers, host) [] (handlers, host') :=
  ⟨.nil rfl, by simp, h.trans (List.append_nil _).symm⟩

/-- The rounds are all of one actor's. -/
theorem filter_rounds (h : Passes id before rounds after) (other : EntityId) :
    rounds.filter (·.id = other) = if id = other then rounds else [] := by
  split
  next hother =>
    refine List.filter_eq_self.mpr fun round hround => decide_eq_true ?_
    exact (h.own round hround).trans hother
  next hother =>
    refine List.filter_eq_nil_iff.mpr fun round hround hid => hother ?_
    exact (h.own round hround).symm.trans (of_decide_eq_true hid)

theorem trans (h : Passes id before rounds between) (h' : Passes id between more after) :
    Passes id before (rounds ++ more) after where
  linked := h.linked.append h'.linked
  own := List.forall_mem_append.mpr ⟨h.own, h'.own⟩
  reports := by rw [h'.reports, h.reports, List.flatMap_append, List.append_assoc]

theorem once (round : Round σ) {host : Host σ} (h : round.host.reports = host.reports) :
    Passes round.id (round.handlers, host) [round] round.outcome where
  linked := .singleton round
  own := by simp
  reports := by rw [round.outcome_reports, h, List.flatMap_singleton]

end Passes

/-- On every host, a computation and the rounds that are told beside it lead from handlers to those
of its value. -/
def Leads {α : Type} (id : EntityId) (before : List Handler) (view : α → List Handler)
    (x : HostM σ α) (rounds : HostM σ (List (Round σ))) : Prop :=
  ∀ host, Passes id (before, host) (rounds host).1 (view (x host).1, (x host).2)

namespace Leads
variable {α β : Type} {id : EntityId} {before : List Handler} {view : α → List Handler}

theorem still {a : α} (h : view a = before) :
    Leads (σ := σ) id before view (pure a) (pure []) := by
  subst h
  exact fun host => .idle rfl

/-- Both ask the same. No watch changes by it, and nobody hears of a change meanwhile. -/
theorem ask {q : HostM σ β} {asked : β → List Handler} {f : β → HostM σ α}
    {rounds : β → HostM σ (List (Round σ))}
    (hwatches : Yields q fun b => (asked b).map (·.watch?) = before.map (·.watch?))
    (hreports : ∀ host, (q host).2.reports = host.reports)
    (h : ∀ b, Leads id (asked b) view (f b) (rounds b)) :
    Leads id before view (q >>= f) (q >>= rounds) := fun host =>
  have hrest := h (q host).1 (q host).2
  ⟨hrest.linked.of_same (hwatches host), hrest.own,
    hrest.reports.trans (congrArg (· ++ _) (hreports host))⟩

theorem consult {question : StateM σ β} {f : β → HostM σ α}
    {rounds : β → HostM σ (List (Round σ))} (h : ∀ b, Leads id before view (f b) (rounds b)) :
    Leads id before view (RegionAccess.consult question >>= f)
      (RegionAccess.consult question >>= rounds) := by
  have hsame : Yields (RegionAccess.consult question : HostM σ β) fun _ =>
      before.map (·.watch?) = before.map (·.watch?) := fun _ => rfl
  exact ask hsame (fun _ => rfl) h

end Leads

theorem allPermit_watches (m : Move) (handlers : List Handler) :
    Yields (allPermit m handlers : HostM σ _) fun out =>
      out.2.map (·.watch?) = handlers.map (·.watch?) := by
  refine allPermit_keeps _ m fun h _ => ?_
  cases h with
  | entryExit => exact Yields.bind Yields.any fun _ _ => Yields.pure rfl
  | watch w => exact Yields.pure rfl
  | host rule memory => exact Yields.bind Yields.any fun _ _ => Yields.pure rfl

theorem allPermit_reports (m : Move) (handlers : List Handler) (host : Host σ) :
    (allPermit m handlers host).2.reports = host.reports := by
  refine (?_ : Keeps (·.reports = host.reports) (allPermit m handlers : HostM σ _)) host rfl
  have hfirst (h : Handler) : Keeps (·.reports = host.reports) (h.permits m : HostM σ _) := by
    cases h with
    | entryExit => exact Keeps.bind (fun _ h => h) fun _ => Keeps.pure _
    | watch w => exact Keeps.pure _
    | host rule memory =>
      refine Keeps.bind (fun before hbefore => ?_) fun _ => Keeps.pure _
      obtain ⟨words, hwords⟩ := Dialogue.hold_remarks ((rule.judge m).dialogue memory) before
      rw [← hbefore, Host.reports, Reaction.run, hwords]
      simp [Host.reports, Notice.isReport]
  induction handlers with
  | nil => exact Keeps.pure _
  | cons h handlers ih =>
    exact (hfirst h).bind fun _ => Keeps.ite (ih.bind fun _ => Keeps.pure _) (Keeps.pure _)

namespace Session

theorem anchor_passes (s : Session) (actor : LiveActor) (now : Instant) (host : Host σ) :
    let out := s.anchor actor now host
    Passes actor.id (s.handlers, host) [s.startRound actor now host] (out.1.handlers, out.2) :=
  .once (s.startRound actor now host) rfl

theorem ensureActive_passes (s : Session) (actor : LiveActor) (now : Instant) (host : Host σ) :
    let out := s.ensureActive actor now host
    Passes actor.id (s.handlers, host) (s.ensureRounds actor now host) (out.1.handlers, out.2) := by
  unfold ensureActive ensureRounds
  split
  · exact .idle rfl
  · exact s.anchor_passes actor now host

theorem tick_passes (s : Session) (actor : LiveActor) (name : Option String) (now : Instant)
    (host : Host σ) :
    let out := s.tick actor name now host
    Passes actor.id (s.handlers, host) [⟨.tick actor, now, s.handlers, host⟩]
      (out.1.handlers, out.2) :=
  .once ⟨.tick actor, now, s.handlers, host⟩ rfl

theorem judgeCrossing_leads (s : Session) (actor : LiveActor) (source target : Location)
    (here there : RegionSet) (kind : MoveKind) (now : Instant) :
    Leads (σ := σ) actor.id s.handlers (·.2.handlers)
      (s.judgeCrossing actor source target here there kind now)
      (s.crossRounds ⟨actor, source, target, here, there, kind⟩ now) := by
  refine .ask (allPermit_watches _ s.handlers) (allPermit_reports _ s.handlers)
    fun ⟨permitted, handlers⟩ => ?_
  dsimp only
  split
  · exact .still rfl
  · let move : Move := ⟨actor, source, target, here, there, kind⟩
    exact fun host => .once ⟨.cross move, now, handlers, host⟩ rfl

theorem judgeMove_leads (s : Session) (actor : LiveActor) (target : Location) (kind : MoveKind)
    (now : Instant) :
    Leads (σ := σ) actor.id s.handlers (·.2.handlers) (s.judgeMove actor target kind now)
      (s.moveRounds actor target kind now) := by
  cases hl : s.lastValid with
  | none =>
    simp only [judgeMove, moveRounds, hl]
    exact .still rfl
  | some source =>
    cases hleaves : source.leavesBlock target with
    | false =>
      simp only [judgeMove, moveRounds, hl, hleaves, Bool.not_false, if_true]
      exact .still rfl
    | true =>
      simp only [judgeMove, moveRounds, hl, hleaves, Bool.not_true, Bool.false_eq_true, if_false]
      -- the judgement and its rounds look up the same regions, at either end
      refine .consult fun found => ?_
      cases found with
      | error e => exact .still (s.moveUnseen_handlers source target kind)
      | ok here =>
        refine .consult fun found => ?_
        cases found with
        | error e => exact .still (moveUnseen_handlers _ source target kind)
        | ok there =>
          exact (s.learnRegions here).judgeCrossing_leads actor source target here there kind now

end Session

namespace Registry
variable {r : Registry} {host : Host σ}

theorem handlersOf_of_session {id : EntityId} {s : Session} (h : r.session? id = some s) :
    r.handlersOf id = s.handlers := by
  rw [handlersOf, h]
  rfl

theorem handlersOf_store (r : Registry) (id : EntityId) (s : Session) (other : EntityId) :
    (r.store id s).handlersOf other = if id = other then s.handlers else r.handlersOf other := by
  rw [handlersOf, session?_store]
  split <;> rfl

theorem sessionOf_handlers (r : Registry) (id : EntityId) (now : Instant) :
    (r.sessionOf id now).handlers = r.handlersOf id := by
  unfold sessionOf handlersOf
  cases r.session? id <;> rfl

/-- From one registry on a host to another through rounds: everybody's handlers changed in theirs,
and the host was told of changes of flags in those. -/
structure Proceeds (before : Registry × Host σ) (rounds : List (Round σ))
    (after : Registry × Host σ) : Prop where
  linked : ∀ id, Linked (before.1.handlersOf id) (rounds.filter (·.id = id))
    (after.1.handlersOf id)
  reports : after.2.reports = before.2.reports ++ rounds.flatMap (·.reports)

namespace Proceeds
variable {before between after : Registry × Host σ} {rounds more : List (Round σ)}

theorem refl (before : Registry × Host σ) : Proceeds before [] before :=
  ⟨fun _ => .nil rfl, (List.append_nil _).symm⟩

theorem trans (h : Proceeds before rounds between) (h' : Proceeds between more after) :
    Proceeds before (rounds ++ more) after where
  linked id := by
    rw [List.filter_append]
    exact (h.linked id).append (h'.linked id)
  reports := by rw [h'.reports, h.reports, List.flatMap_append, List.append_assoc]

theorem store {id : EntityId} {s s' : Session} {host' : Host σ} (hs : s.handlers = r.handlersOf id)
    (h : Passes id (s.handlers, host) rounds (s'.handlers, host')) :
    Proceeds (r, host) rounds (r.store id s', host') where
  linked other := by
    rw [handlersOf_store, h.filter_rounds]
    split
    next hother =>
      rw [← hother, ← hs]
      exact h.linked
    next => exact .nil rfl
  reports := h.reports

theorem inTurn {α : Type} {work : Registry → α → HostM σ Registry}
    {rounds : Registry → α → Host σ → List (Round σ)}
    (h : ∀ r a host, Proceeds (r, host) (rounds r a host) (work r a host)) (as : List α)
    (r : Registry) (host : Host σ) :
    Proceeds (r, host) (roundsInTurn work rounds as r host) (as.foldlM work r host) := by
  induction as generalizing r host with
  | nil => exact .refl _
  | cons a as ih =>
    rw [List.foldlM_cons]
    exact (h r a host).trans (ih (work r a host).1 (work r a host).2)

end Proceeds

theorem enter_proceeds (r : Registry) (actor : LiveActor) (now : Instant) (host : Host σ) :
    Proceeds (r, host) [(r.sessionOf actor.id now).startRound actor now host]
      (r.enter actor now host) := by
  have hstore := Proceeds.store (r.sessionOf_handlers actor.id now)
    ((r.sessionOf actor.id now).anchor_passes actor now host)
  exact ⟨hstore.linked, hstore.reports⟩

theorem tickActor_proceeds (r : Registry) (actor : LiveActor) (now : Instant) (host : Host σ) :
    Proceeds (r, host) (r.tickActorRounds actor now host) (r.tickActor actor now host) := by
  unfold tickActor tickActorRounds
  split
  · exact .refl _
  · have hactive := (r.sessionOf actor.id now).ensureActive_passes actor now host
    exact .store (r.sessionOf_handlers actor.id now)
      (hactive.trans (Session.tick_passes _ actor _ now _))

theorem resyncActor_proceeds (r : Registry) (actor : LiveActor) (now : Instant) (host : Host σ) :
    Proceeds (r, host) (r.resyncActorRounds actor now host) (r.resyncActor actor now host) := by
  unfold resyncActor resyncActorRounds
  split
  · exact .refl _
  · cases hs : r.session? actor.id with
    | none => exact .refl _
    | some s =>
      exact .store (handlersOf_of_session hs).symm (s.anchor_passes actor now host)

theorem judgeMove_proceeds (r : Registry) (actor : LiveActor) (target : Location) (kind : MoveKind)
    (now : Instant) (host : Host σ) :
    let out := r.judgeMove actor target kind now host
    Proceeds (r, host) (r.moveRounds actor target kind now host) (out.1.2, out.2) := by
  have hs := r.sessionOf_handlers actor.id now
  unfold judgeMove moveRounds
  split
  · exact .store hs (.idle rfl)
  · have hactive := (r.sessionOf actor.id now).ensureActive_passes actor now host
    exact .store hs (hactive.trans (Session.judgeMove_leads _ actor target kind now _))

theorem judgeRiders_proceeds (r : Registry) (m : VehicleMove) (riders : List Turn)
    (host : Host σ) :
    let out := r.judgeRiders m riders host
    Proceeds (r, host) (riderRounds m riders r host) (out.1.2, out.2) := by
  induction riders generalizing r host with
  | nil => exact .refl _
  | cons turn riders ih =>
    have hfirst := r.judgeMove_proceeds turn.actor m.target .ride turn.moment host
    simp only [judgeRiders, riderRounds, bind, StateT.bind]
    generalize r.judgeMove turn.actor m.target .ride turn.moment host = out at hfirst ⊢
    obtain ⟨⟨back, r'⟩, host'⟩ := out
    cases back with
    | none => exact hfirst.trans (ih r' host')
    | some back =>
      show Proceeds _ (_ ++ []) _
      rw [List.append_nil]
      exact hfirst

/-- A registry without some of its sessions, on the same host. -/
theorem linked_of_dropped {r' : Registry}
    (h : ∀ id s, r'.session? id = some s → r.session? id = some s) (id : EntityId) (s : Session)
    (hs : r'.session? id = some s) : Linked (σ := σ) (r.handlersOf id) [] s.handlers := by
  rw [handlersOf_of_session (h id s hs)]
  exact .nil rfl

theorem perform_proceeds (r : Registry) (operation : Operation) (host : Host σ) :
    let after := r.perform operation host
    (∀ id s, after.1.session? id = some s →
      Linked (r.handlersOf id) ((r.rounds host operation).filter (·.id = id)) s.handlers) ∧
    after.2.reports = host.reports ++ (r.rounds host operation).flatMap (·.reports) := by
  intro after
  have hwork (h : Proceeds (r, host) (r.rounds host operation) after) :
      (∀ id s, after.1.session? id = some s →
        Linked (r.handlersOf id) ((r.rounds host operation).filter (·.id = id)) s.handlers) ∧
      after.2.reports = host.reports ++ (r.rounds host operation).flatMap (·.reports) := by
    refine ⟨fun id s hs => ?_, h.reports⟩
    rw [← handlersOf_of_session hs]
    exact h.linked id
  -- only the last two drop sessions, and they leave the others as they were
  cases operation with
  | enter actor now => exact hwork (r.enter_proceeds actor now host)
  | tick actors now =>
    exact hwork (.inTurn (fun r actor => r.tickActor_proceeds actor now) actors r host)
  | resync turns =>
    exact hwork
      (.inTurn (fun r (turn : Turn) => r.resyncActor_proceeds turn.actor turn.moment) turns r host)
  | judgeMove actor target kind now => exact hwork (r.judgeMove_proceeds actor target kind now host)
  | judgeVehicle m riders =>
    apply hwork
    show Proceeds (r, host) (if _ then _ else _)
      ((r.judgeVehicle m riders host).1.2, (r.judgeVehicle m riders host).2)
    unfold judgeVehicle
    split
    · exact r.judgeRiders_proceeds m riders host
    · exact .refl _
  | setBypassOff actor off =>
    apply hwork
    show Proceeds (r, host) [] ((r.setBypassOff actor off).toOption.getD r, host)
    cases hr : r.setBypassOff actor off with
    | error e => exact .refl _
    | ok r' =>
      obtain ⟨s, hs, rfl⟩ := exists_of_setBypassOff hr
      exact .store (handlersOf_of_session hs).symm (.idle rfl)
  | remove actor =>
    refine ⟨linked_of_dropped fun id s hs => ?_, (List.append_nil _).symm⟩
    replace hs : (((r.remove actor).toOption.map (·.2)).getD r).session? id = some s := hs
    cases hr : r.remove actor with
    | error e => rwa [hr] at hs
    | ok out =>
      rw [hr] at hs
      exact session?_of_remove hr hs
  | expire now =>
    exact ⟨linked_of_dropped fun id s => session?_of_expire, (List.append_nil _).symm⟩

end Registry
end
end RegionAccess
