import Mathlib.Data.List.Destutter
import RegionAccess.Proofs.Session.History
import RegionAccess.Proofs.Session.Passage

/-! What watches report over a history. Every round evaluates each watch of the session once, and a
watch sends a value where it is not the one before. -/
namespace RegionAccess

/-- The values that are not the one before them, after a last one there may have been. -/
def changes : Option Bool → List Bool → List Bool
  | _, [] => []
  | last, value :: values =>
      if last = some value then changes last values else value :: changes (some value) values

theorem cons_changes (value : Bool) (values : List Bool) :
    value :: changes (some value) values = values.destutter' (· ≠ ·) value := by
  induction values generalizing value with
  | nil => rfl
  | cons next values ih =>
    rw [changes]
    by_cases h : value = next
    · rw [if_pos (congrArg some h), List.destutter'_cons_neg _ (not_not_intro h), ih]
    · rw [if_neg (mt Option.some.inj h), List.destutter'_cons_pos _ h, ih]

theorem changes_none (values : List Bool) : changes none values = values.destutter (· ≠ ·) := by
  cases values with
  | nil => rfl
  | cons value values =>
    rw [List.destutter_cons', ← cons_changes]
    rfl

theorem changes_none_head? (values : List Bool) : (changes none values).head? = values.head? := by
  cases values <;> rfl

/-- The last change is to the last value. -/
theorem changes_getLast? (last : Option Bool) (values : List Bool) :
    (changes last values).getLast?.or last = values.getLast?.or last := by
  induction values generalizing last with
  | nil => rfl
  | cons value values ih =>
    have hlast (rest : List Bool) :
        (value :: rest).getLast?.or last = rest.getLast?.or (some value) := by
      rw [List.getLast?_cons, Option.some_or, Option.or_some]
    rw [changes, hlast]
    split
    next h => rw [ih, h]
    next => rw [hlast, ih]

section
variable {σ : Type} [RegionIndex σ]

/-! One handler through the rounds. -/

theorem partsOf_handlers (occasion : Occasion) (now : Instant) (handlers : List Handler)
    (host : Host σ) : (partsOf occasion now handlers host).map (·.handler) = handlers := by
  induction handlers generalizing host with
  | nil => rfl
  | cons h handlers ih => exact congrArg (h :: ·) (ih _)

theorem partsOf_occasion {occasion : Occasion} {now : Instant} {handlers : List Handler}
    {host : Host σ} {p : Part σ} (hp : p ∈ partsOf occasion now handlers host) :
    p.occasion = occasion := by
  induction handlers generalizing host with
  | nil => cases hp
  | cons h handlers ih =>
    rcases List.mem_cons.mp hp with rfl | hp
    · rfl
    · exact ih hp

/-- A watch that took part still follows its flag, and its last value is what it evaluated. -/
theorem Part.lastValue_of_after {p : Part σ} {w : FlagWatch} (h : p.after.1 = .watch w) :
    w.lastValue = some (p.verdict w.flag) := by
  have hblueprint : p.after.1.blueprint = p.handler.blueprint := by
    unfold after Handler.attend
    cases p.occasion with
    | start actor => exact Handler.start_blueprint actor actor.location p.moment p.handler p.host
    | cross move => exact Handler.cross_blueprint move p.moment p.handler p.host
    | tick actor => exact Handler.tick_blueprint actor p.moment p.handler p.host
  rw [h] at hblueprint
  cases hp : p.handler with
  | entryExit => rw [hp] at hblueprint; cases hblueprint
  | host rule memory => rw [hp] at hblueprint; cases hblueprint
  | watch old =>
    obtain ⟨w', hafter, hflag, hlast, -⟩ := Part.after_watch hp
    have hw : w = w' := Handler.watch.inj (h.symm.trans hafter)
    rw [hw, hflag, hlast]

/-- What the handler at a place does in the rounds, one part after the other. -/
def partsAt (k : Nat) (rounds : List (Round σ)) : List (Part σ) := rounds.filterMap (·.parts[k]?)

/-- Where no watch changed, each is where it was. -/
theorem watch_of_same {first last : List Handler} {k : Nat} {w : FlagWatch}
    (h : last.map (·.watch?) = first.map (·.watch?)) (hw : first[k]? = some (.watch w)) :
    last[k]? = some (.watch w) := by
  have hlast : (last.map (·.watch?))[k]? = some (some w) := by
    rw [h, List.getElem?_map, hw]
    rfl
  rw [List.getElem?_map] at hlast
  obtain ⟨handler, hhandler, hwatch⟩ := Option.map_eq_some_iff.mp hlast
  rw [hhandler, Handler.eq_of_watch? hwatch]

/-- A watch that goes through rounds sends the values it evaluates that are not the one before, and
remembers the last of them. -/
theorem Linked.watch {first last : List Handler} {rounds : List (Round σ)} {id : EntityId} {k : Nat}
    {w : FlagWatch} (h : Linked first rounds last) (hown : ∀ round ∈ rounds, round.id = id)
    (hw : first[k]? = some (.watch w)) :
    let values := (partsAt k rounds).map (·.verdict w.flag)
    ∃ w', last[k]? = some (.watch w') ∧ w'.flag = w.flag ∧
      w'.lastValue = values.getLast?.or w.lastValue ∧
      (partsAt k rounds).flatMap (·.sent) =
        (changes w.lastValue values).map (.flagChanged id w.flag) := by
  -- the first round sets the last value that the rest goes on from
  induction h generalizing w with
  | nil hsame => exact ⟨w, watch_of_same hsame hw, rfl, rfl, rfl⟩
  | @cons first last round rounds hsame _ ih =>
    have hhandlers : round.parts.map (·.handler) = round.handlers := partsOf_handlers _ _ _ _
    have hpart : ∃ p, round.parts[k]? = some p ∧ p.handler = .watch w := by
      replace hw := watch_of_same hsame hw
      rw [← hhandlers, List.getElem?_map] at hw
      exact Option.map_eq_some_iff.mp hw
    obtain ⟨p, hp, hwatch⟩ := hpart
    obtain ⟨w₁, hafter, hflag, hlast, hnotices⟩ := Part.after_watch hwatch
    have hnext : round.outcome.1[k]? = some (.watch w₁) := by
      rw [round.outcome_handlers, List.getElem?_map, hp, ← hafter]
      rfl
    have hid : p.occasion.actor.id = id := by
      rw [partsOf_occasion (List.mem_of_getElem? hp)]
      exact hown round List.mem_cons_self
    have hparts : partsAt k (round :: rounds) = p :: partsAt k rounds := by
      rw [partsAt, List.filterMap_cons, hp]
      rfl
    obtain ⟨w', hw', hflag', hlast', hsent⟩ :=
      ih (fun r hr => hown r (List.mem_cons_of_mem _ hr)) hnext
    rw [hparts, List.map_cons, List.flatMap_cons, Part.sent_eq hnotices, hsent, hflag, hlast, hid]
    refine ⟨w', hw', hflag'.trans hflag, ?_, ?_⟩
    · rw [hlast', hlast, hflag, List.getLast?_cons, Option.some_or, Option.or_some]
    · rw [changes, FlagWatch.news]
      split
      next hknown =>
        rw [hknown]
        rfl
      next => rfl

/-- Watches are left as the last round left them. -/
theorem Linked.last_same {first last : List Handler} {rounds : List (Round σ)}
    (h : Linked first rounds last) :
    last.map (·.watch?) = ((rounds.getLast?.map (·.outcome.1)).getD first).map (·.watch?) := by
  induction h with
  | nil hsame => exact hsame
  | @cons first last round rounds _ _ ih =>
    rw [ih, List.getLast?_cons]
    cases rounds.getLast? <;> rfl

/-! The last round of an actor in a tick. -/

namespace Registry

theorem roundsInTurn_concat {τ α : Type} (work : Registry → α → HostM τ Registry)
    (rounds : Registry → α → Host τ → List (Round τ)) (as : List α) (a : α) (r : Registry)
    (host : Host τ) :
    let before := as.foldlM work r host
    roundsInTurn work rounds (as ++ [a]) r host =
      roundsInTurn work rounds as r host ++ rounds before.1 a before.2 := by
  induction as generalizing r host with
  | nil => exact List.append_nil _
  | cons first as ih =>
    show rounds r first host ++ roundsInTurn work rounds (as ++ [a]) _ _ = _
    rw [ih, ← List.append_assoc]
    rfl

theorem filter_tickActorRounds (r : Registry) (actor : LiveActor) (now : Instant) (host : Host σ)
    (id : EntityId) :
    (r.tickActorRounds actor now host).filter (·.id = id) =
      if actor.isOnline = true ∧ actor.id = id then r.tickActorRounds actor now host else [] := by
  cases hon : actor.isOnline with
  | false => simp [tickActorRounds, hon]
  | true =>
    have hpasses := ((r.sessionOf actor.id now).ensureActive_passes actor now host).trans
      (Session.tick_passes _ actor none now _)
    simp only [tickActorRounds, hon, Bool.not_true, Bool.false_eq_true, if_false, true_and]
    exact hpasses.filter_rounds id

/-- A tick calls whoever is online last of all. -/
theorem tickActorRounds_getLast? (r : Registry) {actor : LiveActor} (h : actor.isOnline = true)
    (now : Instant) (host : Host σ) :
    ∃ round, (r.tickActorRounds actor now host).getLast? = some round ∧
      round.occasion = .tick actor := by
  simp only [tickActorRounds, h, Bool.not_true, Bool.false_eq_true, if_false]
  exact ⟨_, List.getLast?_concat, rfl⟩

theorem tickActor_session (r : Registry) {actor : LiveActor} (h : actor.isOnline = true)
    (now : Instant) :
    Yields (r.tickActor actor now : HostM σ Registry) fun r' => r'.session? actor.id ≠ none := by
  simp only [tickActor, h, Bool.not_true, Bool.false_eq_true, if_false]
  refine Yields.bind Yields.any fun _ _ => Yields.bind Yields.any fun s _ => Yields.pure ?_
  rw [session?_store, if_pos rfl]
  exact Option.some_ne_none s

/-- The last turn of an actor who is online gives the last of their rounds in a tick, and a
session. -/
theorem tick_last (r : Registry) {actors : List LiveActor} {actor : LiveActor} {id : EntityId}
    (h : (actors.filter fun a => a.isOnline && a.id = id).getLast? = some actor) (now : Instant)
    (host : Host σ) :
    (∃ round, ((r.rounds host (.tick actors now)).filter (·.id = id)).getLast? = some round ∧
      round.occasion = .tick actor) ∧
    (r.tick actors now host).1.session? id ≠ none := by
  -- the turn at the end is the one in question, or it leaves the actor alone
  induction actors using List.reverseRecOn with
  | nil => cases h
  | append_singleton actors last ih =>
    have htick : r.tick (actors ++ [last]) now host =
        (r.tick actors now host).1.tickActor last now (r.tick actors now host).2 := by
      rw [tick, List.foldlM_append]
      rfl
    have hrounds : r.rounds host (.tick (actors ++ [last]) now) =
        r.rounds host (.tick actors now) ++
          (r.tick actors now host).1.tickActorRounds last now (r.tick actors now host).2 :=
      roundsInTurn_concat _ _ actors last r host
    rw [hrounds, htick, List.filter_append, List.getLast?_append]
    rw [List.filter_append, List.getLast?_append] at h
    generalize r.tick actors now host = before at *
    rw [filter_tickActorRounds]
    by_cases hlast : last.isOnline = true ∧ last.id = id
    · rw [if_pos hlast]
      obtain ⟨hon, rfl⟩ := hlast
      have hactor : last = actor := by simpa [hon] using h
      obtain ⟨round, hround, hoccasion⟩ := before.1.tickActorRounds_getLast? hon now before.2
      rw [hround]
      exact ⟨⟨round, rfl, hactor ▸ hoccasion⟩, before.1.tickActor_session hon now before.2⟩
    · rw [if_neg hlast]
      have hskip : [last].filter (fun a => a.isOnline && a.id = id) = [] := by
        simpa using hlast
      rw [hskip] at h
      obtain ⟨hround, hsession⟩ := ih h
      exact ⟨hround, (before.1.tickActor_attends last now before.2).kept id hsession⟩

end Registry

namespace History

/-- The rounds of an actor's session since it began, none where there is no session. -/
def rounds (id : EntityId) : History σ → List (Round σ)
  | .new _ _ => []
  | .register h _ => h.rounds id
  | .step h operation host =>
      if ((h.step operation host).registry.session? id).isSome then
        h.rounds id ++ (h.registry.rounds host operation).filter (·.id = id)
      else []

theorem rounds_own (h : History σ) {id : EntityId} {round : Round σ}
    (hround : round ∈ h.rounds id) : round.id = id := by
  induction h with
  | new config worlds => cases hround
  | register h blueprint ih => exact ih hround
  | step h operation host ih =>
    rw [rounds] at hround
    split at hround
    · rcases List.mem_append.mp hround with hround | hround
      · exact ih hround
      · exact of_decide_eq_true (List.mem_filter.mp hround).2
    · cases hround

theorem rounds_of_none (h : History σ) {id : EntityId} (hnone : h.registry.session? id = none) :
    h.rounds id = [] := by
  induction h with
  | new config worlds => rfl
  | register h blueprint ih => exact ih hnone
  | step h operation host ih => simp [rounds, hnone]

/-- The handlers of a session come from fresh ones through its rounds. -/
theorem linked (h : History σ) {id : EntityId} {s : Session}
    (hs : h.registry.session? id = some s) :
    Linked (s.blueprints.map (·.build)) (h.rounds id) s.handlers := by
  induction h generalizing s with
  | new config worlds => simp [registry, Registry.session?_empty] at hs
  | register h blueprint ih => exact ih hs
  | step h operation host ih =>
    have hterms : s.terms.blueprints = (h.registry.terms id).blueprints := by
      rw [← Registry.terms_of_session hs]
      refine h.blueprints_step operation host fun hnone => ?_
      exact Option.some_ne_none s (hs.symm.trans hnone)
    have hbefore :
        Linked (s.blueprints.map (·.build)) (h.rounds id) (h.registry.handlersOf id) := by
      show Linked (s.terms.blueprints.map (·.build)) _ _
      rw [hterms]
      cases hbefore : h.registry.session? id with
      | none =>
        rw [Registry.terms_of_none hbefore, rounds_of_none h hbefore, Registry.handlersOf, hbefore]
        exact .nil rfl
      | some t =>
        rw [Registry.terms_of_session hbefore, Registry.handlersOf_of_session hbefore]
        exact ih hbefore
    rw [rounds, hs, Option.isSome_some, if_pos rfl]
    exact hbefore.append ((h.registry.perform_proceeds operation host).1 id s hs)

/-- A watch reports every change of its flag once and nothing else. What it sent since its session
began are the values it evaluated less the repetitions. No operation reports a change but in the
part of a watch in a round. After a tick for an actor who is online their watches have the verdicts
on what the index answered where the actor is. -/
theorem watch_reports_every_change (h : History σ) (id : EntityId) :
    (∀ (s : Session) (k : Nat) (w : FlagWatch), h.registry.session? id = some s →
      s.handlers[k]? = some (.watch w) →
      let parts := partsAt k (h.rounds id)
      let values := parts.map (·.verdict w.flag)
      let told := values.destutter (· ≠ ·)
      parts.flatMap (·.sent) = told.map (.flagChanged id w.flag) ∧
      told.head? = values.head? ∧ told.IsChain (· ≠ ·) ∧ told.getLast? = w.lastValue) ∧
    (∀ (operation : Operation) (host : Host σ), (h.registry.perform operation host).2.reports =
      host.reports ++ (h.registry.rounds host operation).flatMap (·.reports)) ∧
    ∀ (actors : List LiveActor) (now : Instant) (host : Host σ) (actor : LiveActor),
      (actors.filter fun a => a.isOnline && a.id = id).getLast? = some actor →
      let after := h.step (.tick actors now) host
      ∃ (s : Session) (round : Round σ), after.registry.session? id = some s ∧
        (after.rounds id).getLast? = some round ∧
        round ∈ h.registry.rounds host (.tick actors now) ∧ round.occasion = .tick actor ∧
        ∀ (k : Nat) (w : FlagWatch), s.handlers[k]? = some (.watch w) → ∃ part : Part σ,
          round.parts[k]? = some part ∧ part.occasion = .tick actor ∧
          w.lastValue = some (part.verdict w.flag) := by
  refine ⟨fun s k w hs hw => ?_, fun operation host => ?_, fun actors now host actor hlast => ?_⟩
  · intro parts values told
    have hfresh : (s.blueprints.map (·.build))[k]? = some (.watch { flag := w.flag }) := by
      rw [Session.blueprints, List.getElem?_map, List.getElem?_map, hw]
      rfl
    obtain ⟨w', hw', -, hlast, hsent⟩ := (h.linked hs).watch (fun _ => h.rounds_own) hfresh
    have hsame : w' = w := Handler.watch.inj (Option.some.inj (hw'.symm.trans hw))
    subst hsame
    have htold : told = changes none values := (changes_none values).symm
    refine ⟨htold ▸ hsent, htold ▸ changes_none_head? values, List.isChain_destutter _ _, ?_⟩
    rw [hlast, htold]
    simpa only [Option.or_none] using changes_getLast? none values
  · exact (h.registry.perform_proceeds operation host).2
  · intro after
    obtain ⟨⟨round, hround, hoccasion⟩, hsession⟩ := h.registry.tick_last hlast now host
    obtain ⟨s, hs⟩ := Option.ne_none_iff_exists'.mp hsession
    replace hs : after.registry.session? id = some s := hs
    have hend : (after.rounds id).getLast? = some round := by
      rw [rounds, hs, Option.isSome_some, if_pos rfl, List.getLast?_append, hround, Option.some_or]
    refine ⟨s, round, hs, hend, List.mem_of_mem_filter (List.mem_of_getLast? hround), hoccasion,
      fun k w hw => ?_⟩
    have hsame := (after.linked hs).last_same
    rw [hend, Option.map_some, Option.getD_some] at hsame
    replace hw := watch_of_same hsame.symm hw
    rw [round.outcome_handlers, List.getElem?_map] at hw
    obtain ⟨part, hpart, hafter⟩ := Option.map_eq_some_iff.mp hw
    have hturn : part.occasion = .tick actor :=
      (partsOf_occasion (List.mem_of_getElem? hpart)).trans hoccasion
    exact ⟨part, hpart, hturn, part.lastValue_of_after hafter⟩

end History
end

/-- A visitor goes into town and, while the index fails, out of it. Then one tick takes them in and
out once more. -/
theorem watch_reports_every_change_in_town :
    let there (x : Float) : LiveActor := { Town.visitor with location := Town.place x }
    let id := Town.visitor.id
    let ruled : History (Served Town.tables) := (History.new {} {}).register (.watch .build)
    let inTown := (ruled.step (.enter Town.visitor ⟨0⟩) (Town.hostAfter 0)).step
      (.tick [there 10] ⟨1⟩) (Town.hostAfter 1)
    let h := inTown.step (.tick [there 0] ⟨2⟩) (Town.hostAfter 0)
    let twice := Operation.tick [there 10, there 0] ⟨3⟩
    let parts := partsAt 1 (h.rounds id)
    parts.map (·.verdict .build) = [true, false, false] ∧
    parts.flatMap (·.sent) = [.flagChanged id .build true, .flagChanged id .build false] ∧
    (∃ s w, h.registry.session? id = some s ∧ s.handlers[1]? = some (.watch w) ∧
      w.lastValue = some false) ∧
    (h.registry.perform twice (Town.hostAfter 1)).2.reports = [.flagChanged id .build true] ∧
    ∃ s w, (h.step twice (Town.hostAfter 1)).registry.session? id = some s ∧
      s.handlers[1]? = some (.watch w) ∧ w.lastValue = some true := by
  intro there id ruled inTown h twice parts
  have hwatched (h : History (Served Town.tables))
      (hh : (h.registry.session? id).any (fun s => s.handlers[1]?.any fun handler =>
        handler.watch?.any (·.flag = .build)) = true) :
      ∃ s w, h.registry.session? id = some s ∧ s.handlers[1]? = some (.watch w) ∧
        w.flag = .build := by
    simp only [Option.any_eq_true] at hh
    obtain ⟨s, hs, handler, hhandler, w, hw, hflag⟩ := hh
    rw [Handler.eq_of_watch? hw] at hhandler
    exact ⟨s, w, hs, hhandler, of_decide_eq_true hflag⟩
  obtain ⟨hreports, hoperations, hticks⟩ := h.watch_reports_every_change id
  have hvalues : parts.map (·.verdict .build) = [true, false, false] := by decide +kernel
  obtain ⟨s, w, hs, hw, hflag⟩ := hwatched h (by decide +kernel)
  obtain ⟨hsent, -, -, hlast⟩ := hreports s 1 w hs hw
  rw [hflag, hvalues] at hsent hlast
  refine ⟨hvalues, hsent, ⟨s, w, hs, hw, hlast.symm⟩, ?_, ?_⟩
  · rw [hoperations]
    decide +kernel
  · let again := h.step twice (Town.hostAfter 1)
    have hverdict : ((again.rounds id).getLast?.bind (·.parts[1]?)).map (·.verdict .build) =
        some true := by decide +kernel
    obtain ⟨s', w', hs', hw', hflag'⟩ := hwatched again (by decide +kernel)
    obtain ⟨t, round, ht, hend, -, -, hround⟩ :=
      hticks [there 10, there 0] ⟨3⟩ (Town.hostAfter 1) (there 0) rfl
    have hsame : s' = t := Option.some.inj (hs'.symm.trans ht)
    obtain ⟨part, hpart, -, hlast'⟩ := hround 1 w' (hsame ▸ hw')
    rw [hend, Option.bind_some, hpart, Option.map_some, ← hflag', ← hlast'] at hverdict
    exact ⟨s', w', hs', hw', hverdict⟩

end RegionAccess
