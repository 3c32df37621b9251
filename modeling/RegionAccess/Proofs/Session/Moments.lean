import RegionAccess.Proofs.Session.Verdict

/-! What the moments of work on sessions have a say in. Where every question has its one answer,
work done at another moment comes to the same and sends the same notices, and the moments that
sessions keep are all that differs. -/
namespace RegionAccess
open RegionIndex

def FlagWatch.timeless (w : FlagWatch) : FlagWatch :=
  { w with lastChange := w.lastChange.map fun _ => ⟨0⟩ }

def Handler.timeless : Handler → Handler
  | .watch w => .watch w.timeless
  | h => h

/-- The session with the origin for every moment in it. -/
def Session.timeless (s : Session) : Session :=
  { s with handlers := s.handlers.map (·.timeless), createdAt := ⟨0⟩, lastSeen := ⟨0⟩ }

/-- A change of a flag is the affair of the actor it is reported of; remarks are nobody's. -/
def Notice.Concerns (id : EntityId) : Notice → Prop
  | .flagChanged actor _ _ => actor = id
  | .remark _ => True

/-- From every state of its host, a computation has this value and sends these notices. -/
structure Settles {σ α : Type} (x : HostM σ α) (a : α) (sent : List Notice) : Prop where
  value : Yields x (· = a)
  notices : ∀ h, (x h).2.notices = h.notices ++ sent

/-- Two computations settle on related values, and send the same notices of one actor. -/
def Alike {σ α β : Type} (id : EntityId) (R : α → β → Prop) (x : HostM σ α) (y : HostM σ β) :
    Prop :=
  ∃ a b sent, Settles x a sent ∧ Settles y b sent ∧ R a b ∧ ∀ n ∈ sent, n.Concerns id

protected theorem Settles.pure {σ α : Type} (a : α) :
    Settles (Pure.pure a : HostM σ α) a [] :=
  ⟨Yields.pure rfl, fun h => (List.append_nil h.notices).symm⟩

/-- A question that has one answer is asked in silence. -/
theorem Settles.consult {σ α : Type} {question : StateM σ α} {a : α}
    (h : Yields question (· = a)) : Settles (RegionAccess.consult question) a [] :=
  ⟨Yields.consult h, fun h => (List.append_nil h.notices).symm⟩

theorem Settles.bind {σ α β : Type} {x : HostM σ α} {f : α → HostM σ β} {a : α} {b : β}
    {sent more : List Notice} (hx : Settles x a sent) (hf : Settles (f a) b more) :
    Settles (x >>= f) b (sent ++ more) where
  value := Yields.bind hx.value fun _ ha => ha ▸ hf.value
  notices h := by
    show (f (x h).1 (x h).2).2.notices = _
    rw [hx.value h, hf.notices, hx.notices, List.append_assoc]

namespace Alike
variable {σ α β γ δ : Type} {id : EntityId} {R : α → β → Prop} {S : γ → δ → Prop}
  {x : HostM σ α} {y : HostM σ β}

protected theorem pure {a : α} {b : β} (h : R a b) :
    Alike id R (Pure.pure a : HostM σ α) (Pure.pure b : HostM σ β) :=
  ⟨a, b, [], .pure a, .pure b, h, fun _ hn => nomatch hn⟩

protected theorem bind {f : α → HostM σ γ} {g : β → HostM σ δ} (hxy : Alike id R x y)
    (hfg : ∀ a b, R a b → Alike id S (f a) (g b)) : Alike id S (x >>= f) (y >>= g) := by
  obtain ⟨a, b, sent, hx, hy, hab, hsent⟩ := hxy
  obtain ⟨c, d, more, hf, hg, hcd, hmore⟩ := hfg a b hab
  refine ⟨c, d, sent ++ more, hx.bind hf, hy.bind hg, hcd, fun n hn => ?_⟩
  exact (List.mem_append.mp hn).elim (hsent n) (hmore n)

/-- From whatever states they run, the values are related, and the same notices come in addition. -/
theorem runs (hxy : Alike id R x y) (h h' : Host σ) :
    R (x h).1 (y h').1 ∧ ∃ sent, (∀ n ∈ sent, n.Concerns id) ∧
      (x h).2.notices = h.notices ++ sent ∧ (y h').2.notices = h'.notices ++ sent := by
  obtain ⟨a, b, sent, hx, hy, hab, hsent⟩ := hxy
  refine ⟨?_, sent, hsent, hx.notices h, hy.notices h'⟩
  rw [hx.value h, hy.value h']
  exact hab

theorem notify {notices : List Notice} (h : ∀ n ∈ notices, n.Concerns id) :
    Alike id (fun _ _ => True) (RegionAccess.notify notices : HostM σ Unit)
      (RegionAccess.notify notices) :=
  have hsettles : Settles (RegionAccess.notify notices : HostM σ Unit) () notices :=
    ⟨fun _ => rfl, fun _ => rfl⟩
  ⟨(), (), notices, hsettles, hsettles, trivial, h⟩

/-- A question that has one answer gets it both times. -/
theorem consult {question : StateM σ α} (h : ∃ a, Yields question (· = a)) :
    Alike id (· = ·) (RegionAccess.consult question) (RegionAccess.consult question) := by
  obtain ⟨a, ha⟩ := h
  exact ⟨a, a, [], .consult ha, .consult ha, rfl, fun _ hn => nomatch hn⟩

theorem ite (c : Prop) [Decidable c] {x' : HostM σ α} {y' : HostM σ β} (hxy : Alike id R x y)
    (hxy' : Alike id R x' y') : Alike id R (if c then x else x') (if c then y else y') := by
  split
  · exact hxy
  · exact hxy'

/-- Lists that agree on a view of their elements are traversed alike. -/
theorem mapM {before : α → γ} {after : β → δ} {f g : α → HostM σ β}
    (hfg : ∀ a a', before a = before a' →
      Alike id (fun b b' => after b = after b') (f a) (g a')) {as as' : List α}
    (h : as.map before = as'.map before) :
    Alike id (fun bs bs' => bs.map after = bs'.map after) (as.mapM f) (as'.mapM g) := by
  induction as generalizing as' with
  | nil =>
    obtain rfl := List.map_eq_nil_iff.mp h.symm
    exact .pure rfl
  | cons a as ih =>
    obtain ⟨a', as', rfl, ha, has⟩ := List.map_eq_cons_iff.mp h.symm
    rw [List.mapM_cons, List.mapM_cons]
    refine .bind (hfg a a' ha.symm) fun b b' hb => .bind (ih has.symm) fun bs bs' hbs => .pure ?_
    rw [List.map_cons, List.map_cons, hb, hbs]

end Alike

/-- Sessions that agree but for moments differ in the moments they keep. -/
theorem Session.of_timeless {s s' : Session} (h : s.timeless = s'.timeless) :
    ∃ handlers createdAt lastSeen, s' = { s with handlers, createdAt, lastSeen } ∧
      s.handlers.map (·.timeless) = handlers.map (·.timeless) := by
  obtain ⟨actor, phase, lastValid, regions, known, handlers, createdAt, lastSeen, off, name⟩ := s
  obtain ⟨actor', phase', lastValid', regions', known', handlers', createdAt', lastSeen', off',
    name'⟩ := s'
  simp only [timeless, mk.injEq, true_and] at h
  obtain ⟨rfl, rfl, rfl, rfl, rfl, hhandlers, rfl, rfl⟩ := h
  exact ⟨handlers', createdAt', lastSeen', rfl, hhandlers⟩

theorem Session.moveUnseen_timeless {s s' : Session} (h : s.timeless = s'.timeless)
    (source target : Location) (kind : MoveKind) :
    (s.moveUnseen source target kind).1 = (s'.moveUnseen source target kind).1 ∧
      (s.moveUnseen source target kind).2.timeless =
        (s'.moveUnseen source target kind).2.timeless := by
  unfold moveUnseen
  split
  · exact ⟨rfl, h⟩
  · exact ⟨rfl, congrArg (·.movedBlindly target) h⟩

theorem FlagWatch.of_timeless {w w' : FlagWatch} (h : w.timeless = w'.timeless) :
    ∃ lastChange, w' = { w with lastChange } := by
  obtain ⟨flag, lastValue, lastChange⟩ := w
  obtain ⟨flag', lastValue', lastChange'⟩ := w'
  simp only [timeless, mk.injEq] at h
  obtain ⟨rfl, rfl, -⟩ := h
  exact ⟨lastChange', rfl⟩

/-- Handlers that agree but for moments are built from one rule, and what a rule of the host's has in
mind is no moment. -/
@[elab_as_elim]
theorem Handler.timeless_cases {motive : Handler → Handler → Prop} {h h' : Handler}
    (hh : h.timeless = h'.timeless) (entryExit : motive .entryExit .entryExit)
    (watch : ∀ w w', w.timeless = w'.timeless → motive (.watch w) (.watch w'))
    (host : ∀ rule memory, motive (.host rule memory) (.host rule memory)) : motive h h' := by
  cases h <;> cases h' <;> try cases hh
  case entryExit.entryExit => exact entryExit
  case host.host => exact host _ _
  case watch.watch w w' => exact watch w w' (Handler.watch.inj hh)

namespace FixedAnswers
variable {σ : Type} [RegionIndex σ] (fixed : FixedAnswers σ)
include fixed

theorem evaluate_alike {w w' : FlagWatch} (h : w.timeless = w'.timeless) (actor : LiveActor)
    (location : Location) (now now' : Instant) :
    Alike actor.id (fun v v' => v.timeless = v'.timeless)
      (w.evaluate actor location now : HostM σ FlagWatch) (w'.evaluate actor location now') := by
  obtain ⟨lastChange, rfl⟩ := FlagWatch.of_timeless h
  refine .bind (.consult ⟨_, fixed.yields_answer actor.toIdentity location w.flag⟩) ?_
  rintro value _ rfl
  refine .ite _ (.pure h) (.bind (.notify ?_) fun _ _ _ => .pure rfl)
  exact List.forall_mem_singleton.mpr rfl

theorem watch_alike {w w' : FlagWatch} (h : w.timeless = w'.timeless) (actor : LiveActor)
    (location : Location) (now now' : Instant) :
    Alike actor.id (fun k k' => k.timeless = k'.timeless)
      (return .watch (← w.evaluate actor location now) : HostM σ Handler)
      (return .watch (← w'.evaluate actor location now') : HostM σ Handler) :=
  (fixed.evaluate_alike h actor location now now').bind fun _ _ hv =>
    .pure (congrArg Handler.watch hv)

theorem hold_alike {α : Type} (id : EntityId) (d : Dialogue α) :
    Alike id (· = ·) (d.hold : HostM σ α) d.hold := by
  induction d with
  | done outcome => exact .pure rfl
  | remark text rest ih =>
    exact .bind (.notify (List.forall_mem_singleton.mpr trivial)) fun _ _ _ => ih
  | lookUp location resume ih =>
    refine .bind (.consult ⟨_, fixed.yields_overlapping location⟩) ?_
    rintro found _ rfl
    exact ih found
  | inquire location flag subject resume ih =>
    refine .bind (.consult ⟨_, fixed.yields_inquire location flag subject⟩) ?_
    rintro answer _ rfl
    exact ih answer
  | environment location flag resume ih =>
    refine .bind (.consult ⟨_, fixed.yields_environment location flag⟩) ?_
    rintro answer _ rfl
    exact ih answer

/-- A rule of the host's does the same at any moment, and has the same in mind after it. -/
theorem host_alike (id : EntityId) (rule : HostRule) (r : Reaction Unit) (memory : Memory) :
    Alike id (fun k k' => k.timeless = k'.timeless)
      (return .host rule (← r.run memory).2 : HostM σ Handler)
      (return .host rule (← r.run memory).2 : HostM σ Handler) := by
  refine (fixed.hold_alike id (r.dialogue memory)).bind ?_
  rintro out _ rfl
  exact .pure rfl

theorem start_alike (actor : LiveActor) (location : Location) (now now' : Instant)
    {h h' : Handler} (hh : h.timeless = h'.timeless) :
    Alike actor.id (fun k k' => k.timeless = k'.timeless)
      (h.start actor location now : HostM σ Handler) (h'.start actor location now') :=
  Handler.timeless_cases hh (.pure rfl) (fun _ _ hw => fixed.watch_alike hw actor location now now')
    (fun rule memory => fixed.host_alike _ rule _ memory)

theorem cross_alike (m : Move) (now now' : Instant) {h h' : Handler}
    (hh : h.timeless = h'.timeless) :
    Alike m.actor.id (fun k k' => k.timeless = k'.timeless)
      (h.cross m now : HostM σ Handler) (h'.cross m now') :=
  Handler.timeless_cases hh (.pure rfl)
    (fun _ _ hw => fixed.watch_alike hw m.actor m.target now now')
    (fun rule memory => fixed.host_alike _ rule _ memory)

theorem tick_alike (actor : LiveActor) (now now' : Instant) {h h' : Handler}
    (hh : h.timeless = h'.timeless) :
    Alike actor.id (fun k k' => k.timeless = k'.timeless)
      (h.tick actor now : HostM σ Handler) (h'.tick actor now') :=
  Handler.timeless_cases hh (.pure rfl)
    (fun _ _ hw => fixed.watch_alike hw actor actor.location now now')
    (fun rule memory => fixed.host_alike _ rule _ memory)

theorem permits_alike (m : Move) {h h' : Handler} (hh : h.timeless = h'.timeless) :
    Alike m.actor.id (fun out out' => out.1 = out'.1 ∧ out.2.timeless = out'.2.timeless)
      (h.permits m : HostM σ _) (h'.permits m) := by
  refine Handler.timeless_cases hh ?_ (fun _ _ hw => .pure ⟨rfl, congrArg Handler.watch hw⟩) ?_
  · refine .bind (.consult ⟨_, fixed.yields_passesEntryExit m⟩) ?_
    rintro permitted _ rfl
    exact .pure ⟨rfl, rfl⟩
  · intro rule memory
    refine (fixed.hold_alike _ ((rule.judge m).dialogue memory)).bind ?_
    rintro out _ rfl
    exact .pure ⟨rfl, rfl⟩

theorem allPermit_alike (m : Move) {hs hs' : List Handler}
    (h : hs.map (·.timeless) = hs'.map (·.timeless)) :
    Alike m.actor.id
      (fun out out' => out.1 = out'.1 ∧ out.2.map (·.timeless) = out'.2.map (·.timeless))
      (allPermit m hs : HostM σ _) (allPermit m hs') := by
  induction hs generalizing hs' with
  | nil =>
    obtain rfl := List.map_eq_nil_iff.mp h.symm
    exact .pure ⟨rfl, rfl⟩
  | cons h hs ih =>
    obtain ⟨h', hs', rfl, hh, hhs⟩ := List.map_eq_cons_iff.mp h.symm
    refine (fixed.permits_alike m hh.symm).bind ?_
    rintro ⟨permitted, asked⟩ ⟨_, asked'⟩ ⟨rfl, hasked⟩
    refine .ite _ ((ih hhs.symm).bind ?_) (.pure ⟨rfl, ?_⟩)
    · rintro ⟨permitted, others⟩ ⟨_, others'⟩ ⟨rfl, hothers⟩
      refine .pure ⟨rfl, ?_⟩
      rw [List.map_cons, List.map_cons, hasked, hothers]
    · rw [List.map_cons, List.map_cons, hasked, hhs]

theorem anchor_alike {s s' : Session} (h : s.timeless = s'.timeless) (actor : LiveActor)
    (now now' : Instant) :
    Alike actor.id (fun t t' => t.timeless = t'.timeless)
      (s.anchor actor now : HostM σ Session) (s'.anchor actor now') := by
  obtain ⟨handlers, createdAt, lastSeen, rfl, hhandlers⟩ := Session.of_timeless h
  refine .bind (.consult ⟨_, fixed.yields_overlapping actor.location⟩) ?_
  rintro found _ rfl
  refine .bind (.mapM (fun _ _ => fixed.start_alike actor actor.location now now') hhandlers) ?_
  intro started started' hstarted
  refine .pure ?_
  simp only [Session.timeless, Session.takeRegions_eq, hstarted]

theorem ensureActive_alike {s s' : Session} (h : s.timeless = s'.timeless) (actor : LiveActor)
    (now now' : Instant) :
    Alike actor.id (fun t t' => t.timeless = t'.timeless)
      (s.ensureActive actor now : HostM σ Session) (s'.ensureActive actor now') := by
  have hphase : s'.phase = s.phase := (congrArg Session.phase h).symm
  unfold Session.ensureActive
  rw [hphase]
  exact .ite _ (.pure h) (fixed.anchor_alike h actor now now')

theorem judgeCrossing_alike {s s' : Session} (h : s.timeless = s'.timeless) (actor : LiveActor)
    (source target : Location) (here there : RegionSet) (kind : MoveKind) (now now' : Instant) :
    Alike actor.id (fun out out' => out.1 = out'.1 ∧ out.2.timeless = out'.2.timeless)
      (s.judgeCrossing actor source target here there kind now : HostM σ _)
      (s'.judgeCrossing actor source target here there kind now') := by
  obtain ⟨handlers, createdAt, lastSeen, rfl, hhandlers⟩ := Session.of_timeless h
  refine .bind (fixed.allPermit_alike ⟨actor, source, target, here, there, kind⟩ hhandlers) ?_
  rintro ⟨permitted, asked⟩ ⟨_, asked'⟩ ⟨rfl, hasked⟩
  refine .ite _ (.pure ⟨rfl, ?_⟩) ?_
  · simp only [Session.timeless, hasked]
  refine .bind (.mapM (fun _ _ => fixed.cross_alike _ now now') hasked) ?_
  intro crossed crossed' hcrossed
  refine .pure ⟨rfl, ?_⟩
  simp only [Session.timeless, hcrossed]

theorem sourceRegions_settled (s : Session) (source : Location) :
    ∃ found, Yields (s.sourceRegions source : StateM σ _) (· = found) := by
  unfold Session.sourceRegions
  split
  · exact ⟨_, Yields.pure rfl⟩
  · exact ⟨_, fixed.yields_overlapping source⟩

theorem judgeMove_alike {s s' : Session} (h : s.timeless = s'.timeless) (actor : LiveActor)
    (target : Location) (kind : MoveKind) (now now' : Instant) :
    Alike actor.id (fun out out' => out.1 = out'.1 ∧ out.2.timeless = out'.2.timeless)
      (s.judgeMove actor target kind now : HostM σ _)
      (s'.judgeMove actor target kind now') := by
  have hlast : s'.lastValid = s.lastValid := (congrArg Session.lastValid h).symm
  have hhere (source : Location) :
      (s'.sourceRegions source : StateM σ _) = s.sourceRegions source := by
    have hregions : s'.regions = s.regions := (congrArg Session.regions h).symm
    have hknown : s'.regionsKnown = s.regionsKnown := (congrArg Session.regionsKnown h).symm
    rw [Session.sourceRegions, Session.sourceRegions, hregions, hknown]
  have hmoved : ({ s with lastValid := some target } : Session).timeless =
      ({ s' with lastValid := some target } : Session).timeless :=
    congrArg (fun t : Session => { t with lastValid := some target }) h
  unfold Session.judgeMove
  rw [hlast]
  cases s.lastValid with
  | none => exact .pure ⟨rfl, hmoved⟩
  | some source =>
    refine .ite _ (.pure ⟨rfl, hmoved⟩) ?_
    rw [hhere source]
    refine .bind (.consult (fixed.sourceRegions_settled s source)) ?_
    rintro found _ rfl
    cases found with
    | error e => exact .pure (Session.moveUnseen_timeless h source target kind)
    | ok here =>
      have hknown : (s.learnRegions here).timeless = (s'.learnRegions here).timeless :=
        congrArg (·.learnRegions here) h
      refine .bind (.consult ⟨_, fixed.yields_overlapping target⟩) ?_
      rintro found _ rfl
      cases found with
      | error e => exact .pure (Session.moveUnseen_timeless hknown source target kind)
      | ok there =>
        exact fixed.judgeCrossing_alike hknown actor source target here there kind now now'

theorem sessionTick_alike {s s' : Session} (h : s.timeless = s'.timeless) (actor : LiveActor)
    (name : Option String) (now now' : Instant) :
    Alike actor.id (fun t t' => t.timeless = t'.timeless)
      (s.tick actor name now : HostM σ Session) (s'.tick actor name now') := by
  obtain ⟨handlers, createdAt, lastSeen, rfl, hhandlers⟩ := Session.of_timeless h
  refine .bind (.mapM (fun _ _ => fixed.tick_alike actor now now') hhandlers) ?_
  intro ticked ticked' hticked
  refine .pure ?_
  simp only [Session.timeless, hticked]

end FixedAnswers
end RegionAccess
