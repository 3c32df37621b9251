import RegionAccess.Proofs.Index.Answers
import RegionAccess.Proofs.Session.Frames
import RegionAccess.Proofs.Session.Handlers

/-! The verdict on a move where every question has its one answer. It is a function of how the
registry is set up and of the actor's own session, and there of the footing alone: neither the
moment nor the values that watches remember play a part. -/
namespace RegionAccess
open RegionIndex

/-- The handler as far as it has a say in moves: the value that a watch remembers has none. -/
def Handler.stance : Handler → Handler
  | .entryExit => .entryExit
  | .watch w => .watch { flag := w.flag }
  | .host rule memory => .host rule memory

/-- What of a session decides the moves of its actor. -/
structure Footing where
  lastValid : Option Location
  regions? : Option RegionSet
  stances : List Handler

def Session.footing (s : Session) : Footing where
  lastValid := s.lastValid
  regions? := if s.regionsKnown then some s.regions else none
  stances := s.handlers.map (·.stance)

namespace FixedAnswers
variable {σ : Type} [RegionIndex σ] (fixed : FixedAnswers σ)

/-- The flag is allowed to the identity there, by an explicit answer. -/
def mayPass (i : Identity) (flag : Flag) (location : Location) : Bool :=
  decide (fixed.answer location flag i.standing = .ok (some .allow))

/-- What a dialogue comes to. -/
def outcome {α : Type} : Dialogue α → α
  | .done outcome => outcome
  | .remark _ rest => outcome rest
  | .lookUp location resume => outcome (resume (fixed.found location))
  | .inquire location flag subject resume =>
      outcome (resume (fixed.answer location flag (subject.judgement fixed.found)))
  | .environment location flag resume => outcome (resume (fixed.ambient location flag))

def permits (m : Move) : Handler → Bool
  | .entryExit =>
      (m.entered.isEmpty || fixed.mayPass m.actor.toIdentity .entry m.target) &&
        (m.exited.isEmpty || fixed.mayPass m.actor.toIdentity .exit m.source)
  | .watch _ => true
  | .host rule memory => (fixed.outcome ((rule.judge m).dialogue memory)).1

/-- The regions at both ends are known or found, and every handler permits the move. -/
def mayCross (f : Footing) (actor : LiveActor) (source target : Location) (kind : MoveKind) :
    Bool :=
  (f.regions? <|> (fixed.found source).toOption).any fun here =>
    (fixed.found target).toOption.any fun there =>
      f.stances.all (fixed.permits ⟨actor, source, target, here, there, kind⟩)

/-- Where the move is sent back to, if it is. -/
def refusal (f : Footing) (actor : LiveActor) (target : Location) (kind : MoveKind) :
    Option Location :=
  f.lastValid.filter fun source =>
    source.leavesBlock target && kind.isRefusable && !fixed.mayCross f actor source target kind

/-- A rule of the host's is told where a session starts, and may bear it in mind. -/
def toldOfStart (actor : LiveActor) : Handler → Handler
  | .entryExit => .entryExit
  | .watch w => .watch w
  | .host rule memory =>
      .host rule (fixed.outcome ((rule.onStart actor actor.location).dialogue memory)).2

/-- The footing of a session that starts where the actor is. -/
def started (actor : LiveActor) (handlers : List Handler) : Footing where
  lastValid := some actor.location
  regions? := (fixed.found actor.location).toOption
  stances := handlers.map fun h => (fixed.toldOfStart actor h).stance

/-- What the next move of the actor is judged on. -/
def footing (r : Registry) (actor : LiveActor) : Footing :=
  match r.session? actor.id with
  | some s => if s.phase = .active then s.footing else fixed.started actor s.handlers
  | none => fixed.started actor (r.blueprints.map (·.build))

def verdict (r : Registry) (actor : LiveActor) (target : Location) (kind : MoveKind) :
    Option Location :=
  if r.hasBypass actor.toIdentity target.world then none
  else fixed.refusal (fixed.footing r actor) actor target kind

theorem refusal_of_crossing {f : Footing} {source target : Location}
    (hl : f.lastValid = some source) (hcross : source.leavesBlock target = true)
    (actor : LiveActor) (kind : MoveKind) :
    fixed.refusal f actor target kind =
      if kind.isRefusable && !fixed.mayCross f actor source target kind then some source
      else none := by
  simp [refusal, hl, hcross, Option.filter]

theorem yields_overlapping (location : Location) :
    Yields (overlapping location : StateM σ _) (· = fixed.found location) :=
  fixed.overlapping_eq location

theorem yields_inquire (location : Location) (flag : Flag) (subject : Subject) :
    Yields (subject.inquire location flag : StateM σ _)
      (· = fixed.answer location flag (subject.judgement fixed.found)) :=
  fixed.inquire_eq location flag subject

theorem yields_environment (location : Location) (flag : Flag) :
    Yields (environment location flag : StateM σ _) (· = fixed.ambient location flag) :=
  fixed.environment_eq location flag

/-- What a player is allowed is the verdict on the one answer there is. -/
theorem yields_answer (i : Identity) (location : Location) (flag : Flag) :
    Yields (i.isAllowed location flag : StateM σ Bool)
      (· = flag.verdict (fixed.answer location flag i.standing)) := fun s =>
  congrArg flag.verdict (fixed.inquire_eq location flag (.player i) s)

theorem yields_isAllowed (i : Identity) (location : Location) (flag : Flag)
    (hf : flag.category.failVerdict = false) :
    Yields (i.isAllowed location flag : StateM σ Bool) (· = fixed.mayPass i flag location) := by
  rw [mayPass, ← Flag.verdict_eq_decide hf]
  exact fixed.yields_answer i location flag

omit [RegionIndex σ] in
/-- A check that is made only where it is due, before what comes next. -/
theorem yields_where_due (exempt : Bool) {x next : StateM σ Bool} {fact rest : Bool}
    (hx : Yields x (· = fact)) (hnext : Yields next (· = rest)) :
    Yields (if !exempt then x >>= fun allowed => if !allowed then pure false else next else next)
      (· = ((exempt || fact) && rest)) := by
  cases exempt with
  | true => exact hnext
  | false =>
    refine Yields.bind hx fun allowed hfact => ?_
    subst hfact
    cases allowed with
    | true => exact hnext
    | false => exact Yields.pure rfl

theorem yields_passesEntryExit (m : Move) :
    Yields (m.passesEntryExit : StateM σ Bool) (· = fixed.permits m .entryExit) := by
  have hdone : Yields (pure true : StateM σ Bool) (· = true) := Yields.pure rfl
  have hexit := yields_where_due m.exited.isEmpty
    (fixed.yields_isAllowed m.actor.toIdentity m.source .exit rfl) hdone
  have hentry := yields_where_due m.entered.isEmpty
    (fixed.yields_isAllowed m.actor.toIdentity m.target .entry rfl) hexit
  refine hentry.mono fun permitted h => ?_
  rw [h, permits, Bool.and_true]

/-- Whatever a rule asks, it gets the one answer there is. -/
theorem yields_outcome {α : Type} (d : Dialogue α) :
    Yields (d.hold : HostM σ α) (· = fixed.outcome d) := by
  induction d with
  | done outcome => exact Yields.pure rfl
  | remark text rest ih => exact Yields.bind Yields.any fun _ _ => ih
  | lookUp location resume ih =>
    refine Yields.bind (Yields.consult (fixed.yields_overlapping location)) ?_
    rintro _ rfl
    exact ih _
  | inquire location flag subject resume ih =>
    refine Yields.bind (Yields.consult (fixed.yields_inquire location flag subject)) ?_
    rintro _ rfl
    exact ih _
  | environment location flag resume ih =>
    refine Yields.bind (Yields.consult (fixed.yields_environment location flag)) ?_
    rintro _ rfl
    exact ih _

theorem yields_permits (m : Move) (h : Handler) :
    Yields (h.permits m : HostM σ _) (·.1 = fixed.permits m h.stance) := by
  cases h with
  | entryExit =>
    exact Yields.bind (Yields.consult (fixed.yields_passesEntryExit m)) fun _ h => Yields.pure h
  | watch w => exact Yields.pure rfl
  | host rule memory =>
    refine Yields.bind (fixed.yields_outcome ((rule.judge m).dialogue memory)) ?_
    rintro _ rfl
    exact Yields.pure rfl

theorem yields_allPermit (m : Move) (handlers : List Handler) :
    Yields (allPermit m handlers : HostM σ _)
      (·.1 = (handlers.map (·.stance)).all (fixed.permits m)) := by
  induction handlers with
  | nil => exact Yields.pure rfl
  | cons h handlers ih =>
    refine Yields.bind (fixed.yields_permits m h) ?_
    rintro ⟨permitted, h'⟩ rfl
    rw [List.map_cons, List.all_cons]
    dsimp only
    cases fixed.permits m h.stance with
    | true => exact Yields.bind ih fun _ hrest => Yields.pure hrest
    | false => exact Yields.pure rfl

theorem yields_sourceRegions (s : Session) (source : Location) :
    Yields (s.sourceRegions source : StateM σ _) fun here =>
      here.toOption = (s.footing.regions? <|> (fixed.found source).toOption) := by
  unfold Session.sourceRegions Session.footing
  split
  · exact Yields.pure rfl
  · exact (fixed.yields_overlapping source).mono fun here h => by rw [h]; rfl

theorem yields_refusal (s : Session) (actor : LiveActor) (target : Location) (kind : MoveKind)
    (now : Instant) :
    Yields (s.judgeMove actor target kind now : HostM σ _) fun out =>
      out.1 = fixed.refusal s.footing actor target kind := by
  have hmay {source : Location} {here there : Except IndexError RegionSet}
      (hhere : here.toOption = (s.footing.regions? <|> (fixed.found source).toOption))
      (hthere : there = fixed.found target) :
      fixed.mayCross s.footing actor source target kind = here.toOption.any fun here =>
        there.toOption.any fun there =>
          s.footing.stances.all (fixed.permits ⟨actor, source, target, here, there, kind⟩) := by
    rw [hhere, hthere]
    rfl
  refine s.judgeMove_rule actor target now (fun source _ => fixed.yields_sourceRegions s source)
    (fixed.yields_overlapping target) ?_ ?_ ?_ ?_ ?_
  · intro hl
    rw [refusal, show s.footing.lastValid = none from hl, Option.filter_none]
  · intro source hl hsame
    rw [refusal, show s.footing.lastValid = some source from hl, Option.filter_some, hsame]
    rfl
  · intro source e hl hcross hhere
    rw [Session.moveUnseen_fst, fixed.refusal_of_crossing hl hcross, hmay hhere rfl]
    simp [Except.toOption]
  · intro source here e hl hcross hhere hthere
    rw [Session.moveUnseen_fst, fixed.refusal_of_crossing hl hcross, hmay hhere hthere]
    simp [Except.toOption]
  · intro source here there hl hcross hhere hthere
    have hall : fixed.mayCross s.footing actor source target kind =
        s.footing.stances.all (fixed.permits ⟨actor, source, target, here, there, kind⟩) :=
      hmay hhere hthere
    rw [fixed.refusal_of_crossing hl hcross, hall]
    refine Session.judgeCrossing_rule _ actor source target here there now
      (fixed.yields_allPermit _ s.handlers) (fun _ _ => Yields.any) (fun handlers hno hk => ?_)
      fun asked handlers hasked hyes _ => ?_
    · rw [hk, Session.footing, ← hno]
      rfl
    · rw [Session.footing, ← hasked]
      cases hk : kind.isRefusable with
      | true => rw [hyes hk]; rfl
      | false => rfl

theorem yields_stance (actor : LiveActor) (now : Instant) (h : Handler) :
    Yields (h.start actor actor.location now : HostM σ Handler) fun h' =>
      h'.stance = (fixed.toldOfStart actor h).stance := by
  cases h with
  | entryExit => exact Yields.pure rfl
  | watch w =>
    refine (Handler.start_blueprint actor actor.location now (.watch w)).mono fun h' hh' => ?_
    cases h' with
    | entryExit => cases hh'
    | watch w' => exact congrArg (fun flag => Handler.watch { flag }) (Blueprint.watch.inj hh')
    | host rule memory => cases hh'
  | host rule memory =>
    refine Yields.bind (fixed.yields_outcome _) ?_
    rintro _ rfl
    exact Yields.pure rfl

/-- Started if need be, the session is on the footing the move is judged on. -/
theorem yields_footing (r : Registry) (actor : LiveActor) (now : Instant) :
    Yields ((r.sessionOf actor.id now).ensureActive actor now : HostM σ Session) fun s =>
      s.footing = fixed.footing r actor := by
  have hanchor (s : Session) : Yields (s.anchor actor now : HostM σ Session) fun s' =>
      s'.footing = fixed.started actor s.handlers := by
    refine Yields.bind (Yields.consult (fixed.yields_overlapping actor.location)) ?_
    rintro _ rfl
    refine Yields.bind (Yields.mapM (fixed.yields_stance actor now) s.handlers)
      fun handlers hh => Yields.pure ?_
    rw [started, ← hh, Session.takeRegions_eq]
    cases fixed.found actor.location <;> rfl
  unfold Registry.sessionOf footing Session.ensureActive
  cases r.session? actor.id with
  | none =>
    exact hanchor _
  | some s =>
    simp only [Option.getD_some]
    split
    next => exact Yields.pure rfl
    next => exact hanchor s

/-- Where every question has its one answer, every move has its one verdict. -/
theorem yields_verdict (r : Registry) (actor : LiveActor) (target : Location) (kind : MoveKind)
    (now : Instant) :
    Yields (r.judgeMove actor target kind now : HostM σ _) fun out =>
      out.1 = fixed.verdict r actor target kind := by
  unfold Registry.judgeMove verdict
  split
  next => exact Yields.pure rfl
  next =>
    refine Yields.bind (fixed.yields_footing r actor now) fun s hs => ?_
    refine Yields.bind (fixed.yields_refusal s actor target kind now) fun out hout => ?_
    exact Yields.pure (hout.trans (by rw [hs]))

/-- What is done to the sessions of others has no say in the verdict. -/
theorem verdict_eq {touched : EntityId → Prop} {r r' : Registry} (h : r.AgreesOutside touched r')
    {actor : LiveActor} (hactor : ¬ touched actor.id) (target : Location) (kind : MoveKind) :
    fixed.verdict r' actor target kind = fixed.verdict r actor target kind := by
  rw [verdict, verdict, h.hasBypass_eq hactor, footing, footing, h.sessions actor.id hactor,
    h.blueprints]

end FixedAnswers
end RegionAccess
