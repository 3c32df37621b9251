import RegionAccess.Proofs.Session.Judging
import RegionAccess.Proofs.Session.Runs

/-! Handlers stay what they were built as. Work on a session changes what its handlers remember,
never which rules they are nor their order. -/
namespace RegionAccess

/-- What a handler was built from. -/
def Handler.blueprint : Handler → Blueprint
  | .entryExit => .entryExit
  | .watch w => .watch w.flag
  | .host rule _ => .host rule

@[simp] theorem Handler.blueprint_build (b : Blueprint) : b.build.blueprint = b := by
  cases b <;> rfl

/-- The library's own rules, as against those of a host. -/
def Blueprint.isBuiltIn : Blueprint → Bool
  | .entryExit | .watch _ => true
  | .host _ => false

/-- What the handlers of a session were built from, in order. -/
def Session.blueprints (s : Session) : List Blueprint := s.handlers.map (·.blueprint)

@[simp] theorem Session.blueprints_fresh (id : EntityId) (bs : List Blueprint) (now : Instant) :
    (Session.fresh id bs now).blueprints = bs := by
  simp [Session.blueprints, Session.fresh, Function.comp_def]

section
variable {σ : Type} [RegionIndex σ]

namespace Handler

theorem evaluate_blueprint (w : FlagWatch) (actor : LiveActor) (location : Location)
    (now : Instant) :
    Yields (return .watch (← w.evaluate actor location now) : HostM σ Handler) fun h =>
      h.blueprint = .watch w.flag := by
  have hflag : Yields (w.evaluate actor location now : HostM σ FlagWatch) fun w' =>
      w'.flag = w.flag := by
    refine Yields.bind Yields.any ?_
    intro value _
    split
    · exact Yields.pure rfl
    · exact Yields.bind Yields.any fun _ _ => Yields.pure rfl
  exact Yields.bind hflag fun w' hw => Yields.pure (congrArg Blueprint.watch hw)

theorem start_blueprint (actor : LiveActor) (location : Location) (now : Instant) (h : Handler) :
    Yields (h.start actor location now : HostM σ Handler) fun h' => h'.blueprint = h.blueprint := by
  cases h with
  | entryExit => exact Yields.pure rfl
  | watch w => exact evaluate_blueprint w actor location now
  | host rule memory => exact Yields.bind Yields.any fun _ _ => Yields.pure rfl

theorem cross_blueprint (m : Move) (now : Instant) (h : Handler) :
    Yields (h.cross m now : HostM σ Handler) fun h' => h'.blueprint = h.blueprint := by
  cases h with
  | entryExit => exact Yields.pure rfl
  | watch w => exact evaluate_blueprint w m.actor m.target now
  | host rule memory => exact Yields.bind Yields.any fun _ _ => Yields.pure rfl

theorem tick_blueprint (actor : LiveActor) (now : Instant) (h : Handler) :
    Yields (h.tick actor now : HostM σ Handler) fun h' => h'.blueprint = h.blueprint := by
  cases h with
  | entryExit => exact Yields.pure rfl
  | watch w => exact evaluate_blueprint w actor actor.location now
  | host rule memory => exact Yields.bind Yields.any fun _ _ => Yields.pure rfl

theorem permits_blueprint (m : Move) (h : Handler) :
    Yields (h.permits m : HostM σ _) fun out => out.2.blueprint = h.blueprint := by
  cases h with
  | entryExit => exact Yields.bind Yields.any fun _ _ => Yields.pure rfl
  | watch w => exact Yields.pure rfl
  | host rule memory => exact Yields.bind Yields.any fun _ _ => Yields.pure rfl

end Handler

/-- What no handler loses by being asked about a move, they all keep. -/
theorem allPermit_keeps {γ : Type} (view : Handler → γ) (m : Move) {hs : List Handler}
    (hview : ∀ h ∈ hs, Yields (h.permits m : HostM σ _) fun out => view out.2 = view h) :
    Yields (allPermit m hs : HostM σ _) fun out => out.2.map view = hs.map view := by
  induction hs with
  | nil => exact Yields.pure rfl
  | cons h hs ih =>
    obtain ⟨hfirst, hothers⟩ := List.forall_mem_cons.mp hview
    refine Yields.bind hfirst fun ⟨permitted, h'⟩ hh' => ?_
    dsimp only
    split
    · refine Yields.bind (ih hothers) fun rest hrest => Yields.pure ?_
      rw [List.map_cons, List.map_cons, hh', hrest]
    · apply Yields.pure
      rw [List.map_cons, List.map_cons, hh']

/-- Being asked changes what handlers remember at most. -/
theorem allPermit_blueprints (m : Move) (hs : List Handler) :
    Yields (allPermit m hs : HostM σ _) fun out =>
      out.2.map (·.blueprint) = hs.map (·.blueprint) :=
  allPermit_keeps _ m fun h _ => h.permits_blueprint m

/-- Being asked changes nothing of the library's own rules. -/
theorem allPermit_builtIn (m : Move) {hs : List Handler}
    (hb : ∀ h ∈ hs, h.blueprint.isBuiltIn = true) :
    Yields (allPermit m hs : HostM σ _) fun out => out.2 = hs := by
  have hkeeps : ∀ h ∈ hs, Yields (h.permits m : HostM σ _) fun out => id out.2 = id h := by
    intro h hh
    cases h with
    | entryExit => exact Yields.bind Yields.any fun _ _ => Yields.pure rfl
    | watch w => exact Yields.pure rfl
    | host rule memory => cases hb _ hh
  simpa only [List.map_id] using allPermit_keeps id m hkeeps

namespace Session

theorem anchor_blueprints (s : Session) (actor : LiveActor) (now : Instant) :
    Yields (s.anchor actor now : HostM σ Session) fun s' => s'.blueprints = s.blueprints := by
  refine Yields.bind Yields.any ?_
  intro found _
  refine Yields.bind (Yields.mapM (Handler.start_blueprint actor actor.location now) s.handlers)
    fun handlers hh => Yields.pure ?_
  exact hh

theorem judgeCrossing_blueprints (s : Session) (actor : LiveActor) (source target : Location)
    (here there : RegionSet) (kind : MoveKind) (now : Instant) :
    Yields (s.judgeCrossing actor source target here there kind now : HostM σ _) fun out =>
      out.2.blueprints = s.blueprints := by
  have hcross (asked : Bool × List Handler)
      (hasked : asked.2.map (·.blueprint) = s.handlers.map (·.blueprint)) :
      Yields (asked.2.mapM (·.cross ⟨actor, source, target, here, there, kind⟩ now) : HostM σ _)
        fun handlers => handlers.map (·.blueprint) = s.blueprints :=
    (Yields.mapM (Handler.cross_blueprint _ now) asked.2).mono fun _ h => h.trans hasked
  exact s.judgeCrossing_rule actor source target here there now
    (allPermit_blueprints _ s.handlers) hcross (fun _ hasked _ => hasked)
    fun _ _ _ _ hhandlers => hhandlers

theorem moveUnseen_handlers (s : Session) (source target : Location) (kind : MoveKind) :
    (s.moveUnseen source target kind).2.handlers = s.handlers := by
  unfold moveUnseen
  split <;> rfl

theorem moveUnseen_blueprints (s : Session) (source target : Location) (kind : MoveKind) :
    (s.moveUnseen source target kind).2.blueprints = s.blueprints :=
  congrArg (List.map _) (s.moveUnseen_handlers source target kind)

theorem judgeMove_blueprints (s : Session) (actor : LiveActor) (target : Location)
    (kind : MoveKind) (now : Instant) :
    Yields (s.judgeMove actor target kind now : HostM σ _) fun out =>
      out.2.blueprints = s.blueprints := by
  refine s.judgeMove_rule actor target now (fun _ _ => Yields.any) Yields.any (fun _ => rfl)
    (fun _ _ _ => rfl) ?_ ?_ ?_
  · intro source e _ _ _
    exact s.moveUnseen_blueprints source target kind
  · intro source here e _ _ _ _
    exact moveUnseen_blueprints _ source target kind
  · intro source here there _ _ _ _
    exact judgeCrossing_blueprints _ actor source target here there kind now

end Session

/-- The handlers of a session are of admitted kinds, and the first of them guards entry and exit. -/
def Session.Admitted (admits : Blueprint → Prop) (s : Session) : Prop :=
  [.entryExit] <+: s.blueprints ∧ ∀ b ∈ s.blueprints, admits b

theorem Session.Admitted.entryExit_mem {admits : Blueprint → Prop} {s : Session}
    (h : s.Admitted admits) : .entryExit ∈ s.handlers := by
  obtain ⟨h, hh, hblueprint⟩ := List.mem_map.mp (h.1.subset List.mem_cons_self)
  cases h with
  | entryExit => exact hh
  | watch w => cases hblueprint
  | host rule memory => cases hblueprint

theorem sessionInvariant_admitted (σ : Type) [RegionIndex σ] (admits : Blueprint → Prop) :
    SessionInvariant σ admits fun _ s => s.Admitted admits where
  of_fresh id blueprints now hfirst hall := by
    simp only [Session.Admitted, Session.blueprints_fresh]
    exact ⟨hfirst, hall⟩
  of_anchor s actor now hs := by
    refine (s.anchor_blueprints actor now).mono ?_
    intro s' h
    simpa only [Session.Admitted, h] using hs
  of_judgeMove s actor target kind now _ hs := by
    refine (s.judgeMove_blueprints actor target kind now).mono ?_
    intro out h
    simpa only [Session.Admitted, h] using hs
  of_tick s actor name now hs := by
    refine Yields.bind (Yields.mapM (Handler.tick_blueprint actor now) s.handlers)
      fun handlers hh => Yields.pure ?_
    simpa only [Session.Admitted, Session.blueprints, hh] using hs
  of_movedBlindly _ _ _ hs := hs
  of_bypassOff _ _ _ hs := hs

end
end RegionAccess
