import RegionAccess.Proofs.Index.Tables
import RegionAccess.Proofs.Session.Handlers
import RegionAccess.Proofs.Session.Position

/-! Verdict and position agree, and a refusal is all there is to a refused move. Sessions are made,
started and told of regions before a move is judged, and the index may fail at any of these points;
whatever of that was done already leaves nothing of the target behind. -/
namespace RegionAccess
open RegionIndex

/-- From every state of its host, a computation sends nothing where it comes to such a value. -/
def Quiet {σ α : Type} (x : HostM σ α) (P : α → Prop) : Prop :=
  ∀ h, P (x h).1 → (x h).2.notices = h.notices

namespace Quiet
variable {σ α β : Type} {P : α → Prop} {Q : β → Prop}

protected theorem pure (a : α) : Quiet (Pure.pure a : HostM σ α) P := fun _ _ => rfl

protected theorem bind {x : HostM σ α} {f : α → HostM σ β} (hx : Quiet x fun _ => True)
    (hf : ∀ a, Quiet (f a) Q) : Quiet (x >>= f) Q := fun h hq =>
  (hf _ (x h).2 hq).trans (hx h trivial)

theorem consult (question : StateM σ α) : Quiet (RegionAccess.consult question) P := fun _ _ => rfl

/-- A value that is never reached says nothing of what is sent. -/
theorem of_yields_not {x : HostM σ α} (hx : Yields x fun a => ¬ P a) : Quiet x P := fun h hp =>
  absurd hp (hx h)

end Quiet

section
variable {σ : Type} [RegionIndex σ]

/-- The library's own rules judge a move without a word. -/
theorem Handler.permits_quiet (m : Move) {h : Handler} (hb : h.blueprint.isBuiltIn = true) :
    Quiet (h.permits m : HostM σ _) fun _ => True := by
  cases h with
  | entryExit => exact Quiet.bind (Quiet.consult _) fun _ => Quiet.pure _
  | watch w => exact Quiet.pure _
  | host rule memory => cases hb

theorem allPermit_quiet (m : Move) {handlers : List Handler}
    (hb : ∀ h ∈ handlers, h.blueprint.isBuiltIn = true) :
    Quiet (allPermit m handlers : HostM σ _) fun _ => True := by
  induction handlers with
  | nil => exact Quiet.pure _
  | cons h handlers ih =>
    obtain ⟨hb, hbs⟩ := List.forall_mem_cons.mp hb
    refine Quiet.bind (Handler.permits_quiet m hb) fun ⟨permitted, h'⟩ => ?_
    dsimp only
    split
    · exact Quiet.bind (ih hbs) fun _ => Quiet.pure _
    · exact Quiet.pure _

namespace Session
variable {s : Session}

theorem judgeCrossing_quiet (hb : ∀ h ∈ s.handlers, h.blueprint.isBuiltIn = true)
    (actor : LiveActor) (source target : Location) (here there : RegionSet) (kind : MoveKind)
    (now : Instant) :
    Quiet (s.judgeCrossing actor source target here there kind now : HostM σ _)
      fun out => out.1 ≠ none := by
  refine Quiet.bind (allPermit_quiet _ hb) fun ⟨permitted, handlers⟩ => ?_
  dsimp only
  split
  · exact Quiet.pure _
  · -- handlers hear of the crossing once it is accepted
    refine Quiet.of_yields_not (Yields.bind Yields.any fun _ _ => Yields.pure ?_)
    exact not_not_intro rfl

/-- Nobody hears of a refused move. -/
theorem judgeMove_quiet (hb : ∀ h ∈ s.handlers, h.blueprint.isBuiltIn = true) (actor : LiveActor)
    (target : Location) (kind : MoveKind) (now : Instant) :
    Quiet (s.judgeMove actor target kind now : HostM σ _) fun out => out.1 ≠ none := by
  unfold judgeMove
  split
  next => exact Quiet.pure _
  next source _ =>
    split
    next => exact Quiet.pure _
    next =>
      apply Quiet.bind (Quiet.consult _)
      intro found
      cases found with
      | error e => exact Quiet.pure _
      | ok here =>
        apply Quiet.bind (Quiet.consult _)
        intro found
        cases found with
        | error e => exact Quiet.pure _
        | ok there =>
          refine judgeCrossing_quiet ?_ actor source target here there kind now
          exact hb

/-- The second session is the first, or came to know its regions when the first did not. -/
def Learned (s s' : Session) : Prop :=
  s' = s ∨ s.regionsKnown = false ∧ ∃ here, s' = s.learnRegions here

theorem learned_of_source (s : Session) (source : Location) :
    Yields (s.sourceRegions source : StateM σ _) fun found =>
      ∀ here, found = .ok here → s.Learned (s.learnRegions here) := by
  unfold sourceRegions
  split
  next hknown =>
    refine Yields.pure fun here h => .inl ?_
    rw [learnRegions, ← Except.ok.inj h, ← hknown]
  next hunknown => exact fun _ here _ => .inr ⟨Bool.eq_false_iff.mpr hunknown, here, rfl⟩

/-- A refused move leaves the session be, but for the regions it was judged from. -/
theorem judgeMove_learned (hb : ∀ h ∈ s.handlers, h.blueprint.isBuiltIn = true) (actor : LiveActor)
    (target : Location) (kind : MoveKind) (now : Instant) :
    Yields (s.judgeMove actor target kind now : HostM σ _) fun out =>
      out.1 ≠ none → s.Learned out.2 := by
  have hunseen (t : Session) (source : Location) (ht : s.Learned t) :
      (t.moveUnseen source target kind).1 ≠ none →
        s.Learned (t.moveUnseen source target kind).2 := by
    unfold moveUnseen
    split
    · exact fun _ => ht
    · exact fun hnone => absurd rfl hnone
  refine s.judgeMove_rule actor target now (fun source _ => s.learned_of_source source) Yields.any
    ?_ ?_ ?_ ?_ ?_
  · exact fun _ hnone => absurd rfl hnone
  · exact fun _ _ _ hnone => absurd rfl hnone
  · intro source e _ _ _
    exact hunseen s source (.inl rfl)
  · intro source here e _ _ hhere _
    exact hunseen _ source (hhere here rfl)
  · intro source here there _ _ hhere _
    refine judgeCrossing_rule _ actor source target here there now (allPermit_builtIn _ hb)
      (fun _ _ => Yields.any) ?_ fun _ _ _ _ _ hnone => absurd rfl hnone
    rintro _ rfl _ _
    exact hhere here rfl

end Session

namespace Registry
variable {r : Registry}

/-- Where the session is under way, a move of an actor without a bypass is judged with it. -/
theorem judgeMove_of_active {actor : LiveActor} {target : Location} {s : Session}
    (hb : r.hasBypass actor.toIdentity target.world = false)
    (hs : r.session? actor.id = some s) (ha : s.phase = .active) (kind : MoveKind)
    (now : Instant) :
    (r.judgeMove actor target kind now : HostM σ _) = do
      let (back, s) ← s.judgeMove actor target kind now
      return (back, r.store actor.id s) := by
  simp [judgeMove, hb, sessionOf, hs, Session.ensureActive, ha]

/-- An accepted move leaves its actor at the target. Refused is only a refusable move out of its
block, of an actor without a bypass, and it leaves the actor where it sends them back to. Where
their session was under way, such a refusal changes nothing but that it may come to know its
regions, and nobody hears of it. -/
theorem verdict_agrees_with_position (hr : r.Reachable σ (·.isBuiltIn = true)) (actor : LiveActor)
    (target : Location) (kind : MoveKind) (now : Instant) (host : Host σ) :
    let out := r.judgeMove actor target kind now host
    (out.1.1 = none → out.1.2.IsAt actor.id target) ∧
    ∀ back, out.1.1 = some back →
      kind.isRefusable = true ∧ r.hasBypass actor.toIdentity target.world = false ∧
      back.block ≠ target.block ∧ out.1.2.IsAt actor.id back ∧
      ∀ s, r.session? actor.id = some s → s.phase = .active →
        ∃ s', out.1.2 = r.store actor.id s' ∧
          (s' = s ∨ s.regionsKnown = false ∧ ∃ here, s' = s.learnRegions here) ∧
          out.2.notices = host.notices := by
  intro out
  have hplaced := (sessionInvariant_placed σ _).reachable hr rfl
  have hadmitted := (sessionInvariant_admitted σ _).reachable hr rfl
  have hposition : out.1.2.IsAt actor.id (out.1.1.getD target) :=
    r.judgeMove_isAt actor target kind now host
  refine ⟨fun hnone => ?_, fun back hback => ?_⟩
  · simpa [hnone] using hposition
  · rw [hback, Option.getD_some] at hposition
    have hrefuses := judgeMove_refuses hplaced actor target kind now host back hback
    refine ⟨hrefuses.refusable, hrefuses.checked, ?_, hposition, fun s hs ha => ?_⟩
    · exact Location.leavesBlock_eq_true_iff.mp hrefuses.crossing
    · have hbuilt : ∀ h ∈ s.handlers, h.blueprint.isBuiltIn = true := fun h hh =>
        (hadmitted.sessions _ s hs).2 _ (List.mem_map_of_mem hh)
      have hout : out = (do
          let (back, s) ← s.judgeMove actor target kind now
          return (back, r.store actor.id s) : HostM σ _) host :=
        congrFun (judgeMove_of_active hrefuses.checked hs ha kind now) host
      have hverdict : (s.judgeMove actor target kind now host).1.1 ≠ none := by
        have hsame : out.1.1 = (s.judgeMove actor target kind now host).1.1 := by rw [hout]; rfl
        rw [← hsame, hback]
        exact Option.some_ne_none back
      have hregistry : out.1.2 = r.store actor.id (s.judgeMove actor target kind now host).1.2 := by
        rw [hout]
        rfl
      have hnotices : out.2.notices = host.notices := by
        rw [hout]
        exact Session.judgeMove_quiet hbuilt actor target kind now host hverdict
      have hlearned := Session.judgeMove_learned hbuilt actor target kind now host hverdict
      exact ⟨_, hregistry, hlearned, hnotices⟩

end Registry
end

/-- A visitor whose session started during an outage is not let into town. Their session comes to
know that there was no region where they stood. -/
theorem verdict_agrees_with_position_in_town :
    let r := (({} : Registry).perform (.enter Town.visitor ⟨0⟩) (Town.hostAfter 0)).1
    let out := r.judgeMove Town.visitor (Town.place 10) .walk ⟨1⟩ (Town.hostAfter 1)
    r.Reachable (Served Town.tables) (·.isBuiltIn = true) ∧ out.1.1 = some (Town.place 0) ∧
    out.1.2.IsAt Town.visitor.id (Town.place 0) ∧
    ∃ s, r.session? Town.visitor.id = some s ∧ s.phase = .active ∧
      ∃ s', out.1.2 = r.store Town.visitor.id s' ∧
        (s' = s ∨ s.regionsKnown = false ∧ ∃ here, s' = s.learnRegions here) ∧
        out.2.notices = [] := by
  intro r out
  have hr : r.Reachable (Served Town.tables) (·.isBuiltIn = true) := .step _ _ (.empty {} {})
  have hback : out.1.1 = some (Town.place 0) := rfl
  have hactive : (r.session? Town.visitor.id).any (·.phase = .active) = true := by decide
  obtain ⟨s, hs, ha⟩ := (Option.any_eq_true _ _).mp hactive
  obtain ⟨-, -, -, hposition, hrest⟩ := (Registry.verdict_agrees_with_position hr Town.visitor
    (Town.place 10) .walk ⟨1⟩ (Town.hostAfter 1)).2 _ hback
  have ha : s.phase = .active := of_decide_eq_true ha
  exact ⟨hr, hback, hposition, s, hs, ha, hrest s hs ha⟩

end RegionAccess
