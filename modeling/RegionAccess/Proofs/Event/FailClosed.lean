import RegionAccess.Engine
import RegionAccess.Proofs.Event.Environment
import RegionAccess.Proofs.Event.Filtering
import RegionAccess.Proofs.Index.Tables

/-! Block changes fail closed. Nothing is assumed of the index: what is left of a change rests on
calls that were made for it and answered by an explicit allow, one for each location and flag. -/
namespace RegionAccess
open RegionIndex Recording

/-- Policy takes locations from a change or cancels it, and does nothing else to it. -/
structure BlockChange.Narrows (e out : BlockChange) : Prop where
  kind : out.kind = e.kind
  cause : out.cause = e.cause
  world : out.world = e.world
  locations : out.locations.Sublist e.locations
  isCancelled : e.isCancelled = true → out.isCancelled = true

namespace BlockChange.Narrows
variable {e e' e'' : BlockChange}

protected theorem refl (e : BlockChange) : e.Narrows e := ⟨rfl, rfl, rfl, .refl _, id⟩

protected theorem trans (h : e.Narrows e') (h' : e'.Narrows e'') : e.Narrows e'' where
  kind := h'.kind.trans h.kind
  cause := h'.cause.trans h.cause
  world := h'.world.trans h.world
  locations := h'.locations.trans h.locations
  isCancelled := h'.isCancelled ∘ h.isCancelled

theorem leftAt {left : List Location} (h : left.Sublist e.locations) : e.Narrows (e.leftAt left) :=
  ⟨rfl, rfl, rfl, h, fun he => by simp [BlockChange.leftAt, he]⟩

end BlockChange.Narrows

/-- What the computation leaves of a change, uncancelled, rests on calls it makes, one for each
location and in their order. -/
def Vouches {τ π : Type} [Recording τ π] (x : StateM τ BlockChange) (call : Location → Call) :
    Prop :=
  ∀ t, ∃ asked, calls (x t).2 = calls t ++ asked ∧
    ((x t).1.isCancelled = false → ((x t).1.locations.map call).Sublist asked)

namespace Vouches
variable {τ π : Type} [Recording τ π] {x : StateM τ BlockChange}
  {next : BlockChange → StateM τ BlockChange} {call : Location → Call}

theorem of_cancelled {e : BlockChange} (h : e.isCancelled = true) :
    Vouches (pure e : StateM τ BlockChange) call := by
  intro t
  refine ⟨[], (List.append_nil _).symm, fun hout => ?_⟩
  cases h.symm.trans hout

/-- What was vouched for stays so when more is taken away. -/
theorem before (hx : Vouches x call) (hnarrows : ∀ e, Yields (next e) e.Narrows)
    (hextended : ∀ e t, calls t <+: calls (next e t).2) : Vouches (x >>= next) call := by
  intro t
  obtain ⟨asked, hasked, hsub⟩ := hx t
  obtain ⟨more, hmore⟩ := hextended (x t).1 (x t).2
  have hn : (x t).1.Narrows (next (x t).1 (x t).2).1 := hnarrows (x t).1 (x t).2
  refine ⟨asked ++ more, ?_, fun hout => ?_⟩
  · rw [← List.append_assoc, ← hasked]
    exact hmore.symm
  · have hin : (x t).1.isCancelled = false := by
      apply Bool.of_not_eq_true
      intro h
      cases hout.symm.trans (hn.isCancelled h)
    have hmap : ((next (x t).1 (x t).2).1.locations.map call).Sublist asked :=
      (hn.locations.map call).trans (hsub hin)
    exact hmap.trans (List.sublist_append_left asked more)

theorem after {P : BlockChange → Prop} (hx : Yields x P)
    (hextended : ∀ t, calls t <+: calls (x t).2) (hnext : ∀ e, P e → Vouches (next e) call) :
    Vouches (x >>= next) call := by
  intro t
  obtain ⟨before, hbefore⟩ := hextended t
  obtain ⟨asked, hasked, hsub⟩ := hnext (x t).1 (hx t) (x t).2
  refine ⟨before ++ asked, ?_, fun hout => ?_⟩
  · rw [← List.append_assoc, hbefore]
    exact hasked
  · exact (hsub hout).trans (List.sublist_append_right before asked)

/-- In a record that starts empty, all calls are the computation's own. -/
theorem sublist_calls {σ : Type} {x : StateM (Recorded σ) BlockChange} (h : Vouches x call) (s : σ)
    (hout : (x ⟨s, []⟩).1.isCancelled = false) :
    ((x ⟨s, []⟩).1.locations.map call).Sublist (x ⟨s, []⟩).2.calls := by
  obtain ⟨asked, hasked, hsub⟩ := h ⟨s, []⟩
  have hcalls : (x ⟨s, []⟩).2.calls = asked := hasked
  rw [hcalls]
  exact hsub hout

end Vouches

namespace BlockChange

section
variable {σ : Type} [RegionIndex σ] (e : BlockChange)

theorem narrows_filter {τ : Type} (passes : Location → StateM τ Bool) (cancels : Bool) :
    Yields (e.filter passes cancels) fun out => e.Narrows out.2 := by
  unfold filter
  split
  · refine Yields.bind Yields.any fun rejected _ => Yields.pure ?_
    exact ⟨rfl, rfl, rfl, .refl _, fun he => by simp [he]⟩
  · refine Yields.bind (Yields.keepPassing_sublist passes e.locations) ?_
    intro left hleft
    exact Yields.pure ⟨rfl, rfl, rfl, hleft, id⟩

theorem narrows_check (check : EnvironmentCheck) :
    Yields (e.check check : StateM σ _) e.Narrows :=
  Yields.bind (e.narrows_filter _ _) fun _ hout => Yields.pure hout

theorem narrows_checks (checks : List EnvironmentCheck) :
    Yields (checks.foldlM check e : StateM σ _) e.Narrows :=
  Yields.foldlM (fun e' check h => (e'.narrows_check check).mono fun _ h' => h.trans h') checks
    (.refl e)

theorem narrows_checkEnvironment (worlds : WorldPolicies) :
    Yields (e.checkEnvironment worlds : StateM σ _) e.Narrows := by
  unfold checkEnvironment
  split
  · exact Yields.pure (.refl e)
  · exact e.narrows_checks _

theorem narrows_checkBuild (subject : Subject) :
    Yields (e.checkBuild subject : StateM σ _) e.Narrows := by
  intro s
  have hleft : (keepPassing (fun l => allows l .build) e.locations subject s).1.1.Sublist
      e.locations := by
    rw [keepPassing_eq_paired]
    exact Yields.keepPassing_sublist _ e.locations (subject, s)
  exact .leftAt hleft

theorem narrows_protect (platform : Platform) (worlds : WorldPolicies) (registry : Registry) :
    Yields (e.protect platform worlds registry : StateM σ _) e.Narrows := by
  unfold protect
  split
  · exact Yields.pure (.refl e)
  · exact e.narrows_checkBuild _

theorem mirrors_filter {τ π : Type} [Recording τ π] {passes : Location → StateM τ Bool}
    {passes' : Location → StateM π Bool} (h : ∀ l, Mirrors (passes l) (passes' l))
    (cancels : Bool) : Mirrors (e.filter passes cancels) (e.filter passes' cancels) := by
  unfold filter
  refine Mirrors.ite ?_ ?_
  · exact (Mirrors.someFails h e.locations).bind fun rejected => Mirrors.pure _
  · exact (Mirrors.keepPassing h e.locations).bind fun left => Mirrors.pure _

end

section
variable {τ π : Type} [RegionIndex τ] [RegionIndex π] [Recording τ π] [Transparent τ π]
  (e : BlockChange)

theorem mirrors_check (check : EnvironmentCheck) :
    Mirrors (e.check check : StateM τ _) (e.check check : StateM π _) :=
  (e.mirrors_filter (Transparent.environmentAllows check.flag) check.cancels).bind
    fun out => Mirrors.pure out.2

theorem mirrors_checks (checks : List EnvironmentCheck) :
    Mirrors (checks.foldlM check e : StateM τ _) (checks.foldlM check e : StateM π _) :=
  Mirrors.foldlM mirrors_check checks e

theorem mirrors_checkEnvironment (worlds : WorldPolicies) :
    Mirrors (e.checkEnvironment worlds : StateM τ _) (e.checkEnvironment worlds : StateM π _) :=
  Mirrors.ite (Mirrors.pure e) (e.mirrors_checks _)

theorem mirrors_checkBuild (subject : Subject) :
    Mirrors (e.checkBuild subject : StateM τ _) (e.checkBuild subject : StateM π _) := by
  rw [checkBuild_eq, checkBuild_eq]
  refine Mirrors.bind (Mirrors.of_paired ?_ subject) fun out => Mirrors.pure _
  rw [paired_keepPassing, paired_keepPassing]
  exact Mirrors.keepPassing (fun l => Mirrors.paired (Transparent.allows l .build)) e.locations

theorem mirrors_protect (platform : Platform) (worlds : WorldPolicies) (registry : Registry) :
    Mirrors (e.protect platform worlds registry : StateM τ _)
      (e.protect platform worlds registry : StateM π _) :=
  Mirrors.ite (Mirrors.pure e) (e.mirrors_checkBuild _)

end

section
variable {σ : Type} [RegionIndex σ]

theorem attests_environmentAllows {f : Flag} (hf : f.category.failVerdict = false) :
    Attests (environmentAllows f : Location → StateM (Recorded σ) Bool)
      (Call.environment · f (.ok (some .allow))) := by
  intro l r
  refine ⟨[.environment l f (environment l f r.index).1], rfl, fun hyes => ?_⟩
  have hanswer : (environment l f r.index).1 = .ok (some .allow) :=
    (Flag.verdict_eq_true_iff hf).mp hyes
  rw [hanswer]
  exact List.mem_singleton_self _

theorem attests_build :
    Attests (fun l => paired (allows l .build : StateT Subject (StateM (Recorded σ)) Bool))
      (Call.inquiry · .build (.ok (some .allow))) := by
  rintro l ⟨subject, r⟩
  obtain ⟨asked, answer, hcalls, hverdict⟩ := allows_recorded l .build subject r
  refine ⟨asked ++ [.inquiry l .build answer], ?_, fun hyes => ?_⟩
  · rw [← List.append_assoc]
    exact hcalls
  · have hanswer : answer = .ok (some .allow) :=
      (Flag.verdict_eq_true_iff (f := .build) rfl).mp (hverdict.symm.trans hyes)
    rw [hanswer]
    exact List.mem_append_right _ List.mem_cons_self

theorem vouches_filter {τ π : Type} [Recording τ π] {passes : Location → StateM τ Bool}
    {call : Location → Call} (h : Attests passes call) (e : BlockChange) (cancels : Bool) :
    Vouches (do return (← e.filter passes cancels).2) call := by
  intro t
  cases cancels with
  | true =>
    obtain ⟨asked, hasked, hsub⟩ := h.someFails e.locations t
    exact ⟨asked, hasked, fun hout => hsub (Bool.or_eq_false_iff.mp hout).2⟩
  | false =>
    obtain ⟨asked, hasked, hsub⟩ := h.keepPassing e.locations t
    exact ⟨asked, hasked, fun _ => hsub⟩

/-- Every flag checked on the way is vouched for in the end. -/
theorem vouches_checks {checks : List EnvironmentCheck} {check : EnvironmentCheck}
    (hcheck : check ∈ checks) (hf : check.flag.category.failVerdict = false) (e : BlockChange) :
    Vouches (checks.foldlM BlockChange.check e : StateM (Recorded σ) _)
      (Call.environment · check.flag (.ok (some .allow))) := by
  induction checks generalizing e with
  | nil => cases hcheck
  | cons first checks ih =>
    rw [List.foldlM_cons]
    rcases List.mem_cons.mp hcheck with rfl | hmem
    · exact (vouches_filter (attests_environmentAllows hf) e check.cancels).before
        (fun e => e.narrows_checks checks) fun e => (e.mirrors_checks checks).extended
    · exact Vouches.after (P := fun _ => True) Yields.any (e.mirrors_check first).extended
        fun e _ => ih hmem e

theorem vouches_checkEnvironment {e : BlockChange} {worlds : WorldPolicies}
    (he : e.isExempt worlds = false) {f : Flag} (hf : e.cause.Governs e.kind f) :
    Vouches (e.checkEnvironment worlds : StateM (Recorded σ) _)
      (Call.environment · f (.ok (some .allow))) := by
  obtain ⟨check, hcheck, rfl⟩ := hf.checked (worlds.policyOf e.world)
  rw [checkEnvironment, if_neg (ne_true_of_eq_false he)]
  exact vouches_checks hcheck hf.failVerdict e

theorem vouches_checkBuild (e : BlockChange) (subject : Subject) :
    Vouches (e.checkBuild subject : StateM (Recorded σ) _)
      (Call.inquiry · .build (.ok (some .allow))) := by
  intro r
  obtain ⟨asked, hasked, hsub⟩ := attests_build.keepPassing e.locations (subject, r)
  rw [← paired_keepPassing] at hasked hsub
  exact ⟨asked, hasked, fun _ => hsub⟩

/-- Where policy looks and the root has no bypass, only cancelled changes are not asked about. -/
theorem vouches_protect {e : BlockChange} {platform : Platform} {worlds : WorldPolicies}
    {registry : Registry} (hu : (worlds.policyOf e.world).useRegions = true)
    (hb : ¬ e.cause.RootBypasses platform registry e.world) :
    Vouches (e.protect platform worlds registry : StateM (Recorded σ) _)
      (Call.inquiry · .build (.ok (some .allow))) := by
  unfold protect
  split
  next hfree =>
    apply Vouches.of_cancelled
    rw [← Cause.rootBypasses_iff, Bool.not_eq_true] at hb
    simpa [isExempt, hu, hb] using hfree
  next => exact vouches_checkBuild e _

end
end BlockChange

/-- Nothing is allowed by calls that failed. -/
theorem eq_nil_of_failed {made : List Call} (hfailed : ∀ c ∈ made, c.failed = true)
    {call : Location → Call} (hcall : ∀ l, (call l).failed = false) {left : List Location}
    (h : (left.map call).Sublist made) : left = [] := by
  apply List.eq_nil_iff_forall_not_mem.mpr
  intro l hl
  have hmade : call l ∈ made := h.subset (List.mem_map_of_mem hl)
  cases (hcall l).symm.trans (hfailed _ hmade)

namespace Engine
variable {σ : Type} [RegionIndex σ] (engine : Engine) (platform : Platform) {change : BlockChange}

theorem mirrors_onBlockChange (change : BlockChange) :
    Mirrors (engine.onBlockChange platform change : StateM (Recorded σ) _)
      (engine.onBlockChange platform change : StateM σ _) :=
  (change.mirrors_checkEnvironment _).bind fun e => e.mirrors_protect _ _ _

theorem vouches_environment (h : change.isExempt engine.config.worlds = false) {f : Flag}
    (hf : change.cause.Governs change.kind f) :
    Vouches (engine.onBlockChange platform change : StateM (Recorded σ) _)
      (Call.environment · f (.ok (some .allow))) :=
  (BlockChange.vouches_checkEnvironment h hf).before
    (fun e => e.narrows_protect platform engine.config.worlds engine.registry)
    fun e => (e.mirrors_protect platform engine.config.worlds engine.registry).extended

theorem vouches_build
    (hu : (engine.config.worlds.policyOf change.world).useRegions = true)
    (hb : ¬ change.cause.RootBypasses platform engine.registry change.world) :
    Vouches (engine.onBlockChange platform change : StateM (Recorded σ) _)
      (Call.inquiry · .build (.ok (some .allow))) := by
  apply Vouches.after (change.narrows_checkEnvironment engine.config.worlds)
    (change.mirrors_checkEnvironment engine.config.worlds).extended
  intro e he
  refine BlockChange.vouches_protect ?_ ?_
  · rw [he.world]
    exact hu
  · rw [he.cause, he.world]
    exact hb

/-- Whatever the index answers, fails at or changes between calls: what is left of a change that is
not cancelled was allowed during this very call, by each flag that governs it and, unless the root
bypasses, by the build flag. So nothing is left if all calls failed and any was called for. -/
theorem survivors_were_allowed (hc : change.isCancelled = false)
    (hu : (engine.config.worlds.policyOf change.world).useRegions = true) (s : σ) :
    let bypasses := change.cause.RootBypasses platform engine.registry change.world
    let run := engine.onBlockChange platform change (⟨s, []⟩ : Recorded σ)
    run.1 = (engine.onBlockChange platform change s).1 ∧
    (run.1.isCancelled = false →
      (∀ f, change.cause.Governs change.kind f →
        (run.1.locations.map (Call.environment · f (.ok (some .allow)))).Sublist run.2.calls) ∧
      (¬ bypasses →
        (run.1.locations.map (Call.inquiry · .build (.ok (some .allow)))).Sublist run.2.calls) ∧
      ((∀ c ∈ run.2.calls, c.failed = true) →
        (∃ f, change.cause.Governs change.kind f) ∨ ¬ bypasses →
          run.1.locations = [])) := by
  intro bypasses run
  have hexempt : change.isExempt engine.config.worlds = false := by
    simp [BlockChange.isExempt, hc, hu]
  have henvironment (hout : run.1.isCancelled = false) (f : Flag)
      (hf : change.cause.Governs change.kind f) :
      (run.1.locations.map (Call.environment · f (.ok (some .allow)))).Sublist run.2.calls :=
    (engine.vouches_environment platform hexempt hf).sublist_calls s hout
  have hbuild (hout : run.1.isCancelled = false) (hb : ¬ bypasses) :
      (run.1.locations.map (Call.inquiry · .build (.ok (some .allow)))).Sublist run.2.calls :=
    (engine.vouches_build platform hu hb).sublist_calls s hout
  refine ⟨(engine.mirrors_onBlockChange platform change).value ⟨s, []⟩, fun hout => ?_⟩
  refine ⟨henvironment hout, hbuild hout, fun hfailed hcalled => ?_⟩
  rcases hcalled with ⟨f, hf⟩ | hb
  · exact eq_nil_of_failed hfailed (fun _ => rfl) (henvironment hout f hf)
  · exact eq_nil_of_failed hfailed (fun _ => rfl) (hbuild hout hb)

end Engine

/-- With its first call failing, the blast at the town goes ahead at one location; with all of them
failing, nowhere. -/
theorem survivors_were_allowed_at_town :
    let run := ({} : Engine).onBlockChange Town.platform Town.blast
      (⟨{}, []⟩ : Recorded (Served Town.tables))
    let dark := ({} : Engine).onBlockChange Town.platform Town.blast
      (⟨{}, []⟩ : Recorded (Served Town.darkTables))
    Town.blast.isCancelled = false ∧ (({} : WorldPolicies).policyOf Town.world).useRegions = true ∧
    Town.blast.cause.Governs .breaking .creeperExplosion ∧
    (run.1.isCancelled = false ∧ run.1.locations = [Town.place 0] ∧
      (run.1.locations.map (Call.environment · .creeperExplosion (.ok (some .allow)))).Sublist
        run.2.calls ∧
      (run.1.locations.map (Call.inquiry · .build (.ok (some .allow)))).Sublist run.2.calls) ∧
    dark.1.isCancelled = false ∧ (∀ c ∈ dark.2.calls, c.failed = true) ∧ dark.1.locations = [] := by
  intro run dark
  have hfree : Town.blast.isCancelled = false := rfl
  have huse : (({} : WorldPolicies).policyOf Town.world).useRegions = true := by decide
  have hgoverns : Town.blast.cause.Governs .breaking .creeperExplosion :=
    .creeperExplosion ⟨_, List.mem_cons_self, rfl⟩
  have hrun : run.1.isCancelled = false := by decide
  have hdark : dark.1.isCancelled = false := by decide
  have hfailed : ∀ c ∈ dark.2.calls, c.failed = true := by decide
  have hallowed := (Engine.survivors_were_allowed {} Town.platform hfree huse
    ({} : Served Town.tables)).2 hrun
  have hclosed := (Engine.survivors_were_allowed {} Town.platform hfree huse
    ({} : Served Town.darkTables)).2 hdark
  exact ⟨rfl, huse, hgoverns, ⟨hrun, rfl, hallowed.1 _ hgoverns, hallowed.2.1 (by decide)⟩, hdark,
    hfailed, hclosed.2.2 hfailed (.inl ⟨_, hgoverns⟩)⟩

end RegionAccess
