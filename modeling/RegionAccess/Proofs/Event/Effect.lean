import RegionAccess.Engine
import RegionAccess.Proofs.Event.Environment
import RegionAccess.Proofs.Event.Filtering
import RegionAccess.Proofs.Index.Tables

/-! What a block change comes to where every question has its fixed answer. The checks of the
environment fall into three stages, and only those of the middle one may cancel. -/
namespace RegionAccess

namespace BlockChange
variable {passes : Flag → Location → Bool} {e : BlockChange} {checks : List EnvironmentCheck}

/-- A check by a flag of which it is known where it passes. -/
def settle (passes : Flag → Location → Bool) (e : BlockChange) (check : EnvironmentCheck) :
    BlockChange :=
  if check.cancels then
    { e with isCancelled := e.isCancelled || e.locations.any (!passes check.flag ·) }
  else { e with locations := e.locations.filter (passes check.flag) }

/-- Checks that do not cancel leave what passes all of them. -/
theorem foldl_settle_narrowing (h : ∀ check ∈ checks, check.cancels = false) (e : BlockChange) :
    checks.foldl (settle passes) e =
      { e with locations := e.locations.filter fun l => checks.all (passes ·.flag l) } := by
  induction checks generalizing e with
  | nil =>
    have hall : (e.locations.filter fun _ => true) = e.locations :=
      List.filter_eq_self.mpr fun _ _ => rfl
    simp only [List.foldl_nil, List.all_nil, hall]
  | cons check checks ih =>
    obtain ⟨hcheck, hchecks⟩ := List.forall_mem_cons.mp h
    rw [List.foldl_cons, ih hchecks, settle, hcheck, if_neg Bool.false_ne_true]
    simp only [List.filter_filter, List.all_cons, Bool.and_comm]

/-- Checks that cancel leave all locations. -/
theorem foldl_settle_cancelling (h : ∀ check ∈ checks, check.cancels = true) (e : BlockChange) :
    checks.foldl (settle passes) e =
      { e with isCancelled := e.isCancelled ||
          checks.any fun check => e.locations.any (!passes check.flag ·) } := by
  induction checks generalizing e with
  | nil => simp
  | cons check checks ih =>
    obtain ⟨hcheck, hchecks⟩ := List.forall_mem_cons.mp h
    rw [List.foldl_cons, ih hchecks, settle, hcheck, if_pos rfl]
    simp only [List.any_cons, Bool.or_assoc]

/-- An explosion flag cancels a break: the world asks for that, and the flag stops something that
the piston flag left. -/
def Explodes (passes : Flag → Location → Bool) (e : BlockChange) (policy : WorldPolicy) : Prop :=
  policy.explosionCancels = true ∧ e.kind = .breaking ∧ ∃ l ∈ e.locations,
    (e.cause.Governs e.kind .pistons → passes .pistons l = true) ∧
    ∃ f, f.isExplosion = true ∧ e.cause.Governs e.kind f ∧ passes f l = false

/-- The location passes every flag that governs the change. -/
def Clears (passes : Flag → Location → Bool) (e : BlockChange) (l : Location) : Prop :=
  ∀ f, e.cause.Governs e.kind f → passes f l = true

instance (passes : Flag → Location → Bool) (e : BlockChange) (l : Location) :
    Decidable (e.Clears passes l) :=
  inferInstanceAs (Decidable (∀ f, e.cause.Governs e.kind f → passes f l = true))

/-- The change once its environment is checked. -/
def settled (passes : Flag → Location → Bool) (e : BlockChange) (policy : WorldPolicy) :
    BlockChange := (e.cause.environmentChecks e.kind policy).foldl (settle passes) e

theorem settled_of_sparing {policy : WorldPolicy} (hp : policy.explosionCancels = false)
    (passes : Flag → Location → Bool) (e : BlockChange) : e.settled passes policy =
      { e with locations := e.locations.filter fun l =>
          (e.cause.environmentChecks e.kind policy).all (passes ·.flag l) } := by
  refine foldl_settle_narrowing (fun check hcheck => ?_) e
  rw [(Cause.governs_of_mem hcheck).2, hp, Bool.and_false]

/-- Where explosions cancel, the explosion flags are tried on what the piston flag left. -/
theorem settled_of_cancelling {policy : WorldPolicy} (hp : policy.explosionCancels = true)
    {first blasts last : List EnvironmentCheck}
    (h : e.cause.Stages e.kind policy first blasts last) (passes : Flag → Location → Bool) :
    e.settled passes policy =
      let left := e.locations.filter fun l => first.all (passes ·.flag l)
      { e with
        locations := left.filter fun l => last.all (passes ·.flag l)
        isCancelled := e.isCancelled ||
          blasts.any fun check => left.any (!passes check.flag ·) } := by
  have hblasts : ∀ check ∈ blasts, check.cancels = true :=
    fun check hcheck => (h.blasts_cancel check hcheck).trans hp
  rw [settled, h.split, List.foldl_append, List.foldl_append,
    foldl_settle_narrowing h.first_narrows, foldl_settle_cancelling hblasts,
    foldl_settle_narrowing h.last_narrows]

theorem settled_isCancelled_iff (he : e.isCancelled = false) (policy : WorldPolicy) :
    (e.settled passes policy).isCancelled = true ↔ e.Explodes passes policy := by
  cases hp : policy.explosionCancels with
  | false =>
    rw [settled_of_sparing hp]
    simp [he, Explodes, hp]
  | true =>
    obtain ⟨first, blasts, last, h⟩ := e.cause.exists_stages e.kind policy
    have hleft (l : Location) : first.all (passes ·.flag l) = true ↔
        (e.cause.Governs e.kind .pistons → passes .pistons l = true) :=
      List.all_eq_true.trans (h.forall_first (P := fun f => passes f l = true))
    have hblast (l : Location) : (∃ check ∈ blasts, passes check.flag l = false) ↔
        ∃ f, f.isExplosion = true ∧ e.cause.Governs e.kind f ∧ passes f l = false :=
      h.exists_blasts (P := fun f => passes f l = false)
    rw [settled_of_cancelling hp h]
    simp only [he, Bool.false_or, List.any_eq_true, List.mem_filter, Bool.not_eq_true']
    constructor
    · rintro ⟨check, hcheck, l, ⟨hl, hpistons⟩, hfails⟩
      obtain ⟨f, hf, hgoverns, hfail⟩ := (hblast l).mp ⟨check, hcheck, hfails⟩
      exact ⟨hp, hgoverns.kind_of_isExplosion hf, l, hl, (hleft l).mp hpistons, f, hf, hgoverns,
        hfail⟩
    · rintro ⟨-, -, l, hl, hpistons, hexplosion⟩
      obtain ⟨check, hcheck, hfails⟩ := (hblast l).mpr hexplosion
      exact ⟨check, hcheck, l, ⟨hl, (hleft l).mpr hpistons⟩, hfails⟩

/-- Unless the change was cancelled, no matter in which order the flags were tried. -/
theorem settled_locations {policy : WorldPolicy}
    (hs : (e.settled passes policy).isCancelled = false) :
    (e.settled passes policy).locations = e.locations.filter fun l => e.Clears passes l := by
  have hall (l : Location) : (e.cause.environmentChecks e.kind policy).all (passes ·.flag l) =
      decide (e.Clears passes l) := by
    rw [Bool.eq_iff_iff, decide_eq_true_iff, List.all_eq_true]
    exact Cause.forall_environmentChecks (P := fun f => passes f l = true)
  simp only [← hall]
  cases hp : policy.explosionCancels with
  | false => rw [settled_of_sparing hp]
  | true =>
    obtain ⟨first, blasts, last, h⟩ := e.cause.exists_stages e.kind policy
    rw [settled_of_cancelling hp h] at hs ⊢
    obtain ⟨-, hspared⟩ := Bool.or_eq_false_iff.mp hs
    dsimp only
    rw [List.filter_filter, h.split]
    apply List.filter_congr
    intro l hl
    rw [List.all_append, List.all_append]
    cases hfirst : first.all (passes ·.flag l) with
    | false => rw [Bool.and_false, Bool.false_and]
    | true =>
      have hblasts : blasts.all (passes ·.flag l) = true := by
        rw [List.all_eq_true]
        intro check hcheck
        refine Bool.of_not_eq_false fun hfails => List.any_eq_false.mp hspared check hcheck ?_
        exact List.any_eq_true.mpr ⟨l, List.mem_filter.mpr ⟨hl, hfirst⟩, by rw [hfails]; rfl⟩
      rw [hblasts, Bool.and_true, Bool.true_and, Bool.true_and]

/-- Locations and cancellation are all that the checks may change. -/
theorem settled_eq (passes : Flag → Location → Bool) (e : BlockChange) (policy : WorldPolicy) :
    e.settled passes policy =
      { e with
        locations := (e.settled passes policy).locations
        isCancelled := (e.settled passes policy).isCancelled } := by
  cases hp : policy.explosionCancels with
  | false => rw [settled_of_sparing hp]
  | true =>
    obtain ⟨first, blasts, last, h⟩ := e.cause.exists_stages e.kind policy
    rw [settled_of_cancelling hp h]

@[simp] theorem settled_cause (policy : WorldPolicy) :
    (e.settled passes policy).cause = e.cause := by rw [settled_eq]

@[simp] theorem settled_world (policy : WorldPolicy) :
    (e.settled passes policy).world = e.world := by rw [settled_eq]

theorem leftAt_filter_isCancelled_iff (he : e.isCancelled = false) (keep : Location → Bool) :
    (e.leftAt (e.locations.filter keep)).isCancelled = true ↔
      (∃ l, l ∈ e.locations) ∧ ∀ l ∈ e.locations, keep l = false := by
  have hempty : e.locations.filter keep = [] ↔ ∀ l ∈ e.locations, keep l = false := by
    simp only [List.filter_eq_nil_iff, Bool.not_eq_true]
  simp only [leftAt, he, Bool.false_or, Bool.and_eq_true, List.isEmpty_iff, hempty]
  apply and_congr_left
  intro hnone
  rw [hempty.mpr hnone, List.length_nil, bne_iff_ne, ne_comm, ← Nat.pos_iff_ne_zero,
    List.length_pos_iff_exists_mem]

/-- The change once all is checked, where it is known who may build and whether anyone asks. -/
def outcome (passes : Flag → Location → Bool) (mayBuild : Location → Bool) (bypasses : Bool)
    (e : BlockChange) (policy : WorldPolicy) : BlockChange :=
  let settled := e.settled passes policy
  if settled.isCancelled || bypasses then settled
  else settled.leftAt (settled.locations.filter mayBuild)

variable {mayBuild : Location → Bool} {bypasses : Bool}

theorem outcome_isCancelled_iff (he : e.isCancelled = false) (policy : WorldPolicy) :
    (e.outcome passes mayBuild bypasses policy).isCancelled = true ↔
      e.Explodes passes policy ∨ ¬ e.Explodes passes policy ∧ bypasses = false ∧
        (∃ l ∈ e.locations, e.Clears passes l) ∧
        ∀ l ∈ e.locations, e.Clears passes l → mayBuild l = false := by
  have hiff : (e.settled passes policy).isCancelled = true ↔ e.Explodes passes policy :=
    settled_isCancelled_iff he policy
  cases hs : (e.settled passes policy).isCancelled with
  | true => simp [outcome, hs, hiff.mp hs]
  | false =>
    have hexplodes : ¬ e.Explodes passes policy := fun h => by simp [hiff.mpr h] at hs
    cases bypasses with
    | true => simp [outcome, hs, hexplodes]
    | false =>
      simp only [outcome, hs, Bool.or_self, Bool.false_eq_true, if_false]
      rw [leftAt_filter_isCancelled_iff hs, settled_locations hs]
      simp [hexplodes]

theorem outcome_eq (he : e.isCancelled = false) {policy : WorldPolicy}
    (h : (e.outcome passes mayBuild bypasses policy).isCancelled = false) :
    e.outcome passes mayBuild bypasses policy =
      { e with locations := e.locations.filter fun l =>
          decide (e.Clears passes l) && (bypasses || mayBuild l) } := by
  have hs : (e.settled passes policy).isCancelled = false := by
    cases hs : (e.settled passes policy).isCancelled with
    | true => simp [outcome, hs] at h
    | false => rfl
  simp only [outcome, hs, Bool.false_or] at h ⊢
  cases bypasses with
  | true =>
    rw [if_pos rfl, settled_eq, hs, settled_locations hs, he]
    simp
  | false =>
    rw [if_neg Bool.false_ne_true] at h ⊢
    have hleft (left : List Location) : (e.settled passes policy).leftAt left =
        { e with
          locations := left
          isCancelled := ((e.settled passes policy).leftAt left).isCancelled } := by
      rw [settled_eq]
      rfl
    rw [hleft, h, settled_locations hs, he, List.filter_filter]
    simp [Bool.and_comm]

section
variable {σ : Type} [RegionIndex σ]

theorem yields_check (check : EnvironmentCheck)
    (h : ∀ l, Yields (environmentAllows check.flag l : StateM σ Bool) (· = passes check.flag l))
    (e : BlockChange) : Yields (e.check check : StateM σ _) (· = e.settle passes check) := by
  refine Yields.bind (P := fun out => out.2 = settle passes e check) ?_
    fun out hout => Yields.pure hout
  unfold filter settle
  split
  · refine Yields.bind (Yields.someFails h e.locations) ?_
    intro rejected hr
    subst hr
    exact Yields.pure rfl
  · refine Yields.bind (Yields.keepPassing h e.locations) ?_
    intro left hl
    subst hl
    exact Yields.pure rfl

theorem yields_checks (h : ∀ check ∈ checks, ∀ l,
      Yields (environmentAllows check.flag l : StateM σ Bool) (· = passes check.flag l))
    (e : BlockChange) :
    Yields (checks.foldlM check e : StateM σ _) (· = checks.foldl (settle passes) e) := by
  induction checks generalizing e with
  | nil => exact Yields.pure rfl
  | cons check checks ih =>
    obtain ⟨hcheck, hchecks⟩ := List.forall_mem_cons.mp h
    rw [List.foldlM_cons]
    refine Yields.bind (yields_check check hcheck e) ?_
    intro out hout
    subst hout
    exact ih hchecks _

end
end BlockChange

/-- Nothing is asked about a change that is exempt. -/
theorem Engine.onBlockChange_of_exempt {σ : Type} [RegionIndex σ] (engine : Engine)
    (platform : Platform) {change : BlockChange}
    (h : change.isExempt engine.config.worlds = true) :
    (engine.onBlockChange platform change : StateM σ _) = pure change := by
  rw [onBlockChange, BlockChange.checkEnvironment, if_pos h, pure_bind, BlockChange.protect, h,
    Bool.true_or, if_pos rfl]

namespace FixedAnswers
variable {σ : Type} [RegionIndex σ] (fixed : FixedAnswers σ)

theorem yields_checkEnvironment (e : BlockChange) (worlds : WorldPolicies)
    (he : e.isExempt worlds = false) :
    Yields (e.checkEnvironment worlds : StateM σ _)
      (· = e.settled fixed.passes (worlds.policyOf e.world)) := by
  rw [BlockChange.checkEnvironment, if_neg (ne_true_of_eq_false he)]
  refine BlockChange.yields_checks (fun check hcheck l => ?_) e
  exact fixed.yields_environmentAllows (Cause.governs_of_mem hcheck).1.failVerdict l

/-- However often the subject is asked, the answers are those it would get first. -/
theorem keepPassing_build (subject : Subject) (ls : List Location) (s : σ) :
    (keepPassing (fun l => allows l .build) ls subject s).1.1 =
      ls.filter (fixed.mayBuild subject) := by
  rw [keepPassing_eq_paired]
  refine keepPassing_eq_filter
    (P := fun t => t.1.judgement fixed.found = subject.judgement fixed.found) ?_ ls rfl
  rintro l ⟨asked, t⟩ hasked
  obtain ⟨hanswer, hnext⟩ := fixed.allows_build l asked t
  refine ⟨hanswer.trans ?_, hnext.trans hasked⟩
  rw [mayBuild, mayBuild, hasked]

theorem yields_checkBuild (e : BlockChange) (subject : Subject) :
    Yields (e.checkBuild subject : StateM σ _)
      (· = e.leftAt (e.locations.filter (fixed.mayBuild subject))) := by
  intro s
  rw [BlockChange.checkBuild_eq, ← fixed.keepPassing_build subject e.locations s]
  rfl

theorem yields_protect (e : BlockChange) (platform : Platform) (worlds : WorldPolicies)
    (registry : Registry) : Yields (e.protect platform worlds registry : StateM σ _) fun out =>
      out = if e.isExempt worlds || e.cause.rootBypasses platform registry e.world then e
        else e.leftAt
          (e.locations.filter (fixed.mayBuild (e.cause.subject platform worlds))) := by
  unfold BlockChange.protect
  split
  · exact Yields.pure rfl
  · exact fixed.yields_checkBuild e _

theorem yields_onBlockChange (engine : Engine) (platform : Platform) {change : BlockChange}
    (h : change.isExempt engine.config.worlds = false) :
    Yields (engine.onBlockChange platform change : StateM σ _) (· = change.outcome fixed.passes
      (fixed.mayBuild (change.cause.subject platform engine.config.worlds))
      (change.cause.rootBypasses platform engine.registry change.world)
      (engine.config.worlds.policyOf change.world)) := by
  have huse : (engine.config.worlds.policyOf change.world).useRegions = true := by
    simpa [BlockChange.isExempt] using (Bool.or_eq_false_iff.mp h).2
  refine Yields.bind (fixed.yields_checkEnvironment change engine.config.worlds h) ?_
  rintro settled rfl
  refine (fixed.yields_protect _ platform engine.config.worlds engine.registry).mono ?_
  rintro out rfl
  simp [BlockChange.isExempt, BlockChange.outcome, huse]

/-- Policy leaves an exempt change as it is. Any other is cancelled where an explosion flag asks
for that, and where some locations pass the environment but none of them the build flag; else it
keeps, in their order, the locations that pass both. -/
theorem block_change_effect (engine : Engine) (platform : Platform) (change : BlockChange) (s : σ) :
    let worlds := engine.config.worlds
    let policy := worlds.policyOf change.world
    let bypasses := change.cause.RootBypasses platform engine.registry change.world
    let mayBuild := fixed.mayBuild (change.cause.subject platform worlds)
    let explodes := change.Explodes fixed.passes policy
    let out := (engine.onBlockChange platform change s).1
    (change.isCancelled = true ∨ policy.useRegions = false → out = change) ∧
    (change.isCancelled = false ∧ policy.useRegions = true →
      (out.isCancelled = true ↔ explodes ∨ ¬ explodes ∧ ¬ bypasses ∧
        (∃ l ∈ change.locations, change.Clears fixed.passes l) ∧
        ∀ l ∈ change.locations, change.Clears fixed.passes l → mayBuild l = false) ∧
      (out.isCancelled = false → out = { change with
        locations := change.locations.filter fun l =>
          decide (change.Clears fixed.passes l ∧ (bypasses ∨ mayBuild l = true)) })) := by
  intro worlds policy bypasses mayBuild explodes out
  constructor
  · intro h
    have hexempt : change.isExempt worlds = true := by
      rcases h with h | h <;> simp [BlockChange.isExempt, h, policy]
    exact congrArg (fun x => (x s).1) (engine.onBlockChange_of_exempt platform hexempt)
  · rintro ⟨hc, hu⟩
    have hexempt : change.isExempt worlds = false := by
      simp [BlockChange.isExempt, hc, hu, policy]
    have hbypasses : change.cause.rootBypasses platform engine.registry change.world =
        decide bypasses :=
      Bool.eq_iff_iff.mpr (Cause.rootBypasses_iff.trans decide_eq_true_iff.symm)
    have hout : out = change.outcome fixed.passes mayBuild (decide bypasses) policy :=
      hbypasses ▸ fixed.yields_onBlockChange engine platform hexempt s
    rw [hout]
    constructor
    · rw [BlockChange.outcome_isCancelled_iff hc, decide_eq_false_iff_not]
    · intro h
      rw [BlockChange.outcome_eq hc h]
      simp only [Bool.decide_and, Bool.decide_or, Bool.decide_eq_true]

end FixedAnswers

/-- A blast at its border spares the town, and the rest of it goes ahead. -/
theorem block_change_effect_at_town :
    let fixed := Town.steadyTables.fixed fun _ => rfl
    let subject := Town.blast.cause.subject Town.platform {}
    let s : Served Town.steadyTables := {}
    let out := (({} : Engine).onBlockChange Town.platform Town.blast s).1
    Town.blast.isCancelled = false ∧ (({} : WorldPolicies).policyOf Town.world).useRegions = true ∧
    out.isCancelled = false ∧ out.locations = [Town.place 0, Town.place 0] ∧
    out = { Town.blast with
      locations := Town.blast.locations.filter fun l =>
        decide (Town.blast.Clears fixed.passes l ∧ fixed.mayBuild subject l = true) } := by
  intro fixed subject s out
  have huse : (({} : WorldPolicies).policyOf Town.world).useRegions = true := by decide
  have hout : out.isCancelled = false := by decide
  have heffect := (fixed.block_change_effect {} Town.platform Town.blast s).2 ⟨rfl, huse⟩
  have hchecked : ¬ Town.blast.cause.RootBypasses Town.platform ({} : Engine).registry
      Town.blast.world := by decide
  refine ⟨rfl, huse, hout, rfl, (heffect.2 hout).trans ?_⟩
  simp only [hchecked, false_or]
  rfl

end RegionAccess
