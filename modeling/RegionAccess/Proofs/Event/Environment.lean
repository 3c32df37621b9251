import RegionAccess.Event.Environment

/-! Which flags govern a change, and the order its checks come in: the piston flag, then the flags
for explosions, which alone may cancel, then those for creatures. -/
namespace RegionAccess

/-- The chain holds an actor of that kind, at whatever place. -/
def Cause.Holds (c : Cause) (kind : EntityKind) : Prop :=
  ∃ a ∈ c.actors, a.entityKind? = some kind

/-- The first block of the chain is part of a piston. -/
def Cause.StartsAtPiston (c : Cause) : Prop :=
  ∃ b, c.firstBlock? = some b ∧ b.kind.isPiston = true

/-- The flags of the environment that apply to changes of a kind with a given cause. -/
inductive Cause.Governs (c : Cause) : ChangeKind → Flag → Prop where
  | pistons (kind : ChangeKind) : c.StartsAtPiston → c.Governs kind .pistons
  | snowmanTrails : c.Holds .snowGolem → c.Governs .placing .snowmanTrails
  | enderBuild (kind : ChangeKind) : c.Holds .enderman → c.Governs kind .enderBuild
  | creeperExplosion : c.Holds .creeper → c.Governs .breaking .creeperExplosion
  | enderDragonDamage : c.Holds .enderDragon → c.Governs .breaking .enderDragonDamage
  | otherExplosion : c.Holds .endCrystal → c.Governs .breaking .otherExplosion
  | ravagerGrief : c.Holds .ravager → c.Governs .breaking .ravagerGrief

def Flag.isExplosion (f : Flag) : Bool :=
  [creeperExplosion, enderDragonDamage, otherExplosion].contains f

/-- Of checks with what they depend on, those that are made. -/
def EnvironmentCheck.applicable (entries : List (Bool × EnvironmentCheck)) :
    List EnvironmentCheck := (entries.filter (·.1)).map (·.2)

namespace EnvironmentCheck

theorem applicable_append (as bs : List (Bool × EnvironmentCheck)) :
    applicable (as ++ bs) = applicable as ++ applicable bs := by
  simp only [applicable, List.filter_append, List.map_append]

theorem forall_applicable {P : EnvironmentCheck → Prop} {entries : List (Bool × EnvironmentCheck)}
    (h : ∀ entry ∈ entries, P entry.2) : ∀ check ∈ applicable entries, P check := by
  intro check hcheck
  obtain ⟨entry, hentry, rfl⟩ := List.mem_map.mp hcheck
  exact h entry (List.mem_filter.mp hentry).1

end EnvironmentCheck

/-- The environment is checked by flags of one category, and their failures deny. -/
theorem Cause.Governs.failVerdict {c : Cause} {kind : ChangeKind} {f : Flag}
    (h : c.Governs kind f) : f.category.failVerdict = false := by
  cases h <;> rfl

/-- Explosions are told apart only when blocks break. -/
theorem Cause.Governs.kind_of_isExplosion {c : Cause} {kind : ChangeKind} {f : Flag}
    (h : c.Governs kind f) (hf : f.isExplosion = true) : kind = .breaking := by
  cases h with
  | pistons => cases hf
  | snowmanTrails => cases hf
  | enderBuild => cases hf
  | creeperExplosion => rfl
  | enderDragonDamage => rfl
  | otherExplosion => rfl
  | ravagerGrief => rfl

namespace Cause
open EnvironmentCheck
variable {c : Cause} {kind : ChangeKind} {policy : WorldPolicy} {check : EnvironmentCheck}

theorem involves_iff (kind : EntityKind) : c.involves kind = true ↔ c.Holds kind := by
  rw [involves, findKind?, List.find?_isSome]
  simp [Holds]

theorem isPistonDriven_iff : c.isPistonDriven = true ↔ c.StartsAtPiston := by
  simp [isPistonDriven, StartsAtPiston, Option.any_eq_true]

/-- Only explosion flags cancel, and only where the world asks for it. -/
theorem governs_of_mem (h : check ∈ c.environmentChecks kind policy) :
    c.Governs kind check.flag ∧
      check.cancels = (check.flag.isExplosion && policy.explosionCancels) := by
  cases kind with
  | placing =>
    simp only [environmentChecks, List.mem_map, List.mem_filter, List.mem_cons, List.not_mem_nil,
      or_false] at h
    obtain ⟨entry, ⟨rfl | rfl | rfl, applies⟩, rfl⟩ := h
    · exact ⟨.pistons _ (isPistonDriven_iff.mp applies), rfl⟩
    · exact ⟨.snowmanTrails ((involves_iff _).mp applies), rfl⟩
    · exact ⟨.enderBuild _ ((involves_iff _).mp applies), rfl⟩
  | breaking =>
    simp only [environmentChecks, List.mem_map, List.mem_filter, List.mem_cons, List.not_mem_nil,
      or_false] at h
    obtain ⟨entry, ⟨rfl | rfl | rfl | rfl | rfl | rfl, applies⟩, rfl⟩ := h
    · exact ⟨.pistons _ (isPistonDriven_iff.mp applies), rfl⟩
    · exact ⟨.creeperExplosion ((involves_iff _).mp applies), rfl⟩
    · exact ⟨.enderDragonDamage ((involves_iff _).mp applies), rfl⟩
    · exact ⟨.otherExplosion ((involves_iff _).mp applies), rfl⟩
    · exact ⟨.enderBuild _ ((involves_iff _).mp applies), rfl⟩
    · exact ⟨.ravagerGrief ((involves_iff _).mp applies), rfl⟩

theorem Governs.checked {f : Flag} (h : c.Governs kind f) (policy : WorldPolicy) :
    ∃ check ∈ c.environmentChecks kind policy, check.flag = f := by
  cases h with
  | pistons kind h =>
    refine ⟨{ flag := .pistons }, ?_, rfl⟩
    cases kind <;> simp [environmentChecks, isPistonDriven_iff.mpr h]
  | snowmanTrails h =>
    refine ⟨{ flag := .snowmanTrails }, ?_, rfl⟩
    simp [environmentChecks, (involves_iff _).mpr h]
  | enderBuild kind h =>
    refine ⟨{ flag := .enderBuild }, ?_, rfl⟩
    cases kind <;> simp [environmentChecks, (involves_iff _).mpr h]
  | creeperExplosion h =>
    refine ⟨{ flag := .creeperExplosion, cancels := policy.explosionCancels }, ?_, rfl⟩
    simp [environmentChecks, (involves_iff _).mpr h]
  | enderDragonDamage h =>
    refine ⟨{ flag := .enderDragonDamage, cancels := policy.explosionCancels }, ?_, rfl⟩
    simp [environmentChecks, (involves_iff _).mpr h]
  | otherExplosion h =>
    refine ⟨{ flag := .otherExplosion, cancels := policy.explosionCancels }, ?_, rfl⟩
    simp [environmentChecks, (involves_iff _).mpr h]
  | ravagerGrief h =>
    refine ⟨{ flag := .ravagerGrief }, ?_, rfl⟩
    simp [environmentChecks, (involves_iff _).mpr h]

/-- The flags checked are those that govern the change. -/
theorem forall_environmentChecks {P : Flag → Prop} :
    (∀ check ∈ c.environmentChecks kind policy, P check.flag) ↔ ∀ f, c.Governs kind f → P f := by
  constructor
  · intro h f hf
    obtain ⟨check, hcheck, rfl⟩ := hf.checked policy
    exact h check hcheck
  · intro h check hcheck
    exact h check.flag (governs_of_mem hcheck).1

/-- What is asked of all flags that govern a change is settled by going through its checks. -/
instance (c : Cause) (kind : ChangeKind) (P : Flag → Prop) [DecidablePred P] :
    Decidable (∀ f, c.Governs kind f → P f) :=
  decidable_of_iff (∀ check ∈ c.environmentChecks kind {}, P check.flag) forall_environmentChecks

/-- The checks of a change in three stages: the piston flag is checked before explosions, and
creatures after them. -/
structure Stages (c : Cause) (kind : ChangeKind) (policy : WorldPolicy)
    (first blasts last : List EnvironmentCheck) : Prop where
  split : c.environmentChecks kind policy = first ++ (blasts ++ last)
  of_first : ∀ check ∈ first, check.flag = .pistons
  of_blasts : ∀ check ∈ blasts, check.flag.isExplosion = true
  of_last : ∀ check ∈ last, check.flag.isExplosion = false ∧ check.flag ≠ .pistons

theorem exists_stages (c : Cause) (kind : ChangeKind) (policy : WorldPolicy) :
    ∃ first blasts last, c.Stages kind policy first blasts last := by
  cases kind with
  | placing =>
    refine ⟨applicable [(c.isPistonDriven, { flag := .pistons })], [],
      applicable [(c.involves .snowGolem, { flag := .snowmanTrails }),
        (c.involves .enderman, { flag := .enderBuild })], ⟨?_, ?_, ?_, ?_⟩⟩
    · exact applicable_append [_] _
    · exact forall_applicable (by simp)
    · exact fun _ h => absurd h List.not_mem_nil
    · apply forall_applicable
      simp only [List.mem_cons, List.not_mem_nil, or_false, forall_eq_or_imp, forall_eq]
      decide
  | breaking =>
    refine ⟨applicable [(c.isPistonDriven, { flag := .pistons })],
      applicable [(c.involves .creeper,
          { flag := .creeperExplosion, cancels := policy.explosionCancels }),
        (c.involves .enderDragon,
          { flag := .enderDragonDamage, cancels := policy.explosionCancels }),
        (c.involves .endCrystal,
          { flag := .otherExplosion, cancels := policy.explosionCancels })],
      applicable [(c.involves .enderman, { flag := .enderBuild }),
        (c.involves .ravager, { flag := .ravagerGrief })], ⟨?_, ?_, ?_, ?_⟩⟩
    · rw [← applicable_append, ← applicable_append]
      rfl
    · exact forall_applicable (by simp)
    · exact forall_applicable (by simp [Flag.isExplosion])
    · apply forall_applicable
      simp only [List.mem_cons, List.not_mem_nil, or_false, forall_eq_or_imp, forall_eq]
      decide

namespace Stages
variable {first blasts last : List EnvironmentCheck} (h : c.Stages kind policy first blasts last)
include h

theorem mem_iff : check ∈ c.environmentChecks kind policy ↔
    check ∈ first ∨ check ∈ blasts ∨ check ∈ last := by
  rw [h.split, List.mem_append, List.mem_append]

theorem first_narrows : ∀ check ∈ first, check.cancels = false := by
  intro check hcheck
  rw [(governs_of_mem (h.mem_iff.mpr (.inl hcheck))).2, h.of_first check hcheck]
  rfl

theorem blasts_cancel : ∀ check ∈ blasts, check.cancels = policy.explosionCancels := by
  intro check hcheck
  rw [(governs_of_mem (h.mem_iff.mpr (.inr (.inl hcheck)))).2, h.of_blasts check hcheck,
    Bool.true_and]

theorem last_narrows : ∀ check ∈ last, check.cancels = false := by
  intro check hcheck
  rw [(governs_of_mem (h.mem_iff.mpr (.inr (.inr hcheck)))).2, (h.of_last check hcheck).1,
    Bool.false_and]

/-- The first stage checks the piston flag where it governs the change. -/
theorem forall_first {P : Flag → Prop} :
    (∀ check ∈ first, P check.flag) ↔ (c.Governs kind .pistons → P .pistons) := by
  constructor
  · intro hall hpistons
    obtain ⟨check, hcheck, hflag⟩ := hpistons.checked policy
    rcases h.mem_iff.mp hcheck with hmem | hmem | hmem
    · exact hflag ▸ hall check hmem
    · have hblast := h.of_blasts check hmem
      rw [hflag] at hblast
      cases hblast
    · exact absurd hflag (h.of_last check hmem).2
  · intro hpistons check hcheck
    have hgoverns := (governs_of_mem (h.mem_iff.mpr (.inl hcheck))).1
    rw [h.of_first check hcheck] at hgoverns ⊢
    exact hpistons hgoverns

/-- The middle stage checks the explosion flags that govern the change. -/
theorem exists_blasts {P : Flag → Prop} :
    (∃ check ∈ blasts, P check.flag) ↔ ∃ f, f.isExplosion = true ∧ c.Governs kind f ∧ P f := by
  constructor
  · rintro ⟨check, hcheck, hp⟩
    have hgoverns := (governs_of_mem (h.mem_iff.mpr (.inr (.inl hcheck)))).1
    exact ⟨check.flag, h.of_blasts check hcheck, hgoverns, hp⟩
  · rintro ⟨f, hf, hgoverns, hp⟩
    obtain ⟨check, hcheck, rfl⟩ := hgoverns.checked policy
    rcases h.mem_iff.mp hcheck with hmem | hmem | hmem
    · rw [h.of_first check hmem] at hf
      cases hf
    · exact ⟨check, hmem, hp⟩
    · rw [(h.of_last check hmem).1] at hf
      cases hf

end Stages
end Cause
end RegionAccess
