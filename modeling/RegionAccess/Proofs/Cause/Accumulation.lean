import RegionAccess.Proofs.Cause.Triggers

/-! What later triggers add to a chain. It goes behind what earlier triggers came to, so the root
stays the one that the first of them brought. -/
namespace RegionAccess

section
variable {r : Relations} {s : Attributions} {c : Chain} {triggers : List ActorRef} {a : ActorRef}

/-- Actors whose keys are all taken add nothing. -/
theorem expand_enters_of_seen {actors : List ActorRef}
    (h : ∀ a ∈ actors, ∀ key, a.key? = some key → key ∈ c.seen) :
    expand r s c (actors.map .enter) = c := by
  induction actors with
  | nil => rw [List.map_nil, expand]
  | cons a actors ih =>
    obtain ⟨ha, hrest⟩ := List.forall_mem_cons.mp h
    rw [List.map_cons, expand_eq_of_advances (.skipped ha), ih hrest]

theorem resolution_append_of_mem_keys {later : List ActorRef}
    (h : ∀ t ∈ later, ∀ key, t.key? = some key → key ∈ (resolve r s triggers).keys) :
    resolution r s (triggers ++ later) = resolution r s triggers := by
  rw [resolution_append]
  refine expand_enters_of_seen fun t ht key hkey => ?_
  exact (resolve_keys_perm r s triggers).mem_iff.mp (h t ht key hkey)

/-- Triggers come to nothing only where each of them is unknown. -/
theorem resolution_of_actors_nil (h : (resolve r s triggers).actors = []) :
    resolution r s triggers = {} := by
  refine expand_enters_of_seen fun t ht key hkey => ?_
  have hmem := trigger_mem_resolve_keys (r := r) (s := s) ht hkey
  rw [Cause.keys, h] at hmem
  exact absurd hmem List.not_mem_nil

theorem exists_root_of_trigger (ha : a ∈ triggers) (hknown : a ≠ .unknown) :
    ∃ root, (resolve r s triggers).root? = some root := by
  obtain ⟨key, hkey⟩ := ActorRef.exists_key hknown
  obtain ⟨b, hb, -⟩ := Cause.mem_keys.mp (trigger_mem_resolve_keys (r := r) (s := s) ha hkey)
  exact ⟨_, List.head?_eq_some_head (List.ne_nil_of_mem hb)⟩

end

theorem Cause.root?_of_prefix {c d : Cause} {root : ActorRef} (h : c.actors <+: d.actors)
    (hroot : c.root? = some root) : d.root? = some root := by
  obtain ⟨rest, hactors⟩ := h
  rw [root?, ← hactors, List.head?_append, ← root?, hroot, Option.some_or]

theorem Cause.isKnown_of_prefix {c d : Cause} (h : c.actors <+: d.actors)
    (hknown : c.isKnown = true) : d.isKnown = true := by
  obtain ⟨rest, hactors⟩ := h
  rw [isKnown, ← hactors, List.any_append, ← isKnown, hknown, Bool.true_or]

/-- Later triggers only add to what earlier ones came to: the chain goes on behind it, a cause that
is indirect or known stays so, and triggers whose keys are in the chain change nothing. So the root
stays, and it is the one that the first trigger has alone which is not unknown. -/
theorem later_triggers_only_add (r : Relations) (s : Attributions) (earlier later : List ActorRef) :
    let before := resolve r s earlier
    let after := resolve r s (earlier ++ later)
    before.actors <+: after.actors ∧
    (before.isIndirect = true → after.isIndirect = true) ∧
    (before.isKnown = true → after.isKnown = true) ∧
    ((∀ t ∈ later, ∀ key, t.key? = some key → key ∈ before.keys) → after = before) ∧
    (∀ root, before.root? = some root → after.root? = some root) ∧
    (before.actors = [] → ∀ t rest, later = t :: rest → t ≠ .unknown →
      ∃ root, (resolve r s [t]).root? = some root ∧ after.root? = some root) := by
  intro before after
  have hstart : before.actors <+: after.actors := by
    show _ <+: (resolution r s (earlier ++ later)).actors
    rw [resolution_append]
    exact actors_prefix_expand r s _ _
  refine ⟨hstart, fun hindirect => ?_, Cause.isKnown_of_prefix hstart, fun hkeys => ?_,
    fun root => Cause.root?_of_prefix hstart, ?_⟩
  · show (resolution r s (earlier ++ later)).isIndirect = true
    rw [resolution_append]
    exact isIndirect_expand hindirect _
  · exact congrArg Chain.toCause (resolution_append_of_mem_keys hkeys)
  · rintro hnothing t rest rfl hknown
    obtain ⟨root, hroot⟩ :=
      exists_root_of_trigger (r := r) (s := s) (List.mem_singleton_self t) hknown
    refine ⟨root, hroot, Cause.root?_of_prefix (c := resolve r s [t]) ?_ hroot⟩
    -- where nothing came before, the chain of the trigger is where the others go on
    show _ <+: (resolution r s (earlier ++ ([t] ++ rest))).actors
    rw [resolution_append, resolution_of_actors_nil hnothing, List.map_append, expand_append]
    exact actors_prefix_expand r s _ _

/-- Nothing is added by the boat when it comes up again, and the unknown before it do not count. -/
theorem later_triggers_only_add_in_raid :
    let r : Relations := .ofTable Raid.table
    let boat := resolve r Raid.records [.entity Raid.boat]
    let again := resolve r Raid.records ([.entity Raid.boat] ++ [.unknown, .entity Raid.boat])
    let late := resolve r Raid.records ([.unknown] ++ [.entity Raid.boat, .player Raid.rider])
    again = boat ∧ ∃ root, boat.root? = some root ∧ late.root? = some root := by
  intro r boat again late
  have hkeys : ∀ t ∈ ([.unknown, .entity Raid.boat] : List ActorRef),
      ∀ key, t.key? = some key → key ∈ boat.keys := by
    intro t ht key hkey
    refine trigger_mem_resolve_keys (a := t) ?_ hkey
    rcases List.mem_cons.mp ht with rfl | ht
    · cases hkey
    · exact ht
  have hnothing : (resolve r Raid.records [.unknown]).actors = [] := by
    rw [resolve, List.map_singleton, expand_eq_of_advances (.skipped_of_none rfl), expand]
    rfl
  obtain ⟨-, -, -, hsame, -⟩ :=
    later_triggers_only_add r Raid.records [.entity Raid.boat] [.unknown, .entity Raid.boat]
  obtain ⟨-, -, -, -, -, hroot⟩ :=
    later_triggers_only_add r Raid.records [.unknown] [.entity Raid.boat, .player Raid.rider]
  exact ⟨hsame hkeys, hroot hnothing _ _ rfl ActorRef.noConfusion⟩

end RegionAccess
