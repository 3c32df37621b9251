import RegionAccess.Proofs.Cause.Reachability

/-! Chains without recorded causes: their keys are those that links lead to from the triggers, in
whatever order and however often these are given. -/
namespace RegionAccess

variable {r : Relations} {s : Attributions} {c c' : Chain} {visits visits' : List Visit}
  {triggers others : List ActorRef} {a b : ActorRef} {key : ActorKey}

theorem Attributions.parent?_empty (a : ActorRef) : ({} : Attributions).parent? a = none := by
  simp [parent?, get?, table]

/-- A cause that is indirect stays so. -/
theorem Advances.isIndirect (h : Advances r s c visits c' visits') (hc : c.isIndirect = true) :
    c'.isIndirect = true := by
  cases h with
  | skipped => exact hc
  | opened => rw [Chain.opened_isIndirect, hc, Bool.true_or]
  | closed => exact hc

theorem isIndirect_expand (h : c.isIndirect = true) (visits : List Visit) :
    (expand r s c visits).isIndirect = true :=
  expand_invariant (I := fun c _ => c.isIndirect = true) Advances.isIndirect h

/-- Whoever the link of the actor names is taken, or about to be, and the sort of the link is
taken into account. -/
structure Chain.Follows (r : Relations) (c : Chain) (visits : List Visit) (a : ActorRef) :
    Prop where
  covers : ∀ b, r.Names a b → c.Covers visits b
  indirect : r.actsIndirectly a = true → c.isIndirect = true

theorem Chain.Follows.advance (h : Advances r s c visits c' visits') (ha : c.Follows r visits a) :
    c'.Follows r visits' a :=
  ⟨fun b hb => (ha.covers b hb).advance h, fun hi => h.isIndirect (ha.indirect hi)⟩

theorem Chain.Follows.opened :
    (c.opened r a key).Follows r ((r.named a).map .enter ++ visits) a := by
  refine ⟨fun b hb => .inl ?_, fun hi => ?_⟩
  · exact List.mem_append_left _ (List.mem_map_of_mem hb)
  · rw [opened_isIndirect, hi, Bool.or_true]

theorem Chain.Follows.congr (h : r.linkOf a = r.linkOf b) (hb : c.Follows r visits b) :
    c.Follows r visits a := by
  constructor
  · intro d hd
    apply hb.covers
    rwa [Relations.Names, Relations.named, ← h]
  · intro hi
    apply hb.indirect
    rwa [Relations.actsIndirectly, ← h]

/-- Each key taken is that of an actor whose link is followed, which is all that makes a cause
indirect. -/
structure Chain.Explored (r : Relations) (triggers : List ActorRef) (c : Chain)
    (visits : List Visit) : Prop where
  followed : ∀ key ∈ c.seen,
    ∃ a, r.Reaches triggers a ∧ a.key? = some key ∧ c.Follows r visits a
  indirect : c.isIndirect = true → ∃ a, r.Reaches triggers a ∧ r.actsIndirectly a = true

theorem Chain.Explored.advance (hs : ∀ a, s.parent? a = none)
    (h : Advances r s c visits c' visits') (ht : c.Traced r s triggers visits)
    (hc : c.Explored r triggers visits) : c'.Explored r triggers visits' := by
  have hkept : ∀ key ∈ c.seen,
      ∃ a, r.Reaches triggers a ∧ a.key? = some key ∧ c'.Follows r visits' a := by
    intro key hkey
    obtain ⟨a, ha, hakey, hfollows⟩ := hc.followed key hkey
    exact ⟨a, ha, hakey, hfollows.advance h⟩
  cases h with
  | skipped => exact ⟨hkept, hc.indirect⟩
  | closed =>
    refine ⟨fun key hkey => hkept key ?_, hc.indirect⟩
    rwa [append_seen, Attributions.ancestors_of_none (hs _)] at hkey
  | @opened a rest key hkey hseen =>
    have ha : r.Reaches triggers a := ht.reached _ List.mem_cons_self
    constructor
    · intro other hother
      rcases List.mem_cons.mp hother with rfl | hother
      · exact ⟨a, ha, hkey, .opened⟩
      · exact hkept other hother
    · intro hi
      rw [opened_isIndirect, Bool.or_eq_true] at hi
      rcases hi with hi | hi
      · exact hc.indirect hi
      · exact ⟨a, ha, hi⟩

theorem explored_resolution (hs : ∀ a, s.parent? a = none) (r : Relations)
    (triggers : List ActorRef) : (resolution r s triggers).Explored r triggers [] := by
  have hstart : ({} : Chain).Explored r triggers (triggers.map .enter) :=
    ⟨fun _ hkey => absurd hkey List.not_mem_nil, Bool.noConfusion⟩
  exact (traced_invariant hstart (.advance hs)).2

/-- Once a key is taken, all references of that key that links lead to are followed. -/
theorem follows_of_reaches (hs : ∀ a, s.parent? a = none) (h : r.AgreesOn triggers)
    (ha : r.Reaches triggers a) (hkey : a.key? = some key)
    (hmem : key ∈ (resolve r s triggers).keys) : (resolution r s triggers).Follows r [] a := by
  have hseen := (resolve_keys_perm r s triggers).mem_iff.mp hmem
  obtain ⟨b, hb, hbkey, hfollows⟩ := (explored_resolution hs r triggers).followed key hseen
  exact hfollows.congr (h a b ha hb (hkey.trans hbkey.symm))

theorem mem_resolve_keys_of_reaches (hs : ∀ a, s.parent? a = none) (h : r.AgreesOn triggers)
    (ha : r.Reaches triggers a) (hkey : a.key? = some key) :
    key ∈ (resolve r s triggers).keys := by
  obtain ⟨t, ht, hpath⟩ := ha
  induction hpath generalizing key with
  | refl => exact trigger_mem_resolve_keys ht hkey
  | @tail b d hpath hnames ih =>
    -- Another reference may have taken the key of the entity. Then that one's link was followed.
    obtain ⟨e, rfl⟩ := hnames.exists_entity
    have hmem : .id e.id ∈ (resolve r s triggers).keys := ih rfl
    have hfollows := follows_of_reaches hs h ⟨t, ht, hpath⟩ rfl hmem
    rw [(resolve_keys_perm r s triggers).mem_iff]
    exact (hfollows.covers d hnames).mem_seen hkey

theorem mem_resolve_keys_iff (hs : ∀ a, s.parent? a = none) (h : r.AgreesOn triggers) :
    key ∈ (resolve r s triggers).keys ↔ ∃ a, r.Reaches triggers a ∧ a.key? = some key := by
  constructor
  · intro hkey
    have hseen := (resolve_keys_perm r s triggers).mem_iff.mp hkey
    obtain ⟨a, ha, hakey, -⟩ := (explored_resolution hs r triggers).followed key hseen
    exact ⟨a, ha, hakey⟩
  · rintro ⟨a, ha, hkey⟩
    exact mem_resolve_keys_of_reaches hs h ha hkey

theorem resolve_isIndirect_iff (hs : ∀ a, s.parent? a = none) (h : r.AgreesOn triggers) :
    (resolve r s triggers).isIndirect = true ↔
      ∃ a, r.Reaches triggers a ∧ r.actsIndirectly a = true := by
  constructor
  · exact (explored_resolution hs r triggers).indirect
  · rintro ⟨a, ha, hi⟩
    obtain ⟨e, rfl⟩ : ∃ e, a = .entity e := by
      cases a with
      | entity e => exact ⟨e, rfl⟩
      | _ => cases hi
    have hmem : .id e.id ∈ (resolve r s triggers).keys := mem_resolve_keys_of_reaches hs h ha rfl
    exact (follows_of_reaches hs h ha rfl hmem).indirect hi

section
variable (ht : ∀ a, a ≠ .unknown → (a ∈ others ↔ a ∈ triggers))
include ht

theorem Relations.reaches_congr (ha : a ≠ .unknown) :
    r.Reaches others a ↔ r.Reaches triggers a :=
  exists_congr fun t => and_congr_left fun hpath => ht t (ne_unknown_of_names hpath ha)

theorem Relations.AgreesOn.congr (h : r.AgreesOn triggers) : r.AgreesOn others := by
  intro a b ha hb hkey
  rcases ActorRef.eq_unknown_or_ne hkey with ⟨rfl, rfl⟩ | ⟨hknown, hknown'⟩
  · rfl
  · exact h a b ((reaches_congr ht hknown).mp ha) ((reaches_congr ht hknown').mp hb) hkey

theorem mem_resolve_keys_congr (hs : ∀ a, s.parent? a = none) (h : r.AgreesOn triggers) :
    key ∈ (resolve r s others).keys ↔ key ∈ (resolve r s triggers).keys := by
  rw [mem_resolve_keys_iff hs (h.congr ht), mem_resolve_keys_iff hs h]
  refine exists_congr fun a => and_congr_left fun hkey => Relations.reaches_congr ht ?_
  rintro rfl
  cases hkey

theorem length_resolve_congr (hs : ∀ a, s.parent? a = none) (h : r.AgreesOn triggers) :
    (resolve r s others).actors.length = (resolve r s triggers).actors.length := by
  have hperm : (resolve r s others).keys.Perm (resolve r s triggers).keys :=
    (List.perm_ext_iff_of_nodup (nodup_resolve_keys r s others)
      (nodup_resolve_keys r s triggers)).mpr fun _ => mem_resolve_keys_congr ht hs h
  rw [← length_resolve_keys, ← length_resolve_keys, hperm.length_eq]

theorem resolve_isIndirect_congr (hs : ∀ a, s.parent? a = none) (h : r.AgreesOn triggers) :
    (resolve r s others).isIndirect = (resolve r s triggers).isIndirect := by
  rw [Bool.eq_iff_iff, resolve_isIndirect_iff hs (h.congr ht), resolve_isIndirect_iff hs h]
  refine exists_congr fun a => and_congr_left fun hi => Relations.reaches_congr ht ?_
  rintro rfl
  cases hi

end

/-- Without recorded causes, a chain has the keys of those that links lead to from the triggers,
and is indirect when one of them is linked to a source, a target or an owner. So the order of the
triggers, their repetition and the unknown among them change neither its keys nor its length, nor
whether it is indirect. -/
theorem keys_are_link_reachable (hs : ∀ a, s.parent? a = none) (h : r.AgreesOn triggers) :
    let cause := resolve r s triggers
    (∀ key, key ∈ cause.keys ↔ ∃ a, r.Reaches triggers a ∧ a.key? = some key) ∧
    (cause.isIndirect = true ↔ ∃ a, r.Reaches triggers a ∧ ∃ x, r.linkOf a = some (.areaSource x) ∨
      r.linkOf a = some (.target x) ∨ r.linkOf a = some (.owner x)) ∧
    ∀ others, (∀ a, a ≠ .unknown → (a ∈ others ↔ a ∈ triggers)) →
      let again := resolve r s others
      (∀ key, key ∈ again.keys ↔ key ∈ cause.keys) ∧
        again.actors.length = cause.actors.length ∧ again.isIndirect = cause.isIndirect := by
  intro cause
  refine ⟨fun key => mem_resolve_keys_iff hs h, ?_, fun others ht => ?_⟩
  · rw [resolve_isIndirect_iff hs h]
    simp only [Relations.actsIndirectly_iff]
  · exact ⟨fun key => mem_resolve_keys_congr ht hs h, length_resolve_congr ht hs h,
      resolve_isIndirect_congr ht hs h⟩

/-- Zombie and skeleton are after each other, and it does not matter in which order the raid is
triggered. -/
theorem keys_are_link_reachable_in_feud :
    let r : Relations := .ofTable Raid.feud
    let triggers : List ActorRef := [.entity Raid.boat, .unknown, .entity Raid.skeleton]
    let cause := resolve r {} triggers
    let again := resolve r {} [.entity Raid.skeleton, .entity Raid.boat, .entity Raid.boat]
    (∀ a, ({} : Attributions).parent? a = none) ∧ r.AgreesOn triggers ∧
      .id Raid.zombie.id ∈ cause.keys ∧ cause.isIndirect = true ∧
      again.actors.length = cause.actors.length := by
  intro r triggers cause again
  have hdistinct : Distinct r {} triggers := by
    refine Raid.distinct (fun e link => Relations.mem_table_of_link?) (List.nil_subset _) ?_
    simp [triggers, Raid.everyone]
  have hzombie : r.Reaches triggers (.entity Raid.zombie) :=
    ⟨.entity Raid.boat, List.mem_cons_self, .single List.mem_cons_self⟩
  obtain ⟨hkeys, hindirect, hothers⟩ :=
    keys_are_link_reachable Attributions.parent?_empty hdistinct.agreesOn
  refine ⟨Attributions.parent?_empty, hdistinct.agreesOn, (hkeys _).mpr ⟨_, hzombie, rfl⟩,
    hindirect.mpr ⟨_, hzombie, _, .inr (.inl rfl)⟩, (hothers _ fun a ha => ?_).2.1⟩
  simp [triggers, ha, or_comm]

end RegionAccess
