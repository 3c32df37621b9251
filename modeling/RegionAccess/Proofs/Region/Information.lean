import RegionAccess.Proofs.Cause.Intermediaries
import RegionAccess.Proofs.Region.Standing

/-! The less is known of a player, the worse they stand. Groups that are lost can only cost a
standing, and a player whom the platform cannot supply is judged with no groups at all. -/
namespace RegionAccess

theorem inGroups_iff {groups : List String} {group : String} :
    inGroups groups group = true ↔ ∃ g ∈ groups, Text.lower g = Text.lower group := by
  simp [inGroups]

namespace Identity

/-- One player, and no group counts them in by the first identity that does not by the second. -/
structure KnownLess (less more : Identity) : Prop where
  id : less.id = more.id
  groups : ∀ group, less.hasGroup group = true → more.hasGroup group = true

section
variable {less more : Identity}

/-- Groups are told apart up to letter case, and so are the groups that were lost. -/
theorem KnownLess.of_groups (hid : less.id = more.id)
    (hless : less.hasGroup = inGroups less.groups) (hmore : more.hasGroup = inGroups more.groups)
    (h : ∀ g ∈ less.groups, ∃ g' ∈ more.groups, Text.lower g = Text.lower g') :
    less.KnownLess more := by
  refine ⟨hid, fun group hgroup => ?_⟩
  rw [hless, inGroups_iff] at hgroup
  rw [hmore, inGroups_iff]
  obtain ⟨g, hg, hlower⟩ := hgroup
  obtain ⟨g', hg', hsame⟩ := h g hg
  exact ⟨g', hg', hsame.symm.trans hlower⟩

/-- Without groups, nothing is known but who the player is. -/
theorem KnownLess.of_bare (hid : less.id = more.id) (h : less.hasGroup = inGroups []) :
    less.KnownLess more := by
  refine ⟨hid, fun group hgroup => ?_⟩
  rw [h] at hgroup
  cases hgroup

theorem KnownLess.contains (h : less.KnownLess more) {d : Domain} (hd : d.contains less = true) :
    d.contains more = true := by
  unfold Domain.contains at hd ⊢
  rw [← h.id]
  rcases Bool.or_eq_true_iff.mp hd with hlisted | hgroup
  · rw [hlisted, Bool.true_or]
  · obtain ⟨group, hmem, hin⟩ := List.any_eq_true.mp hgroup
    rw [List.any_eq_true.mpr ⟨group, hmem, h.groups group hin⟩, Bool.or_true]

/-- What gave the standing counts for whoever is known better too. -/
theorem KnownLess.standing_le (h : less.KnownLess more) (regions : List ProtectedRegion) :
    more.standing regions ≤ less.standing regions := by
  cases hless : less.standing regions with
  | owner =>
    obtain ⟨r, hr, howner⟩ := (less.standing_eq_owner_iff regions).mp hless
    rw [(more.standing_eq_owner_iff regions).mpr ⟨r, hr, h.contains howner⟩]
  | member =>
    obtain ⟨-, r, hr, hmember⟩ := (less.standing_eq_member_iff regions).mp hless
    by_cases howner : ∃ r ∈ regions, r.owners.contains more = true
    · rw [(more.standing_eq_owner_iff regions).mpr howner]
      decide
    · rw [(more.standing_eq_member_iff regions).mpr ⟨howner, r, hr, h.contains hmember⟩]
  | nonMember => cases more.standing regions <;> decide

end
end Identity

theorem Cause.subject_of_player {c : Cause} {p : PlayerRef} (h : c.root? = some (.player p))
    (platform : Platform) (worlds : WorldPolicies) :
    c.subject platform worlds = (ActorRef.player p).subject platform worlds := by
  rw [subject, isKnown_of_root?_eq_player h, h]

/-- Of two identities of a player, the one whose groups the other has up to letter case stands no
better, whatever the regions. So whoever causes something while the platform cannot supply them, and
is judged as a bare offline identity, stands no better than with the live identity. -/
theorem Identity.lost_information_never_raises_standing {σ : Type} [RegionIndex σ] :
    (∀ less more : Identity, less.id = more.id → less.hasGroup = inGroups less.groups →
      more.hasGroup = inGroups more.groups →
      (∀ g ∈ less.groups, ∃ g' ∈ more.groups, Text.lower g = Text.lower g') →
      ∀ regions, more.standing regions ≤ less.standing regions) ∧
    ∀ (c : Cause) (p : PlayerRef) (live : Identity) (informed silent : Platform)
      (worlds : WorldPolicies), c.root? = some (.player p) → informed.player? p.id = some live →
      live.id = p.id → silent.player? p.id = none →
      c.subject silent worlds = .offline { id := p.id, name := p.name } ∧
      ∀ regions (s s' : σ), ((c.subject informed worlds).standing regions s).1.1 ≤
        ((c.subject silent worlds).standing regions s').1.1 := by
  constructor
  · intro less more hid hless hmore hgroups regions
    exact (KnownLess.of_groups hid hless hmore hgroups).standing_le regions
  · intro c p live informed silent worlds hroot hlive hid hnone
    have hinformed : c.subject informed worlds = .player live := by
      simp only [c.subject_of_player hroot, ActorRef.subject, hlive]
    have hsilent : c.subject silent worlds = .offline { id := p.id, name := p.name } := by
      simp only [c.subject_of_player hroot, ActorRef.subject, hnone]
    refine ⟨hsilent, fun regions s s' => ?_⟩
    have hbare : ({ id := p.id, name := p.name } : OfflineIdentity).toIdentity.KnownLess live :=
      .of_bare hid.symm rfl
    rw [hinformed, hsilent]
    exact hbare.standing_le regions

/-- A builder in capitals is the builder of the camp but not its owner, and whoever is not supplied
is nothing there. -/
theorem lost_information_never_raises_standing_in_camp :
    let camp : ProtectedRegion := {
      id := .ofName "camp"
      owners := ({} : Domain).withGroup "staff"
      members := ({} : Domain).withGroup "builders" }
    let bob : PlayerRef := ⟨⟨⟨7⟩⟩, "bob"⟩
    let more : Identity := {
      id := bob.id, name := "bob", groups := ["Builders", "Staff"], permits := fun _ => false }
    let less : Identity := { more with groups := ["BUILDERS"], hasGroup := inGroups ["BUILDERS"] }
    let informed : Platform := { Town.platform with player? := fun _ => some more }
    let cause : Cause := ⟨[.player bob], false⟩
    let s : Served Town.tables := {}
    (∀ g ∈ less.groups, ∃ g' ∈ more.groups, Text.lower g = Text.lower g') ∧
    (less.standing [camp] = .member ∧ more.standing [camp] = .owner ∧
      more.standing [camp] ≤ less.standing [camp]) ∧
    ((cause.subject Town.platform {}).standing [camp] s).1.1 = .nonMember ∧
      ((cause.subject informed {}).standing [camp] s).1.1 ≤
        ((cause.subject Town.platform {}).standing [camp] s).1.1 := by
  intro camp bob more less informed cause s
  have hgroups : ∀ g ∈ less.groups, ∃ g' ∈ more.groups, Text.lower g = Text.lower g' := by
    decide
  have hlost := Identity.lost_information_never_raises_standing (σ := Served Town.tables)
  have hstanding := hlost.1 less more rfl rfl rfl hgroups [camp]
  refine ⟨hgroups, ⟨by decide, by decide, hstanding⟩, by decide, ?_⟩
  exact (hlost.2 cause bob more informed Town.platform {} rfl rfl rfl rfl).2 [camp] s s

end RegionAccess
