import RegionAccess.Proofs.Region.Information
import RegionAccess.Proofs.Storage.RoundTrip

/-! Letter case in the names of groups. It grants nothing and takes nothing: a domain that was
stored keeps its groups in the letters they were written in, one that was built keeps them in lower
case, and both admit the same identities, in whatever letters these name their groups. -/
namespace RegionAccess
open Document Storage

@[simp] theorem inGroups_lower (groups : List String) (group : String) :
    inGroups groups (Text.lower group) = inGroups groups group := by
  simp [inGroups]

@[simp] theorem inGroups_map_lower (groups : List String) (group : String) :
    inGroups (groups.map Text.lower) group = inGroups groups group := by
  simp [inGroups, Function.comp_def]

/-- The identity with the names of its groups in lower case. -/
def Identity.lowered (i : Identity) : Identity :=
  let groups := i.groups.map Text.lower
  { i with groups, hasGroup := inGroups groups }

namespace Domain

/-- The stored form of a domain as anyone may write it, in any order and with repetitions. -/
def listing (players : List EntityId) (groups : List String) : Value :=
  .record [("players", .list (players.map (·.write))), ("groups", .list (groups.map .text))]

/-- Groups are read in the letters they are written in. -/
theorem read?_listing (players : List EntityId) (groups : List String) :
    read? (listing players groups) =
      some { players := .ofList players, groups := .ofList groups } := by
  have hfields : fields? 0 ["players", "groups"] (listing players groups) = some _ :=
    fields?_record 0 rfl (by decide)
  have hplayers := list?_map_of_inverse EntityId.read?_write players
  have hgroups := list?_map_of_inverse text?_text groups
  simp [read?, hfields, List.lookup_cons, hplayers, hgroups]

/-- The domain built of players and groups, one after the other. -/
def build (players : List EntityId) (groups : List String) : Domain :=
  groups.foldl withGroup (players.foldl withPlayer {})

theorem foldl_withPlayer (players : List EntityId) (d : Domain) :
    (players.foldl withPlayer d).groups = d.groups ∧
      ∀ id, id ∈ (players.foldl withPlayer d).players ↔ id ∈ d.players ∨ id ∈ players := by
  induction players generalizing d with
  | nil => simp
  | cons player players ih =>
    obtain ⟨hgroups, hplayers⟩ := ih (d.withPlayer player)
    refine ⟨hgroups, fun id => (hplayers id).trans ?_⟩
    simp only [withPlayer, Std.ExtTreeSet.mem_insert, Std.LawfulEqCmp.compare_eq_iff_eq,
      List.mem_cons]
    rw [or_comm (a := player = id), or_assoc, eq_comm]

theorem foldl_withGroup (groups : List String) (d : Domain) :
    (groups.foldl withGroup d).players = d.players ∧
      ∀ name, name ∈ (groups.foldl withGroup d).groups ↔
        name ∈ d.groups ∨ ∃ group ∈ groups, Text.lower group = name := by
  induction groups generalizing d with
  | nil => simp
  | cons group groups ih =>
    obtain ⟨hplayers, hgroups⟩ := ih (d.withGroup group)
    refine ⟨hplayers, fun name => (hgroups name).trans ?_⟩
    simp only [withGroup, Std.ExtTreeSet.mem_insert, Std.LawfulEqCmp.compare_eq_iff_eq,
      List.exists_mem_cons_iff]
    rw [or_comm (a := Text.lower group = name), or_assoc]

theorem mem_players_build {players : List EntityId} {groups : List String} {id : EntityId} :
    id ∈ (build players groups).players ↔ id ∈ players := by
  simp [build, (foldl_withGroup groups _).1, (foldl_withPlayer players _).2]

theorem mem_groups_build {players : List EntityId} {groups : List String} {name : String} :
    name ∈ (build players groups).groups ↔ ∃ group ∈ groups, Text.lower group = name := by
  simp [build, (foldl_withGroup groups _).2, (foldl_withPlayer players _).1]

theorem contains_iff {d : Domain} {i : Identity} :
    d.contains i = true ↔ i.id ∈ d.players ∨ ∃ name ∈ d.groups, i.hasGroup name = true := by
  simp [contains]

/-- An identity is admitted alike in whatever letters it names its groups. -/
theorem contains_lowered (d : Domain) {i : Identity} (hi : i.hasGroup = inGroups i.groups) :
    d.contains i.lowered = d.contains i := by
  have hgroups : i.lowered.hasGroup = i.hasGroup := by
    funext group
    rw [hi]
    exact inGroups_map_lower i.groups group
  unfold contains
  rw [hgroups]
  rfl

/-- A stored domain and one that was built admit the same identities, which are those of its players
and of whoever names one of its groups in any letters. What the one keeps as it was written the
other keeps in lower case, and the groups of an identity may be in lower case or not. -/
theorem access_ignores_letter_case (players : List EntityId) (groups : List String) {i : Identity}
    (hi : i.hasGroup = inGroups i.groups) :
    let built := build players groups
    ∃ stored, read? (listing players groups) = some stored ∧
      (∀ name, name ∈ stored.groups ↔ name ∈ groups) ∧
      (∀ name, name ∈ built.groups ↔ ∃ group ∈ groups, Text.lower group = name) ∧
      stored.contains i = built.contains i ∧
      (stored.contains i = true ↔ i.id ∈ players ∨
        ∃ name ∈ groups, ∃ group ∈ i.groups, Text.lower group = Text.lower name) ∧
      ∀ d : Domain, d.contains i.lowered = d.contains i := by
  intro built
  let stored : Domain := { players := .ofList players, groups := .ofList groups }
  have hstored : stored.contains i = true ↔ i.id ∈ players ∨
      ∃ name ∈ groups, i.hasGroup name = true := by
    simp [contains_iff, stored]
  have hbuilt : built.contains i = true ↔ i.id ∈ players ∨
      ∃ name ∈ groups, i.hasGroup name = true := by
    -- a group is folded once when the domain is built, and once more when it is looked for
    simp [contains_iff, built, mem_players_build, mem_groups_build, hi]
  refine ⟨stored, read?_listing players groups, fun name => ?_, fun name => mem_groups_build, ?_,
    ?_, fun d => d.contains_lowered hi⟩
  · simp [stored]
  · rw [Bool.eq_iff_iff, hstored, hbuilt]
  · simp only [hstored, hi, inGroups_iff]

end Domain

/-- Two crews are stored in capitals, the one ending in a sigma and the other beginning with a
dotted I. A builder who names them in small letters is admitted, a stranger is not. -/
theorem access_ignores_letter_case_in_camp :
    let crews := ["ΟΔΟΣ", "İZMİR"]
    let builder : Identity :=
      { id := ⟨⟨7⟩⟩, name := "bob", groups := ["οδος"], permits := fun _ => false }
    let stranger : Identity :=
      { id := ⟨⟨8⟩⟩, name := "eve", groups := ["odos", "izmir"], permits := fun _ => false }
    let built := Domain.build [] crews
    ∃ stored, Domain.read? (Domain.listing [] crews) = some stored ∧
      "ΟΔΟΣ" ∈ stored.groups ∧ "οδος" ∈ built.groups ∧
      (stored.contains builder = true ∧ built.contains builder = true) ∧
      (stored.contains stranger = false ∧ built.contains stranger = false) ∧
      stored.contains stranger.lowered = false := by
  intro crews builder stranger built
  obtain ⟨stored, hread, hgroups, hlowered, hsame, hadmits, -⟩ :=
    Domain.access_ignores_letter_case [] crews (i := builder) rfl
  obtain ⟨_, hread', -, -, hsame', hadmits', hfolded⟩ :=
    Domain.access_ignores_letter_case [] crews (i := stranger) rfl
  obtain rfl := Option.some.inj (hread.symm.trans hread')
  have hbuilder : stored.contains builder = true := hadmits.mpr (by decide +kernel)
  have hstranger : stored.contains stranger = false :=
    Bool.eq_false_iff.mpr fun h => absurd (hadmits'.mp h) (by decide +kernel)
  refine ⟨stored, hread, (hgroups _).mpr (by decide), (hlowered _).mpr (by decide +kernel),
    ⟨hbuilder, hsame ▸ hbuilder⟩, ⟨hstranger, hsame' ▸ hstranger⟩, ?_⟩
  exact (hfolded stored).trans hstranger

end RegionAccess
