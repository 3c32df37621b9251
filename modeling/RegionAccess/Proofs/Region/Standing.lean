import Mathlib.Order.Lattice
import RegionAccess.Proofs.Index.Tables

/-! Standing in a list of regions is the best standing in any part of it, whoever is asked about.
What has to look its regions up does so for the first request, and answers all of them alike
whatever the index does in between. -/
namespace RegionAccess
open RegionIndex

namespace Standing

/-- The best standing is the least. -/
instance : LinearOrder Standing where
  le a b := (compare a b).isLE = true
  le_refl a := by cases a <;> decide
  le_trans a b c := by cases a <;> cases b <;> cases c <;> decide
  le_antisymm a b := by cases a <;> cases b <;> decide
  le_total a b := by cases a <;> cases b <;> decide
  toDecidableLE a b := inferInstanceAs (Decidable (_ = true))
  min_def a b := by cases a <;> cases b <;> rfl
  compare_eq_compareOfLessAndEq a b := by cases a <;> cases b <;> rfl

/-- A rule for standings by which a list counts for as much as the best of its parts. -/
def OfParts {α : Type} (rule : List α → Standing) : Prop :=
  ∀ xs ys, rule (xs ++ ys) = min (rule xs) (rule ys)

namespace OfParts
variable {α : Type} {rule : List α → Standing} {xs ys : List α}

theorem le_nil (h : OfParts rule) (xs : List α) : rule xs ≤ rule [] := by
  have hsplit := h [] xs
  rw [List.nil_append] at hsplit
  rw [hsplit]
  exact min_le_left _ _

theorem le_of_mem (h : OfParts rule) {x : α} (hx : x ∈ xs) : rule xs ≤ rule [x] := by
  obtain ⟨before, after, rfl⟩ := List.append_of_mem hx
  rw [List.append_cons, h, h]
  exact (min_le_left _ _).trans (min_le_right _ _)

/-- The more there is to stand in, the better. -/
theorem anti (h : OfParts rule) (hsub : xs ⊆ ys) : rule ys ≤ rule xs := by
  induction xs with
  | nil => exact h.le_nil ys
  | cons x xs ih =>
    obtain ⟨hx, hxs⟩ := List.cons_subset.mp hsub
    have hsplit : rule (x :: xs) = min (rule [x]) (rule xs) := h [x] xs
    rw [hsplit]
    exact le_min (h.le_of_mem hx) (ih hxs)

/-- Neither order nor repetition matters. -/
theorem eq_of_mem_iff (h : OfParts rule) (hmem : ∀ x, x ∈ xs ↔ x ∈ ys) : rule xs = rule ys :=
  le_antisymm (h.anti fun x hx => (hmem x).mpr hx) (h.anti fun x hx => (hmem x).mp hx)

end OfParts
end Standing

namespace Identity
variable (i : Identity) (regions : List ProtectedRegion)

theorem standing_ofParts : Standing.OfParts i.standing := by
  intro rs ss
  simp only [standing_eq, List.any_append]
  cases rs.any (·.isOwner i) <;> cases ss.any (·.isOwner i) <;>
    cases rs.any (·.isMember i) <;> cases ss.any (·.isMember i) <;> rfl

theorem standing_eq_owner_iff :
    i.standing regions = .owner ↔ ∃ r ∈ regions, r.owners.contains i = true := by
  rw [standing_eq]
  split
  next howner => simpa [ProtectedRegion.isOwner] using howner
  next hnone =>
    have hnone' : ∀ r ∈ regions, r.owners.contains i = false := by
      simpa [ProtectedRegion.isOwner] using hnone
    split <;> simpa using hnone'

/-- Owners count as members too, so that members are those listed who own nothing. -/
theorem standing_eq_member_iff :
    i.standing regions = .member ↔ (¬ ∃ r ∈ regions, r.owners.contains i = true) ∧
      ∃ r ∈ regions, r.members.contains i = true := by
  rw [standing_eq]
  split
  next howner =>
    have howner' : ∃ r ∈ regions, r.owners.contains i = true := by
      simpa [ProtectedRegion.isOwner] using howner
    simp [howner']
  next hnone =>
    have hnone' : ∀ r ∈ regions, r.owners.contains i = false := by
      simpa [ProtectedRegion.isOwner] using hnone
    have hlisted : regions.any (·.isMember i) = true ↔
        ∃ r ∈ regions, r.members.contains i = true := by
      rw [List.any_eq_true]
      refine exists_congr fun r => and_congr_right fun hr => ?_
      simp [ProtectedRegion.isMember, ProtectedRegion.isOwner, hnone' r hr]
    rw [← hlisted]
    split
    next hmember => simpa [hmember] using hnone'
    next hmember => simp [hmember]

end Identity

namespace Subject
variable {σ : Type} [RegionIndex σ]

theorem judgement_ofParts (found : Location → Except IndexError RegionSet) (subject : Subject) :
    Standing.OfParts (subject.judgement found) := by
  cases subject with
  | player i => exact i.standing_ofParts
  | offline i => exact i.toIdentity.standing_ofParts
  | constant s =>
    intro rs ss
    exact (min_self s).symm
  | deferred p =>
    intro rs ss
    simp only [judgement]
    cases p.found?.getD (found p.location).toOption with
    | none => rfl
    | some here =>
      simp only [OverlapProbe.standingIn, List.any_append]
      cases rs.any _ <;> cases ss.any _ <;> rfl

/-- What an index finds, asked in some state. -/
def lookups (s : σ) (location : Location) : Except IndexError RegionSet :=
  (overlapping location s).1

/-- A request is answered by what the index finds at that time, and settles the later answers. -/
theorem standing_settles (subject : Subject) (regions : List ProtectedRegion) (s : σ) :
    (subject.standing regions s).1.1 = subject.judgement (lookups s) regions ∧
      ∀ found, (subject.standing regions s).1.2.judgement found = subject.judgement (lookups s) := by
  cases subject with
  | player i => exact ⟨rfl, fun _ => rfl⟩
  | offline i => exact ⟨rfl, fun _ => rfl⟩
  | constant s => exact ⟨rfl, fun _ => rfl⟩
  | deferred p =>
    obtain ⟨location, _ | known⟩ := p
    · exact ⟨rfl, fun _ => rfl⟩
    · exact ⟨rfl, fun _ => rfl⟩

/-- Requests made of a subject one after the other, each with its answer. Before each of them the
host may have changed its index in any way. -/
def replies (subject : Subject) :
    List (List ProtectedRegion × σ) → List (List ProtectedRegion × Standing)
  | [] => []
  | (regions, s) :: requests =>
      let (standing, subject) := (subject.standing regions s).1
      (regions, standing) :: subject.replies requests

@[simp] theorem map_fst_replies (subject : Subject) (requests : List (List ProtectedRegion × σ)) :
    (subject.replies requests).map (·.1) = requests.map (·.1) := by
  induction requests generalizing subject with
  | nil => rfl
  | cons request requests ih => simp [replies, ih]

/-- All requests are answered by one rule, that of the first. -/
theorem exists_replies_eq (subject : Subject) (requests : List (List ProtectedRegion × σ)) :
    ∃ found, ∀ reply ∈ subject.replies requests,
      reply.2 = subject.judgement found reply.1 := by
  induction requests generalizing subject with
  | nil => exact ⟨fun _ => .ok ∅, by simp [replies]⟩
  | cons request requests ih =>
    obtain ⟨regions, s⟩ := request
    obtain ⟨hfirst, hlater⟩ := subject.standing_settles regions s
    obtain ⟨found, hrest⟩ := ih (subject.standing regions s).1.2
    refine ⟨lookups s, ?_⟩
    simp only [replies, List.forall_mem_cons]
    refine ⟨hfirst, fun reply hreply => ?_⟩
    rw [hrest reply hreply, hlater]

/-- Whoever is asked about, and in whatever order lists of regions are asked about: every request is
answered, a list by the best standing in its parts. So neither order nor repetition of regions
matters, and more regions give no worse a standing. An identity owns something where it is listed
among owners, and is a member of something where it only is among members. -/
theorem standing_is_best_of_parts (subject : Subject)
    (requests : List (List ProtectedRegion × σ)) :
    let replies := subject.replies requests
    replies.map (·.1) = requests.map (·.1) ∧
    (∀ rs ss whole first second, (rs ++ ss, whole) ∈ replies → (rs, first) ∈ replies →
      (ss, second) ∈ replies → whole = min first second) ∧
    (∀ rs ss first second, (∀ r, r ∈ rs ↔ r ∈ ss) → (rs, first) ∈ replies →
      (ss, second) ∈ replies → first = second) ∧
    (∀ r rs more fewer, (r :: rs, more) ∈ replies → (rs, fewer) ∈ replies → more ≤ fewer) ∧
    ∀ i, subject.identity? = some i → ∀ rs standing, (rs, standing) ∈ replies →
      (standing = .owner ↔ ∃ r ∈ rs, r.owners.contains i = true) ∧
      (standing = .member ↔ (¬ ∃ r ∈ rs, r.owners.contains i = true) ∧
        ∃ r ∈ rs, r.members.contains i = true) := by
  intro replies
  obtain ⟨found, hrule⟩ := subject.exists_replies_eq requests
  have hparts := subject.judgement_ofParts found
  have hreply (rs : List ProtectedRegion) (standing : Standing)
      (h : (rs, standing) ∈ replies) : standing = subject.judgement found rs :=
    hrule (rs, standing) h
  refine ⟨subject.map_fst_replies requests, ?_, ?_, ?_, ?_⟩
  · intro rs ss whole first second hwhole hfirst hsecond
    rw [hreply _ _ hwhole, hreply _ _ hfirst, hreply _ _ hsecond]
    exact hparts rs ss
  · intro rs ss first second hmem hfirst hsecond
    rw [hreply _ _ hfirst, hreply _ _ hsecond]
    exact hparts.eq_of_mem_iff hmem
  · intro r rs more fewer hmore hfewer
    rw [hreply _ _ hmore, hreply _ _ hfewer]
    exact hparts.anti (List.subset_cons_self r rs)
  · intro i hi rs standing hstanding
    have hidentity : subject.judgement found = i.standing := by
      cases subject with
      | player j => exact congrArg Identity.standing (Option.some.inj hi)
      | offline j => exact congrArg Identity.standing (Option.some.inj hi)
      | deferred p => cases hi
      | constant s => cases hi
    rw [hreply _ _ hstanding, hidentity]
    exact ⟨i.standing_eq_owner_iff rs, i.standing_eq_member_iff rs⟩

end Subject

/-- Something in the town is asked about two regions, together between the two. The index fails
once it was asked for the first. -/
theorem standing_is_best_of_parts_in_town :
    let probe : Subject := .deferred { location := Town.place 12 }
    let wilds : ProtectedRegion := { id := .ofName "wilds" }
    let requests : List (List ProtectedRegion × Served Town.tables) :=
      [([wilds], ⟨1⟩), ([wilds] ++ [Town.region], ⟨0⟩), ([Town.region], ⟨0⟩)]
    let replies := probe.replies requests
    ([wilds] ++ [Town.region], Standing.owner) ∈ replies ∧ ([wilds], .nonMember) ∈ replies ∧
      ([Town.region], .owner) ∈ replies ∧ Standing.owner = min .nonMember .owner := by
  intro probe wilds requests replies
  have hstandings : replies.map (·.2) = [.nonMember, .owner, .owner] := by decide
  have hreplies : replies = [([wilds], .nonMember), ([wilds] ++ [Town.region], .owner),
      ([Town.region], .owner)] := List.zip_of_prod (probe.map_fst_replies requests) hstandings
  have hwhole : ([wilds] ++ [Town.region], Standing.owner) ∈ replies := by simp [hreplies]
  have hfirst : ([wilds], Standing.nonMember) ∈ replies := by simp [hreplies]
  have hsecond : ([Town.region], Standing.owner) ∈ replies := by simp [hreplies]
  exact ⟨hwhole, hfirst, hsecond, (probe.standing_is_best_of_parts requests).2.1 [wilds]
    [Town.region] .owner .nonMember .owner hwhole hfirst hsecond⟩

end RegionAccess
