import Mathlib.Data.List.Perm.Basic
import RegionAccess.Proofs.Session.Commutation

/-! Names whose inserts are put off. Inserts complete in any order, and the one that completes last
decides, so a name that was submitted last stays only where the inserts of its id keep their order.
A tick hands the names on to the sessions. -/
namespace RegionAccess

/-- The name that a list of profiles has last for an id. -/
def Profile.lastName? (id : EntityId) (profiles : List Profile) : Option String :=
  ((profiles.filter (·.id = id)).getLast?).map (·.name)

namespace ProfileCache

/-- What became of a new cache inside a runtime: the profiles that were submitted and those whose
inserts completed, each in their order. -/
inductive Filled : List Profile → List Profile → ProfileCache → Prop where
  | new : Filled [] [] {}
  | submit {submitted completed : List Profile} {c : ProfileCache} (p : Profile) :
      Filled submitted completed c → Filled (submitted ++ [p]) completed (c.submit true p).2
  | complete {submitted completed : List Profile} {c : ProfileCache} {i : Nat} {p : Profile} :
      Filled submitted completed c → c.pending[i]? = some p →
      Filled submitted (completed ++ [p]) (c.complete i)

end ProfileCache

section
variable {submitted completed : List Profile} {c : ProfileCache} {id : EntityId} {p : Profile}

theorem Profile.lastName?_concat (id : EntityId) (profiles : List Profile) (p : Profile) :
    lastName? id (profiles ++ [p]) = if p.id = id then some p.name else lastName? id profiles := by
  by_cases hp : p.id = id <;> simp [lastName?, hp]

theorem Profile.lastName?_eq_none_iff {profiles : List Profile} :
    lastName? id profiles = none ↔ ∀ p ∈ profiles, p.id ≠ id := by
  simp [lastName?]

namespace ProfileCache

theorem complete_eq {i : Nat} (h : c.pending[i]? = some p) :
    c.complete i = { c.insert p with pending := c.pending.eraseIdx i } := by
  rw [complete, h]

/-- The insert that completed last for an id is the one to be seen. -/
theorem Filled.name?_eq (h : Filled submitted completed c) (id : EntityId) :
    c.name? id = Profile.lastName? id completed := by
  induction h with
  | new => simp [name?, Profile.lastName?]
  | submit p _ ih => exact ih
  | @complete submitted completed c i p _ hp ih =>
    rw [complete_eq hp, Profile.lastName?_concat, ← ih]
    exact c.name?_insert p id

/-- Nothing that was submitted is lost or completes twice. -/
theorem Filled.perm (h : Filled submitted completed c) :
    (completed ++ c.pending).Perm submitted := by
  induction h with
  | new => exact .refl []
  | @submit submitted completed c p _ ih =>
    show (completed ++ (c.pending ++ [p])).Perm (submitted ++ [p])
    rw [← List.append_assoc]
    exact ih.append_right [p]
  | @complete submitted completed c i p _ hp ih =>
    obtain ⟨hi, rfl⟩ := List.getElem?_eq_some_iff.mp hp
    rw [complete_eq hp, List.append_assoc]
    refine List.Perm.trans (List.Perm.append_left _ ?_) ih
    exact List.getElem_cons_eraseIdx_perm hi

end ProfileCache
end

namespace Registry
variable {σ : Type} [RegionIndex σ]

/-- If a name is cached for the id, there is a session that goes by it. -/
def IsNamed (r : Registry) (id : EntityId) : Prop :=
  ∀ name, r.profiles.name? id = some name →
    ∃ s, r.session? id = some s ∧ s.profileName = some name

/-- What work keeps that hands names on: the cache, and the sessions that go by it. -/
structure HandsOn (r r' : Registry) : Prop where
  profiles : r'.profiles = r.profiles
  named : ∀ id, r.IsNamed id → r'.IsNamed id

theorem HandsOn.trans {r r' r'' : Registry} (h : r.HandsOn r') (h' : r'.HandsOn r'') :
    r.HandsOn r'' :=
  ⟨h'.profiles.trans h.profiles, fun id hid => h'.named id (h.named id hid)⟩

theorem isNamed_store {r : Registry} {id : EntityId} {s : Session}
    (hs : ∀ name, r.profiles.name? id = some name → s.profileName = some name) :
    (r.store id s).IsNamed id := by
  intro name hname
  exact ⟨s, by rw [session?_store, if_pos rfl], hs name hname⟩

theorem handsOn_store {r : Registry} {id : EntityId} {s : Session}
    (hs : ∀ name, r.profiles.name? id = some name → s.profileName = some name) :
    r.HandsOn (r.store id s) := by
  refine ⟨rfl, fun other hother => ?_⟩
  by_cases hid : id = other
  · exact hid ▸ isNamed_store hs
  · intro name hname
    rw [session?_store, if_neg hid]
    exact hother name hname

theorem tickActor_names (r : Registry) (actor : LiveActor) (now : Instant) :
    Yields (r.tickActor actor now : HostM σ Registry) fun r' =>
      r.HandsOn r' ∧ (actor.isOnline = true → r'.IsNamed actor.id) := by
  unfold tickActor
  split
  next hoff =>
    refine Yields.pure ⟨⟨rfl, fun _ h => h⟩, fun hon => ?_⟩
    rw [hon] at hoff
    cases hoff
  next =>
    refine Yields.bind Yields.any fun s _ => ?_
    have htick : Yields (s.tick actor (r.profiles.name? actor.id) now : HostM σ Session) fun s' =>
        ∀ name, r.profiles.name? actor.id = some name → s'.profileName = some name := by
      refine Yields.bind Yields.any fun handlers _ => Yields.pure fun name hname => ?_
      show (r.profiles.name? actor.id <|> s.profileName) = some name
      rw [hname]
      rfl
    exact Yields.bind htick fun s' hs' => Yields.pure ⟨handsOn_store hs', fun _ => isNamed_store hs'⟩

/-- A tick names the sessions of all that are online. -/
theorem tick_names (actors : List LiveActor) (now : Instant) (r : Registry) :
    Yields (r.tick actors now : HostM σ Registry) fun r' =>
      r.HandsOn r' ∧ ∀ actor ∈ actors, actor.isOnline = true → r'.IsNamed actor.id := by
  induction actors generalizing r with
  | nil => exact Yields.pure ⟨⟨rfl, fun _ h => h⟩, fun _ h => absurd h List.not_mem_nil⟩
  | cons actor actors ih =>
    unfold tick
    rw [List.foldlM_cons]
    refine Yields.bind (r.tickActor_names actor now) fun r₁ h₁ => (ih r₁).mono fun r₂ h₂ => ?_
    refine ⟨h₁.1.trans h₂.1, fun other hother hon => ?_⟩
    rcases List.mem_cons.mp hother with rfl | hother
    · exact h₂.1.named _ (h₁.2 hon)
    · exact h₂.2 other hother hon

end Registry

/-- Once no insert is pending, each id that was submitted has a name, the one whose insert completed
last, and no other id has any. It is the name that was submitted last where the inserts of the id
complete in the order of their submission. The next tick hands it on to the session of whoever is
online. -/
theorem last_completed_insert_names {submitted completed : List Profile} {c : ProfileCache}
    (h : c.Filled submitted completed) (hdone : c.pending = []) (id : EntityId) :
    completed.Perm submitted ∧ c.name? id = Profile.lastName? id completed ∧
    (c.name? id = none ↔ ∀ p ∈ submitted, p.id ≠ id) ∧
    (completed.filter (·.id = id) = submitted.filter (·.id = id) →
      c.name? id = Profile.lastName? id submitted) ∧
    ∀ {σ : Type} [RegionIndex σ] (r : Registry) (actors : List LiveActor) (now : Instant),
      r.profiles = c → Yields (r.tick actors now : HostM σ Registry) fun r' =>
        ∀ actor ∈ actors, actor.isOnline = true → actor.id = id → ∀ name, c.name? id = some name →
          ∃ s, r'.session? id = some s ∧ s.profileName = some name := by
  have hperm := h.perm
  rw [hdone, List.append_nil] at hperm
  refine ⟨hperm, h.name?_eq id, ?_, fun horder => ?_, ?_⟩
  · rw [h.name?_eq, Profile.lastName?_eq_none_iff]
    exact forall_congr' fun p => by rw [hperm.mem_iff]
  · rw [h.name?_eq, Profile.lastName?, horder, Profile.lastName?]
  · rintro σ _ r actors now rfl
    refine (r.tick_names actors now).mono fun r' hnames actor hactor hon hid name hname => ?_
    subst hid
    exact hnames.2 actor hactor hon name (hnames.1.profiles ▸ hname)

/-- An insert that is overtaken by a later one undoes it when it completes. -/
example :
    let id : EntityId := ⟨⟨1⟩⟩
    let c := (({} : ProfileCache).submit true ⟨id, "before"⟩).2
    let c := (c.submit true ⟨id, "after"⟩).2
    ((c.complete 1).complete 0).pending = [] ∧
      ((c.complete 1).complete 0).name? id = some "before" := by
  decide

end RegionAccess
