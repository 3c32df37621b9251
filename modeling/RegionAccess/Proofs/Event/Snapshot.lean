import RegionAccess.Proofs.Event.FailClosed

/-! One event sees one snapshot. Whoever is judged by place has the regions there looked up when an
index first asks where they stand, and whatever that lookup came to answers every later request,
through as many inquiries and for as many locations as the event takes. -/
namespace RegionAccess
open RegionIndex Recording

/-- What passes between an index and the subjects of its inquiries. -/
inductive Exchange where
  /-- The index is asked for the regions at a location. -/
  | lookup (location : Location) (found : Except IndexError RegionSet)
  /-- The index asks for a standing and is answered. -/
  | reply (regions : List ProtectedRegion) (standing : Standing)

/-- The lookup among the calls of a record. -/
def Exchange.call? : Exchange → Option Call
  | .lookup location found => some (.overlapping location found)
  | .reply _ _ => none

/-- An index with what passed between it and subjects, the earliest first. -/
structure Overheard (σ : Type) where
  index : σ
  exchanges : List Exchange := []

def Inquiry.overheard {σ : Type} : Inquiry σ → List Exchange → Inquiry (Overheard σ)
  | .answer result after, said => .answer result ⟨after, said⟩
  | .ask regions before resume, said =>
      .ask regions ⟨before, said⟩ fun standing o =>
        (resume standing o.index).overheard (o.exchanges ++ [.reply regions standing])

instance {σ : Type} [RegionIndex σ] : RegionIndex (Overheard σ) where
  overlapping location o :=
    let (found, index) := overlapping location o.index
    (found, ⟨index, o.exchanges ++ [.lookup location found]⟩)
  inquire location flag o := (inquire location flag o.index).overheard o.exchanges
  environment location flag o :=
    let (answer, index) := environment location flag o.index
    (answer, ⟨index, o.exchanges⟩)
  invalidate o :=
    let (_, index) := invalidate o.index
    ((), ⟨index, o.exchanges⟩)

instance {σ : Type} : Recording (Overheard σ) σ :=
  ⟨Overheard.index, fun o => o.exchanges.filterMap Exchange.call?⟩

/-- The standing that what was found gives in some regions: none where the lookup failed, else that
of an owner exactly where one of them is there, or is global and none is there. -/
def StandsBy (found : Except IndexError RegionSet) (regions : List ProtectedRegion)
    (standing : Standing) : Prop :=
  match found with
  | .error _ => standing = .nonMember
  | .ok here =>
      (standing = .owner ↔ ∃ r ∈ regions, r.id ∈ here ∨ r.isGlobal = true ∧ here = ∅) ∧
        (standing = .owner ∨ standing = .nonMember)

theorem standsBy_standingIn (found : Except IndexError RegionSet)
    (regions : List ProtectedRegion) :
    StandsBy found regions (OverlapProbe.standingIn found.toOption regions) := by
  cases found with
  | error e => rfl
  | ok here =>
    simp only [StandsBy, OverlapProbe.standingIn, Except.toOption]
    split
    next h => simpa using h
    next h => simpa using h

/-- At most one lookup, made at the place before any reply, and replies that rest on it. -/
def OneSnapshot (place : Location) (exchanges : List Exchange) : Prop :=
  exchanges = [] ∨ ∃ found replies, exchanges = .lookup place found :: replies ∧
    ∀ e ∈ replies, ∃ regions standing, e = .reply regions standing ∧ StandsBy found regions standing

/-- How far a subject that is judged by place is with its lookup, and what was said until then. -/
inductive Consulted (place : Location) : Subject → List Exchange → Prop where
  | fresh : Consulted place (.deferred { location := place }) []
  | settled (found : Except IndexError RegionSet) (replies : List (List ProtectedRegion)) :
      Consulted place (.deferred ⟨place, some found.toOption⟩) (.lookup place found ::
        replies.map fun regions =>
          .reply regions (OverlapProbe.standingIn found.toOption regions))

theorem Consulted.oneSnapshot {place : Location} {subject : Subject} {said : List Exchange}
    (h : Consulted place subject said) : OneSnapshot place said := by
  cases h with
  | fresh => exact .inl rfl
  | settled found replies =>
    refine .inr ⟨found, _, rfl, fun e he => ?_⟩
    obtain ⟨regions, -, rfl⟩ := List.mem_map.mp he
    exact ⟨regions, _, rfl, standsBy_standingIn found regions⟩

section
variable {σ : Type} [RegionIndex σ] {place : Location} {subject : Subject} {said : List Exchange}

/-- A request makes the lookup if it is the first, and adds its own reply. -/
theorem Consulted.standing (h : Consulted place subject said) (regions : List ProtectedRegion)
    (s : σ) :
    let out := subject.standing regions (⟨s, said⟩ : Overheard σ)
    Consulted place out.1.2 (out.2.exchanges ++ [.reply regions out.1.1]) := by
  cases h with
  | fresh => exact .settled (overlapping place s).1 [regions]
  | settled found replies =>
    have hmore : Consulted place _ _ := .settled found (replies ++ [regions])
    rw [List.map_append] at hmore
    exact hmore

theorem Consulted.conduct (h : Consulted place subject said) (inquiry : Inquiry σ) :
    let out := (inquiry.overheard said).conduct subject
    Consulted place out.1.2 out.2.exchanges := by
  induction inquiry generalizing subject said with
  | answer result after => exact h
  | ask regions before resume ih => exact ih _ _ (h.standing regions before)

/-- Overhearing a request changes nothing about it. -/
theorem Subject.standing_overheard (subject : Subject) (regions : List ProtectedRegion) (s : σ)
    (said : List Exchange) :
    ∃ more, subject.standing regions (⟨s, said⟩ : Overheard σ) =
      ((subject.standing regions s).1, ⟨(subject.standing regions s).2, said ++ more⟩) := by
  have hsilent (h : subject.standing regions (⟨s, said⟩ : Overheard σ) =
      ((subject.standing regions s).1, ⟨(subject.standing regions s).2, said⟩)) :
      ∃ more, subject.standing regions (⟨s, said⟩ : Overheard σ) =
        ((subject.standing regions s).1, ⟨(subject.standing regions s).2, said ++ more⟩) :=
    ⟨[], by rw [List.append_nil, h]⟩
  cases subject with
  | player i => exact hsilent rfl
  | offline i => exact hsilent rfl
  | constant standing => exact hsilent rfl
  | deferred p =>
    obtain ⟨location, _ | known⟩ := p
    · exact ⟨[.lookup location (overlapping location s).1], rfl⟩
    · exact hsilent rfl

theorem Inquiry.conduct_overheard (inquiry : Inquiry σ) (subject : Subject)
    (said : List Exchange) :
    ∃ more, (inquiry.overheard said).conduct subject =
      ((inquiry.conduct subject).1, ⟨(inquiry.conduct subject).2, said ++ more⟩) := by
  induction inquiry generalizing subject said with
  | answer result after => exact ⟨[], by simp [overheard, conduct]⟩
  | ask regions before resume ih =>
    obtain ⟨first, hfirst⟩ := subject.standing_overheard regions before said
    let out := subject.standing regions before
    obtain ⟨more, hmore⟩ :=
      ih out.1.1 out.2 out.1.2 (said ++ first ++ [.reply regions out.1.1])
    refine ⟨first ++ [.reply regions out.1.1] ++ more, ?_⟩
    rw [overheard, conduct_ask, conduct_ask, hfirst]
    simpa only [List.append_assoc] using hmore

theorem Mirrors.overheard_allows (location : Location) (flag : Flag) (subject : Subject) :
    Mirrors (RegionAccess.allows location flag subject : StateM (Overheard σ) _)
      (RegionAccess.allows location flag subject : StateM σ _) := by
  have h (o : Overheard σ) :=
    (RegionIndex.inquire location flag o.index).conduct_overheard subject o.exchanges
  refine ⟨fun o => ?_, fun o => ?_, fun o => ?_⟩
  · obtain ⟨more, h⟩ := h o
    exact congrArg (fun out => (flag.verdict out.1.1, out.1.2)) h
  · obtain ⟨more, h⟩ := h o
    exact congrArg (fun out => out.2.index) h
  · obtain ⟨more, h⟩ := h o
    have hsaid : (RegionAccess.allows location flag subject o).2.exchanges = o.exchanges ++ more :=
      congrArg (fun out => out.2.exchanges) h
    show o.exchanges.filterMap _ <+: List.filterMap _ _
    rw [hsaid, List.filterMap_append]
    exact List.prefix_append _ _

instance : Transparent (Overheard σ) σ where
  allows := Mirrors.overheard_allows
  environmentAllows _ _ := ⟨fun _ => rfl, fun _ => rfl, fun _ => List.prefix_rfl⟩

namespace BlockChange
variable (e : BlockChange)

theorem keeps_filter {τ : Type} {P : τ → Prop} {passes : Location → StateM τ Bool}
    (h : ∀ l, Keeps P (passes l)) (cancels : Bool) : Keeps P (e.filter passes cancels) := by
  unfold filter
  apply Keeps.ite
  · exact (Keeps.someFails h e.locations).bind fun rejected => Keeps.pure _
  · exact (Keeps.keepPassing h e.locations).bind fun left => Keeps.pure _

/-- No subject has a part in the checks of the environment. -/
theorem checkEnvironment_silent (worlds : WorldPolicies) (said : List Exchange) :
    Keeps (·.exchanges = said) (e.checkEnvironment worlds : StateM (Overheard σ) _) := by
  have hflag (f : Flag) (l : Location) :
      Keeps (·.exchanges = said) (environmentAllows f l : StateM (Overheard σ) Bool) :=
    fun _ h => h
  refine Keeps.ite (Keeps.pure e) (Keeps.foldlM (fun e check => ?_) _ e)
  exact (e.keeps_filter (hflag check.flag) check.cancels).bind fun out => Keeps.pure out.2

/-- All that is said while the build flag is checked is said to one subject. -/
theorem checkBuild_consulted {o : Overheard σ} (ho : o.exchanges = []) :
    OneSnapshot place (e.checkBuild (.deferred { location := place }) o).2.exchanges := by
  have hallows (l : Location) :
      Keeps (fun t : Subject × Overheard σ => Consulted place t.1 t.2.exchanges)
        (paired (allows l .build)) :=
    fun ⟨_, o⟩ h => h.conduct (inquire l .build o.index)
  have hfresh : Consulted place (.deferred { location := place }) o.exchanges := ho ▸ .fresh
  have hend := Keeps.keepPassing hallows e.locations (_, o) hfresh
  rw [← paired_keepPassing] at hend
  exact hend.oneSnapshot

/-- Where the root is judged by place, nothing is said to anyone else. -/
theorem protect_consulted {platform : Platform} {worlds : WorldPolicies} (registry : Registry)
    (h : e.cause.subject platform worlds = .deferred { location := place })
    {o : Overheard σ} (ho : o.exchanges = []) :
    OneSnapshot place (e.protect platform worlds registry o).2.exchanges := by
  unfold protect
  split
  · exact .inl ho
  · rw [h]
    exact e.checkBuild_consulted ho

end BlockChange

/-- Where entities and blocks are judged: an entity at its origin if the world of the reference uses
origins and one is known, else where it is now, else where the reference has it; a block at its
center. -/
def ActorRef.place? (platform : Platform) (worlds : WorldPolicies) : ActorRef → Option Location
  | .entity e =>
      (if (worlds.policyOf e.location.world).useEntityOrigin then
        platform.origin? e.id <|> e.origin
      else none) <|> platform.location? e.id <|> some e.location
  | .block b => some b.block.center
  | .player _ | .offlineUser _ | .unknown => none

theorem ActorRef.subject_of_place? {a : ActorRef} {platform : Platform} {worlds : WorldPolicies}
    (h : a.place? platform worlds = some place) :
    a.subject platform worlds = .deferred { location := place } := by
  cases a with
  | entity e =>
    have hplace : (ActorRef.entity e).place? platform worlds =
        some (e.judgedAt platform worlds) := by
      simp only [place?, EntityRef.judgedAt]
      cases (worlds.policyOf e.location.world).useEntityOrigin <;> cases platform.origin? e.id <;>
        cases e.origin <;> cases platform.location? e.id <;> rfl
    rw [← Option.some.inj (hplace.symm.trans h)]
    rfl
  | block b =>
    rw [← Option.some.inj h]
    rfl
  | player p => cases h
  | offlineUser u => cases h
  | unknown => cases h

namespace Engine
variable (engine : Engine) (platform : Platform) (change : BlockChange)

theorem onBlockChange_overheard :
    Mirrors (engine.onBlockChange platform change : StateM (Overheard σ) _)
      (engine.onBlockChange platform change : StateM σ _) :=
  (change.mirrors_checkEnvironment _).bind fun e => e.mirrors_protect _ _ _

theorem onBlockChange_consulted
    (h : change.cause.subject platform engine.config.worlds = .deferred { location := place })
    (s : σ) :
    OneSnapshot place
      (engine.onBlockChange platform change (⟨s, []⟩ : Overheard σ)).2.exchanges := by
  let out := change.checkEnvironment engine.config.worlds (⟨s, []⟩ : Overheard σ)
  have hcause : out.1.cause = change.cause :=
    (change.narrows_checkEnvironment engine.config.worlds (⟨s, []⟩ : Overheard σ)).cause
  have hsilent : out.2.exchanges = [] :=
    change.checkEnvironment_silent engine.config.worlds [] _ rfl
  exact out.1.protect_consulted engine.registry (hcause ▸ h) hsilent

end Engine

/-- Whoever is known and judged by place is judged by one snapshot, whatever the index answers,
fails at or changes in between: in every inquiry and for every change to blocks, the regions are
looked up at most once, at the place where the platform had the root, and every request is answered
from what that lookup came to. -/
theorem Cause.judged_by_one_snapshot {c : Cause} {root : ActorRef} {platform : Platform}
    {worlds : WorldPolicies} (hknown : c.isKnown = true) (hroot : c.root? = some root)
    (hplace : root.place? platform worlds = some place) :
    (∀ (inquiry : Inquiry σ),
      let run := (inquiry.overheard []).conduct (c.subject platform worlds)
      run.1.1 = (inquiry.conduct (c.subject platform worlds)).1.1 ∧
        OneSnapshot place run.2.exchanges) ∧
    (∀ (change : BlockChange) (registry : Registry) (s : σ), change.cause = c →
      let run := change.protect platform worlds registry (⟨s, []⟩ : Overheard σ)
      run.1 = (change.protect platform worlds registry s).1 ∧
        OneSnapshot place run.2.exchanges) ∧
    ∀ (engine : Engine) (change : BlockChange) (s : σ), engine.config.worlds = worlds →
      change.cause = c →
      let run := engine.onBlockChange platform change (⟨s, []⟩ : Overheard σ)
      run.1 = (engine.onBlockChange platform change s).1 ∧ OneSnapshot place run.2.exchanges := by
  have hsubject : c.subject platform worlds = .deferred { location := place } := by
    rw [subject, hknown, hroot]
    exact root.subject_of_place? hplace
  refine ⟨fun inquiry => ?_, fun change registry s hcause => ?_,
    fun engine change s hworlds hcause => ?_⟩
  · obtain ⟨more, h⟩ := inquiry.conduct_overheard (c.subject platform worlds) []
    refine ⟨congrArg (fun out => out.1.1) h, ?_⟩
    rw [hsubject]
    exact (Consulted.fresh.conduct inquiry).oneSnapshot
  · refine ⟨(change.mirrors_protect platform worlds registry).value (⟨s, []⟩ : Overheard σ), ?_⟩
    exact change.protect_consulted registry (hcause ▸ hsubject) rfl
  · refine ⟨(engine.onBlockChange_overheard platform change).value (⟨s, []⟩ : Overheard σ), ?_⟩
    exact engine.onBlockChange_consulted platform change (hworlds ▸ hcause ▸ hsubject) s

end

/-- A ravager in the town breaks crops at two places there as one of the town's own. The regions
around it are looked up once for both. -/
theorem judged_by_one_snapshot_in_town :
    let ravager : ActorRef := .entity { id := ⟨⟨9⟩⟩, kind := .ravager, location := Town.place 10 }
    let change : BlockChange :=
      { Town.blast with cause := ⟨[ravager], false⟩, locations := [Town.place 10, Town.place 11] }
    let s : Served Town.steadyTables := {}
    let run := change.protect Town.platform {} {} (⟨s, []⟩ : Overheard _)
    change.cause.isKnown = true ∧ change.cause.root? = some ravager ∧
    ravager.place? Town.platform {} = some (Town.place 10) ∧
    run.1.locations = change.locations ∧
    run.2.exchanges = [.lookup (Town.place 10) (.ok ((∅ : RegionSet).insert Town.region.id)),
      .reply [Town.region] .owner, .reply [Town.region] .owner] ∧
    OneSnapshot (Town.place 10) run.2.exchanges := by
  intro ravager change s run
  have hknown : change.cause.isKnown = true := rfl
  have hroot : change.cause.root? = some ravager := rfl
  have hplace : ravager.place? Town.platform {} = some (Town.place 10) := rfl
  have hone := Cause.judged_by_one_snapshot (σ := Served Town.steadyTables) hknown hroot hplace
  exact ⟨hknown, hroot, hplace, rfl, rfl, (hone.2.1 change {} s rfl).2⟩

end RegionAccess
