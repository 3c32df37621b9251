import RegionAccess.Proofs.Storage.NormalForm

/-! What is written is read again, and one reading puts a stored value in its form, which further
writing and reading keep. -/
namespace RegionAccess
open Document Storage

@[simp] theorem EntityId.read?_write (id : EntityId) : EntityId.read? id.write = some id :=
  congrArg (Option.map EntityId.mk) id.uuid.parse?_text

@[simp] theorem WorldId.read?_write (id : WorldId) : WorldId.read? id.write = some id :=
  congrArg (Option.map WorldId.mk) id.uuid.parse?_text

@[simp] theorem RegionId.read?_write (id : RegionId) : RegionId.read? id.write = some id :=
  congrArg some id.ofName_name

@[simp] theorem Block.read?_write (b : Block) : Block.read? b.write = some b := by
  have hfields : fields? 4 ["world", "x", "y", "z"] b.write = some _ :=
    fields?_record 4 rfl (by decide)
  simp [read?, hfields, List.lookup_cons]

namespace Location

def PositionFinite (l : Location) : Prop :=
  Number.isFinite l.x = true ∧ Number.isFinite l.y = true ∧ Number.isFinite l.z = true

def LookFinite (l : Location) : Prop :=
  Number.isFiniteSingle l.yaw = true ∧ Number.isFiniteSingle l.pitch = true

def IsFinite (l : Location) : Prop := l.PositionFinite ∧ l.LookFinite

theorem read?_write {l : Location} (h : l.IsFinite) : Location.read? l.write = some l := by
  obtain ⟨⟨hx, hy, hz⟩, hyaw, hpitch⟩ := h
  have hfields : fields? 6 ["world", "x", "y", "z", "yaw", "pitch"] l.write = some _ :=
    fields?_record 6 rfl (by decide)
  simp [read?, hfields, List.lookup_cons, Value.double?_ofDouble hx, Value.double?_ofDouble hy,
    Value.double?_ofDouble hz, Value.single?_ofSingle hyaw, Value.single?_ofSingle hpitch]

/-- A position that was read is finite, since notations carry no number that is not. -/
theorem positionFinite_of_read? {v : Value} (hv : v.WellFormed) {l : Location}
    (h : Location.read? v = some l) : l.PositionFinite := by
  simp only [read?, required, Option.bind_eq_bind, Option.bind_eq_some_iff, Option.pure_def,
    Option.some.injEq] at h
  obtain ⟨field, hfields, world, -, x, ⟨vx, hvx, hx⟩, y, ⟨vy, hvy, hy⟩, z, ⟨vz, hvz, hz⟩, yaw, -,
    pitch, -, rfl⟩ := h
  exact ⟨(hv.field hfields hvx).double hx, (hv.field hfields hvy).double hy,
    (hv.field hfields hvz).double hz⟩

end Location

@[simp] theorem WorldPolicy.read?_write (p : WorldPolicy) :
    WorldPolicy.read? p.write = some p := by
  have hfields : fields? 0 ["use_regions", "explosion_flag_cancellation",
      "fake_player_build_override", "use_entity_origin"] p.write = some _ :=
    fields?_record 0 rfl (by decide)
  simp [read?, hfields, List.lookup_cons]

@[simp] theorem WorldPolicies.read?_write (p : WorldPolicies) :
    WorldPolicies.read? p.write = some p := by
  have hlisted : readListed? (Value.record (p.listed.toList.map fun entry =>
      (entry.1.text, entry.2.write))) = some p.listed := by
    have hentries := mapM_map_of_inverse
      (f := fun entry : String × Value => do
        return (WorldId.mk (← Uuid.parse? entry.1), ← WorldPolicy.read? entry.2))
      (g := fun entry : WorldId × WorldPolicy => (entry.1.text, entry.2.write))
      (fun entry => by simp [WorldId.text]) p.listed.toList
    refine (congrArg (Option.bind · fun listed => some (Std.ExtTreeMap.ofList listed compare))
      hentries).trans ?_
    rw [Option.bind_some, mapOfList_toList]
  have hfields : fields? 0 ["default", "worlds"] p.write = some _ :=
    fields?_record 0 rfl (by decide)
  simp [read?, hfields, List.lookup_cons, hlisted]

@[simp] theorem Domain.read?_write (d : Domain) : Domain.read? d.write = some d := by
  have hfields : fields? 0 ["players", "groups"] d.write = some _ :=
    fields?_record 0 rfl (by decide)
  have hplayers := list?_map_of_inverse EntityId.read?_write d.players.toList
  have hgroups := list?_map_of_inverse text?_text d.groups.toList
  simp [read?, hfields, List.lookup_cons, hplayers, hgroups, setOfList_toList]

@[simp] theorem ProtectedRegion.read?_write (r : ProtectedRegion) :
    ProtectedRegion.read? r.write = some r := by
  have hfields : fields? 0 ["id", "priority", "owners", "members"] r.write = some _ :=
    fields?_record 0 rfl (by decide)
  simp [read?, hfields, List.lookup_cons]

@[simp] theorem PlayerRef.read?_write (p : PlayerRef) : PlayerRef.read? p.write = some p := by
  have hfields : fields? 2 ["id", "name"] p.write = some _ := fields?_record 2 rfl (by decide)
  simp [read?, hfields, List.lookup_cons]

@[simp] theorem UserRef.read?_write (u : UserRef) : UserRef.read? u.write = some u := by
  have hfields : fields? 2 ["id", "name"] u.write = some _ := fields?_record 2 rfl (by decide)
  have hname := optional_elim text? u.name (fun s _ => text?_text s) fun _ => rfl
  simp [read?, hfields, List.lookup_cons, hname]

@[simp] theorem BlockRef.read?_write (b : BlockRef) : BlockRef.read? b.write = some b := by
  have hfields : fields? 2 ["pos", "kind"] b.write = some _ := fields?_record 2 rfl (by decide)
  simp [read?, hfields, List.lookup_cons]

namespace EntityRef

/-- Where the reference says that the entity is and was. -/
def locations (e : EntityRef) : List Location := e.location :: e.origin.toList

theorem read?_write {e : EntityRef} (h : ∀ l ∈ e.locations, l.IsFinite) :
    EntityRef.read? e.write = some e := by
  have hfields : fields? 4 ["id", "kind", "location", "origin"] e.write = some _ :=
    fields?_record 4 rfl (by decide)
  have hlocation : Location.read? e.location.write = some e.location :=
    Location.read?_write (h _ List.mem_cons_self)
  have horigin := optional_elim Location.read? e.origin (fun l hl =>
    Location.read?_write (h l (List.mem_cons_of_mem _ (Option.mem_toList.mpr hl)))) fun _ => rfl
  simp [read?, hfields, List.lookup_cons, hlocation, horigin]

theorem positionFinite_of_read? {v : Value} (hv : v.WellFormed) {e : EntityRef}
    (h : EntityRef.read? v = some e) : ∀ l ∈ e.locations, l.PositionFinite := by
  simp only [read?, required, Option.bind_eq_bind, Option.bind_eq_some_iff, Option.pure_def,
    Option.some.injEq] at h
  obtain ⟨field, hfields, id, -, kind, -, location, ⟨vl, hvl, hlocation⟩, origin, horigin, rfl⟩ := h
  refine List.forall_mem_cons.mpr ⟨?_, fun l hl => ?_⟩
  · exact Location.positionFinite_of_read? (hv.field hfields hvl) hlocation
  · obtain rfl := Option.mem_toList.mp hl
    obtain ⟨vo, hvo, horigin⟩ := exists_of_optional _ horigin
    exact Location.positionFinite_of_read? (hv.field hfields hvo) horigin

end EntityRef

namespace ActorRef

def locations : ActorRef → List Location
  | .entity e => e.locations
  | .player _ | .offlineUser _ | .block _ | .unknown => []

theorem read?_write {a : ActorRef} (h : ∀ l ∈ a.locations, l.IsFinite) :
    ActorRef.read? a.write = some a := by
  cases a with
  | player p => simp [write, read?]
  | offlineUser u => simp [write, read?]
  | entity e => simp [write, read?, EntityRef.read?_write h]
  | block b => simp [write, read?]
  | unknown => rfl

theorem positionFinite_of_read? {v : Value} (hv : v.WellFormed) {a : ActorRef}
    (h : ActorRef.read? v = some a) : ∀ l ∈ a.locations, l.PositionFinite := by
  unfold read? at h
  split at h
  next => exact Option.some.inj h ▸ fun _ hl => nomatch hl
  next => exact Option.some.inj h ▸ fun _ hl => nomatch hl
  next =>
    obtain ⟨p, -, rfl⟩ := Option.map_eq_some_iff.mp h
    exact fun _ hl => nomatch hl
  next =>
    obtain ⟨u, -, rfl⟩ := Option.map_eq_some_iff.mp h
    exact fun _ hl => nomatch hl
  next w =>
    obtain ⟨e, he, rfl⟩ := Option.map_eq_some_iff.mp h
    cases hv with
    | record hfields => exact EntityRef.positionFinite_of_read? (hfields _ List.mem_cons_self) he
  next =>
    obtain ⟨b, -, rfl⟩ := Option.map_eq_some_iff.mp h
    exact fun _ hl => nomatch hl
  next => cases h

end ActorRef

/-- Values of a type survive storage: those whose numbers are finite are read as they were written,
and what is read of any stored value is read again once it is written, if the look angles in it
are finite. That which is written then is the form of the stored value, and only values that have
one are read. -/
structure Survives {α : Type} (write : α → Value) (read? : Value → Option α) (form : Form)
    (locations : α → List Location) : Prop where
  read?_write : ∀ a, (∀ l ∈ locations a, l.IsFinite) → read? (write a) = some a
  read?_write_of_read? : ∀ v a, v.WellFormed → read? v = some a →
    (∀ l ∈ locations a, l.LookFinite) → read? (write a) = some a
  normalizes : Normalizes read? write form

theorem Survives.of_positions {α : Type} {write : α → Value} {read? : Value → Option α}
    {form : Form} {locations : α → List Location}
    (hwritten : ∀ a, (∀ l ∈ locations a, l.IsFinite) → read? (write a) = some a)
    (hread : ∀ v a, v.WellFormed → read? v = some a → ∀ l ∈ locations a, l.PositionFinite)
    (hform : Normalizes read? write form) : Survives write read? form locations :=
  ⟨hwritten, fun v a hv h hlook => hwritten a fun l hl => ⟨hread v a hv h l hl, hlook l hl⟩, hform⟩

/-- What holds no location survives if it is read as it was written. -/
theorem Survives.of_read?_write {α : Type} {write : α → Value} {read? : Value → Option α}
    {form : Form} (hwritten : ∀ a, read? (write a) = some a) (hform : Normalizes read? write form) :
    Survives write read? form fun _ => [] :=
  .of_positions (fun a _ => hwritten a) (fun _ _ _ _ _ hl => nomatch hl) hform

/-- Whatever is stored survives: what the constructors make is read as it was written, and what is
read of stored data, however it was written, is from then on written in its form and read the
same. -/
theorem stored_values_survive :
    Survives RegionId.write RegionId.read? Form.regionId (fun _ => []) ∧
    Survives Block.write Block.read? Form.block (fun _ => []) ∧
    Survives Location.write Location.read? Form.location (fun l => [l]) ∧
    Survives WorldPolicy.write WorldPolicy.read? Form.worldPolicy (fun _ => []) ∧
    Survives WorldPolicies.write WorldPolicies.read? Form.worldPolicies (fun _ => []) ∧
    Survives Domain.write Domain.read? Form.domain (fun _ => []) ∧
    Survives ProtectedRegion.write ProtectedRegion.read? Form.protectedRegion (fun _ => []) ∧
    Survives ActorRef.write ActorRef.read? Form.actorRef ActorRef.locations := by
  refine ⟨.of_read?_write RegionId.read?_write .regionId, .of_read?_write Block.read?_write .block,
    ?_, .of_read?_write WorldPolicy.read?_write .worldPolicy,
    .of_read?_write WorldPolicies.read?_write .worldPolicies,
    .of_read?_write Domain.read?_write .domain,
    .of_read?_write ProtectedRegion.read?_write .protectedRegion, ?_⟩
  · refine .of_positions (fun l h => Location.read?_write (h l List.mem_cons_self)) ?_ .location
    exact fun v l hv h => List.forall_mem_singleton.mpr (Location.positionFinite_of_read? hv h)
  · exact .of_positions (fun a => ActorRef.read?_write)
      (fun v a hv h => ActorRef.positionFinite_of_read? hv h) .actorRef

/-- A position of whole numbers and others, its fields in disorder and one of them unknown, is read
to what then survives. A region with an id of mixed case, an unknown field, no priority, no members
and owners of which several are given twice is put in form, and so are policies for worlds of which
one is given twice. -/
theorem stored_values_survive_at_spawn :
    let position : Value := .record [("pitch", .int 0), ("yaw", .real 90.5), ("z", .int (-3)),
      ("y", .real 64.25), ("x", .int 1), ("lag", .null),
      ("world", .text "00000000-0000-0000-0000-000000000007")]
    let region : Value := .record [("flags", .null), ("id", .text "Spawn"), ("owners", .record [
      ("groups", .list [.text "Traders", .text "Builders", .text "Traders"]),
      ("players", .list [.text "0000000000000000000000000000000A",
        .text "00000000-0000-0000-0000-00000000000a"])])]
    let worlds : Value := .record [("worlds", .record [
      ("00000000-0000-0000-0000-000000000007", .record [("use_regions", .bool false)]),
      ("00000000-0000-0000-0000-000000000003", .list [.bool true, .bool true]),
      ("00000000-0000-0000-0000-000000000007", .record [])])]
    (∃ l, Location.read? position = some l ∧ l.LookFinite ∧ Location.read? l.write = some l) ∧
    (∃ r, ProtectedRegion.read? region = some r ∧
      r.write = .record [("id", .text "spawn"), ("priority", .int 0), ("owners", .record [
          ("players", .list [.text "00000000-0000-0000-0000-00000000000a"]),
          ("groups", .list [.text "Builders", .text "Traders"])]),
        ("members", .record [("players", .list []), ("groups", .list [])])] ∧
      ProtectedRegion.read? r.write = some r) ∧
    ∃ p, WorldPolicies.read? worlds = some p ∧
      p.write = .record [("default", WorldPolicy.write {}), ("worlds", .record [
        ("00000000-0000-0000-0000-000000000003", WorldPolicy.write { explosionCancels := true }),
        ("00000000-0000-0000-0000-000000000007", WorldPolicy.write {})])] ∧
      WorldPolicies.read? p.write = some p := by
  intro position region worlds
  obtain ⟨-, -, hlocations, -, hpolicies, -, hregions, -⟩ := stored_values_survive
  refine ⟨?_, ?_, ?_⟩
  · have hposition : position.WellFormed := .record fun field hfield => by
      fin_cases hfield
      · exact .int (by decide) (by decide)
      · exact .real (by decide +kernel)
      · exact .int (by decide) (by decide)
      · exact .real (by decide +kernel)
      · exact .int (by decide) (by decide)
      · exact .null
      · exact .text _
    have hread : (Location.read? position).any (fun l =>
        Number.isFiniteSingle l.yaw && Number.isFiniteSingle l.pitch) = true := by decide +kernel
    obtain ⟨l, hl, hlook⟩ := (Option.any_eq_true _ _).mp hread
    rw [Bool.and_eq_true] at hlook
    exact ⟨l, hl, hlook, hlocations.read?_write_of_read? position l hposition hl
      (List.forall_mem_singleton.mpr hlook)⟩
  · obtain ⟨r, hr, hwritten⟩ := Option.map_eq_some_iff.mp ((hregions.normalizes region).trans rfl)
    exact ⟨r, hr, hwritten, hregions.read?_write r fun _ hl => nomatch hl⟩
  · obtain ⟨p, hp, hwritten⟩ := Option.map_eq_some_iff.mp ((hpolicies.normalizes worlds).trans rfl)
    exact ⟨p, hp, hwritten, hpolicies.read?_write p fun _ hl => nomatch hl⟩

end RegionAccess
