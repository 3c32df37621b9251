import RegionAccess.Proofs.Storage.Form
import RegionAccess.Storage.Actor
import RegionAccess.Storage.Region
import RegionAccess.Storage.World

/-! Readers and writers keep to the forms of stored values, from the parts of a record to the
whole. -/
namespace RegionAccess
open Document Storage

/-- Whatever is read of a value and written again takes the form, and nothing is read where there
is none. -/
def Normalizes {α : Type} (read? : Value → Option α) (write : α → Value) (form : Form) : Prop :=
  ∀ v, (read? v).map write = form v

namespace Normalizes
variable {α : Type} {read : Value → Option α} {write : α → Value} {form : Form}

theorem text : Normalizes text? .text Form.text := fun v => by cases v <;> rfl

theorem bool : Normalizes bool? .bool Form.bool := fun v => by cases v <;> rfl

theorem uuid : Normalizes Uuid.read? (.text ·.text) Form.uuid := fun v => by cases v <;> rfl

theorem entityId : Normalizes EntityId.read? EntityId.write Form.uuid := by
  intro v
  rw [← uuid v, EntityId.read?, Option.map_map]
  rfl

theorem worldId : Normalizes WorldId.read? WorldId.write Form.uuid := by
  intro v
  rw [← uuid v, WorldId.read?, Option.map_map]
  rfl

theorem regionId : Normalizes RegionId.read? RegionId.write Form.regionId := fun v => by
  cases v <;> rfl

theorem int32 : Normalizes Value.int32? Value.ofInt32 Form.int32 := by
  intro v
  cases v with
  | int n =>
    have hrange : Int32.minValue.toInt ≤ n ∧ n ≤ Int32.maxValue.toInt ↔
        -2 ^ 31 ≤ n ∧ n < 2 ^ 31 := by
      rw [show Int32.minValue.toInt = -2 ^ 31 from rfl,
        show Int32.maxValue.toInt = 2 ^ 31 - 1 from rfl]
      omega
    simp only [Value.int32?, Form.int32, hrange]
    split
    next h => simp [Value.ofInt32, Int32.toInt_ofInt_of_le h.1 h.2]
    next => rfl
  | null => rfl
  | bool b => rfl
  | real x => rfl
  | text s => rfl
  | list items => rfl
  | record fields => rfl

theorem double : Normalizes Value.double? Value.ofDouble Form.double := fun v => by cases v <;> rfl

theorem single : Normalizes Value.single? Value.ofSingle Form.single := fun v => by cases v <;> rfl

theorem label [Labelled α] : Normalizes (Value.label? (α := α)) Value.ofLabel (Form.label α) := by
  have hname (name : String) : (ofLabel? name).map (Value.ofLabel (α := α)) =
      if name ∈ (Labelled.all : List α).map Labelled.label then some (.text name) else none := by
    cases ha : ofLabel? (α := α) name with
    | none =>
      refine (if_neg fun hmem => ?_).symm
      obtain ⟨a, hall, rfl⟩ := List.mem_map.mp hmem
      rw [ofLabel?_label] at ha
      cases ha
    | some a =>
      have hfound := List.find?_some (p := fun a => Labelled.label a == name) ha
      obtain rfl : Labelled.label a = name := eq_of_beq hfound
      exact (if_pos (List.mem_map_of_mem (List.mem_of_find?_eq_some ha))).symm
  intro v
  cases v with
  | text name => exact hname name
  | record fields =>
    match fields with
    | [(name, .null)] => simp [Value.label?, hname, Form.label, Form.tagged, Value.isNull]
    | [] => rfl
    | (_, _) :: _ :: _ => simp [Value.label?, Form.label, Form.tagged]
    | [(_, .bool _)] | [(_, .int _)] | [(_, .real _)] | [(_, .text _)] | [(_, .list _)]
    | [(_, .record _)] => simp [Value.label?, Form.label, Form.tagged, Value.isNull]
  | null => rfl
  | bool b => rfl
  | int n => rfl
  | real x => rfl
  | list items => rfl

/-! Fields. -/

theorem entry (h : Normalizes read write form) (name : String) (v : Value) :
    (form v).map (name, ·) = (read v).bind fun a => some (name, write a) := by
  rw [← h v, Option.map_map, Option.map_eq_bind]
  rfl

theorem needed (h : Normalizes read write form) (name : String) (given : Option Value) :
    (FieldForm.needed name form).put given =
      (required read given).bind fun a => some (name, write a) := by
  cases given with
  | none => rfl
  | some v => exact h.entry name v

theorem filled (h : Normalizes read write form) (name : String) {a : α} {missing : Value}
    (hmissing : write a = missing) (given : Option Value) :
    (FieldForm.filled name form missing).put given =
      (orElse a read given).bind fun a => some (name, write a) := by
  cases given with
  | none => exact congrArg (fun v => some (name, v)) hmissing.symm
  | some v => exact h.entry name v

theorem nullable (h : Normalizes read write form) (name : String) (given : Option Value) :
    (FieldForm.nullable name form).put given =
      (Value.optional read given).bind fun a => some (name, a.elim .null write) := by
  cases given with
  | none => rfl
  | some v =>
    simp only [FieldForm.nullable, FieldForm.filled, FieldForm.put, Value.optional]
    split
    · rfl
    · rw [h.entry, Option.bind_map]
      rfl

/-! Records. -/

/-- A record keeps to its form if its reader takes the values of its fields, and these keep to
theirs. -/
theorem record {least : Nat} {fields : List FieldForm}
    {readFields : (String → Option Value) → Option α}
    (hdistinct : (fields.map (·.name)).Nodup)
    (hread : ∀ v, read v = (fields? least (fields.map (·.name)) v).bind readFields)
    (hfields : ∀ field, ((readFields field).bind fun a => some (write a)) =
      (fields.mapM fun f => FieldForm.put f (field f.name)).bind fun entries =>
        some (.record entries)) :
    Normalizes read write (Form.record least fields) := by
  intro v
  rw [hread, Form.record_eq least hdistinct, Option.map_bind]
  refine congrArg _ (funext fun field => ?_)
  rw [Function.comp_apply, Option.map_eq_bind, Form.written, List.mapM_map, Option.map_eq_bind]
  exact hfields field

theorem block : Normalizes Block.read? Block.write Form.block := by
  refine record (by decide) (fun _ => rfl) fun field => ?_
  simp [worldId.needed, int32.needed, Block.write, Option.bind_assoc]

theorem location : Normalizes Location.read? Location.write Form.location := by
  refine record (by decide) (fun _ => rfl) fun field => ?_
  simp [worldId.needed, double.needed, single.needed, Location.write,
    Option.bind_assoc]

theorem worldPolicy : Normalizes WorldPolicy.read? WorldPolicy.write Form.worldPolicy := by
  refine record (by decide) (fun _ => rfl) fun field => ?_
  simp [bool.filled _ rfl, WorldPolicy.write,
    Option.bind_assoc]

/-! Sets and maps. -/

theorem set [DecidableEq α] [Ord α] [Std.TransOrd α] [Std.LawfulEqOrd α]
    {parse : String → Option α} {text : α → String} (hread : ∀ v, read v = (text? v).bind parse)
    (hwrite : ∀ a, write a = .text (text a)) :
    Normalizes (list? read) (fun as => .list ((Std.ExtTreeSet.ofList as).toList.map write))
      (Form.set parse text) := by
  intro v
  simp only [Form.toList_setOfList, funext hread, funext hwrite]
  cases v <;> rfl

theorem map_mapM {β γ : Type} (write : α → β) {f : γ → Option α} {g : γ → Option β}
    (h : ∀ c, (f c).map write = g c) (cs : List γ) :
    (cs.mapM f).map (·.map write) = cs.mapM g := by
  induction cs with
  | nil => rfl
  | cons c cs ih =>
    simp only [List.mapM_cons, ← h c, ← ih]
    cases f c <;> cases cs.mapM f <;> rfl

theorem lookup_map {β γ : Type} [BEq α] (write : β → γ) (entries : List (α × β)) (a : α) :
    (entries.map fun entry => (entry.1, write entry.2)).lookup a =
      (entries.lookup a).map write := by
  induction entries with
  | nil => rfl
  | cons entry entries ih =>
    rw [List.map_cons, List.lookup_cons, List.lookup_cons, ih]
    cases a == entry.1 <;> rfl

theorem listed : Normalizes WorldPolicies.readListed?
    (fun listed => .record (listed.toList.map fun entry => (entry.1.text, entry.2.write)))
    (Form.byWorld Form.worldPolicy) := by
  intro v
  cases v with
  | record entries =>
    have hentry (entry : String × Value) :
        Option.map (fun entry : WorldId × WorldPolicy => (entry.1, entry.2.write)) (do
          return (WorldId.mk (← Uuid.parse? entry.1), ← WorldPolicy.read? entry.2)) = do
        return (WorldId.mk (← Uuid.parse? entry.1), ← Form.worldPolicy entry.2) := by
      simp [← worldPolicy entry.2, Option.map_bind, Option.bind_map]
    simp only [WorldPolicies.readListed?, Form.byWorld, entries?, ← map_mapM _ hentry entries]
    simp [Form.toList_mapOfList, ← List.map_reverse, lookup_map, List.map_filterMap,
      Option.bind_map, Option.map_bind, Function.comp_def]
  | null => rfl
  | bool b => rfl
  | int n => rfl
  | real x => rfl
  | text s => rfl
  | list items => rfl

theorem worldPolicies : Normalizes WorldPolicies.read? WorldPolicies.write Form.worldPolicies := by
  refine record (by decide) (fun _ => rfl) fun field => ?_
  have huntouched : WorldPolicy.write {} = Form.untouched := rfl
  have hnone := listed.filled "worlds" (a := ∅) (show _ = Value.record [] from rfl)
  simp [worldPolicy.filled _ huntouched, hnone, WorldPolicies.write,
    Option.bind_assoc]

theorem entityIds : Normalizes (list? EntityId.read?)
    (fun ids => .list ((Std.ExtTreeSet.ofList ids).toList.map (·.write))) Form.entityIds :=
  set (fun _ => Option.map_bind) fun _ => rfl

theorem texts : Normalizes (list? text?)
    (fun texts => .list ((Std.ExtTreeSet.ofList texts).toList.map .text)) Form.texts :=
  set (fun _ => (Option.bind_fun_some _).symm) fun _ => rfl

theorem domain : Normalizes Domain.read? Domain.write Form.domain := by
  refine record (by decide) (fun _ => rfl) fun field => ?_
  have hplayers := entityIds.filled "players" (a := []) (show _ = Value.list [] from rfl)
  have hgroups := texts.filled "groups" (a := []) (show _ = Value.list [] from rfl)
  simp [hplayers, hgroups, Domain.write,
    Option.bind_assoc]

theorem protectedRegion :
    Normalizes ProtectedRegion.read? ProtectedRegion.write Form.protectedRegion := by
  have hzero : Value.ofInt32 0 = .int 0 := rfl
  have hnobody : Domain.write {} = Form.nobody := rfl
  refine record (by decide) (fun _ => rfl) fun field => ?_
  simp [regionId.needed, int32.filled _ hzero, domain.filled _ hnobody,
    ProtectedRegion.write, Option.bind_assoc]

theorem playerRef : Normalizes PlayerRef.read? PlayerRef.write Form.playerRef := by
  refine record (by decide) (fun _ => rfl) fun field => ?_
  simp [entityId.needed, text.needed, PlayerRef.write,
    Option.bind_assoc]

theorem userRef : Normalizes UserRef.read? UserRef.write Form.userRef := by
  refine record (by decide) (fun _ => rfl) fun field => ?_
  simp [entityId.needed, text.nullable, UserRef.write,
    Option.bind_assoc]

theorem entityRef : Normalizes EntityRef.read? EntityRef.write Form.entityRef := by
  refine record (by decide) (fun _ => rfl) fun field => ?_
  simp [entityId.needed, label.needed, location.needed, location.nullable,
    EntityRef.write, Option.bind_assoc]

theorem blockRef : Normalizes BlockRef.read? BlockRef.write Form.blockRef := by
  refine record (by decide) (fun _ => rfl) fun field => ?_
  simp [block.needed, label.needed, BlockRef.write,
    Option.bind_assoc]

/-! Alternatives. -/

theorem alternative (h : Normalizes read write form) {names : List String}
    {forms : List (String × Form)} {name : String} (hname : name ∉ names)
    (hform : forms.lookup name = some form) (v : Value) :
    Form.tagged names forms (.record [(name, v)]) =
      (read v).map fun a => .record [(name, write a)] := by
  rw [Form.tagged, if_neg hname, hform, Option.bind_some, ← h v, Option.map_map]
  rfl

theorem actorRef : Normalizes ActorRef.read? ActorRef.write Form.actorRef := by
  intro v
  unfold ActorRef.read?
  split
  next => rfl
  next => rfl
  next w => rw [Form.actorRef, playerRef.alternative (by decide) rfl, Option.map_map]; rfl
  next w => rw [Form.actorRef, userRef.alternative (by decide) rfl, Option.map_map]; rfl
  next w => rw [Form.actorRef, entityRef.alternative (by decide) rfl, Option.map_map]; rfl
  next w => rw [Form.actorRef, blockRef.alternative (by decide) rfl, Option.map_map]; rfl
  next hname hunknown hplayer huser hentity hblock =>
    unfold Form.actorRef Form.tagged
    split
    next name =>
      exact (if_neg fun hmem => hname (congrArg Value.text (List.mem_singleton.mp hmem))).symm
    next name w =>
      have hnot {tag : String} (h : Value.record [(name, w)] = .record [(tag, w)] → False) :
          (name == tag) = false := beq_eq_false_iff_ne.mpr fun heq => h (heq ▸ rfl)
      have hnull : name = "Unknown" → w.isNull = false := by
        rintro rfl
        cases w <;> first | rfl | exact (hunknown rfl).elim
      simp only [List.mem_singleton, List.lookup_cons, List.lookup_nil, hnot (hplayer w),
        hnot (huser w), hnot (hentity w), hnot (hblock w), Option.bind_none]
      split
      next hname => rw [hnull hname]; rfl
      next => rfl
    next => rfl

end Normalizes
end RegionAccess
