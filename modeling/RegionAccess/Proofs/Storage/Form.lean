import Mathlib.Data.List.Dedup
import Mathlib.Data.List.Sort
import RegionAccess.Actor
import RegionAccess.Proofs.Storage.Fields
import RegionAccess.Storage.Location

/-! The form that a stored value takes by being read and written again. Fields come in the order of
the record, those that were missing with what stands for them and none that are not known; sets are
in order with each element once; ids of regions are in lower case. The forms are given by the names
and kinds of fields alone, without any reader or writer of a record. -/
namespace RegionAccess
open Document Storage

/-- What is made of a stored value of some kind, nothing where it is not accepted. -/
abbrev Form := Value → Option Value

/-- A field of a record, with what is written for it when it is missing. Without that, it must be
there. -/
structure FieldForm where
  name : String
  form : Form
  missing? : Option Value := none

namespace FieldForm

def needed (name : String) (form : Form) : FieldForm := { name, form }

def filled (name : String) (form : Form) (missing : Value) : FieldForm :=
  { name, form, missing? := some missing }

/-- A field that may be null is null when it is missing. -/
def nullable (name : String) (form : Form) : FieldForm :=
  filled name (fun v => if v.isNull then some .null else form v) .null

@[simp] theorem name_needed (name : String) (form : Form) : (needed name form).name = name := rfl

@[simp] theorem name_filled (name : String) (form : Form) (missing : Value) :
    (filled name form missing).name = name := rfl

@[simp] theorem name_nullable (name : String) (form : Form) : (nullable name form).name = name :=
  rfl

/-- What is written for the field, where it is missing or has a value. -/
def put (f : FieldForm) : Option Value → Option (String × Value)
  | none => f.missing?.map (f.name, ·)
  | some v => (f.form v).map (f.name, ·)

end FieldForm

namespace Form

def text : Form
  | .text s => some (.text s)
  | _ => none

def bool : Form
  | .bool b => some (.bool b)
  | _ => none

/-- An identifier in any notation becomes one with hyphens. -/
def uuid : Form
  | .text s => (Uuid.parse? s).map fun u => .text u.text
  | _ => none

def regionId : Form
  | .text s => some (.text (Text.lower s))
  | _ => none

def int32 : Form
  | .int n => if -2 ^ 31 ≤ n ∧ n < 2 ^ 31 then some (.int n) else none
  | _ => none

def double : Form
  | .int n => some (.ofDouble (Number.toDouble (.finite (.ofInt n))))
  | .real x => some (.ofDouble x)
  | _ => none

def single : Form
  | .int n => some (.ofSingle (Number.toSingle (.finite (.ofInt n))))
  | .real x => some (.ofSingle (Number.narrow x))
  | _ => none

/-- One of some names, or a record of one field that is named for the form of its value. A name may
also be given as a record of that name which holds nothing. -/
def tagged (names : List String) (forms : List (String × Form)) : Form
  | .text name => if name ∈ names then some (.text name) else none
  | .record [(name, v)] =>
      if name ∈ names then if v.isNull then some (.text name) else none
      else (forms.lookup name).bind fun form => (form v).map fun w => .record [(name, w)]
  | _ => none

/-- A name of one of the alternatives. -/
def label (α : Type) [Labelled α] : Form := tagged ((Labelled.all : List α).map Labelled.label) []

/-- The record of some fields, each of them missing or with a value. -/
def written (fields : List (FieldForm × Option Value)) : Option Value :=
  (fields.mapM fun (f, given) => FieldForm.put f given).map .record

/-- Fields with the values that stand in their places. -/
def placed : List FieldForm → List Value → List (FieldForm × Option Value)
  | [], _ => []
  | f :: fs, items => (f, items.head?) :: placed fs items.tail

/-- A record by the names of its fields, of which none may be given twice and others do not matter,
or by their values in order, of which so many must be there at least. -/
def record (least : Nat) (fields : List FieldForm) : Form
  | .record entries =>
      if ∀ f ∈ fields, entries.countP (·.1 == f.name) ≤ 1 then
        written (fields.map fun f => (f, entries.lookup f.name))
      else none
  | .list items =>
      if least ≤ items.length ∧ items.length ≤ fields.length then
        written (placed fields items)
      else none
  | _ => none

/-- The elements of a list in order, each of them once. -/
def inOrder {α : Type} [DecidableEq α] [Ord α] (as : List α) : List α :=
  as.dedup.insertionSort fun a b => (compare a b).isLE = true

/-- A set of texts that stand for something. -/
def set {α : Type} [DecidableEq α] [Ord α] (parse : String → Option α) (text : α → String) : Form
  | .list items =>
      (items.mapM fun v => (text? v).bind parse).map fun as =>
        .list ((inOrder as).map fun a => .text (text a))
  | _ => none

/-- Values by the worlds they are for. Of two for one world the later is kept. -/
def byWorld (form : Form) : Form
  | .record entries => do
      let listed ← entries.mapM fun (world, v) =>
        return (WorldId.mk (← Uuid.parse? world), ← form v)
      return .record ((inOrder (listed.map (·.1))).filterMap fun world =>
        (listed.reverse.lookup world).map (world.text, ·))
  | _ => none

/-! The values of each type. -/

def block : Form :=
  record 4 [.needed "world" uuid, .needed "x" int32, .needed "y" int32, .needed "z" int32]

def location : Form :=
  record 6 [.needed "world" uuid, .needed "x" double, .needed "y" double, .needed "z" double,
    .needed "yaw" single, .needed "pitch" single]

def worldPolicy : Form :=
  record 0 [.filled "use_regions" bool (.bool true),
    .filled "explosion_flag_cancellation" bool (.bool false),
    .filled "fake_player_build_override" bool (.bool true),
    .filled "use_entity_origin" bool (.bool false)]

/-- A policy of which no field was given. -/
def untouched : Value :=
  .record [("use_regions", .bool true), ("explosion_flag_cancellation", .bool false),
    ("fake_player_build_override", .bool true), ("use_entity_origin", .bool false)]

def worldPolicies : Form :=
  record 0 [.filled "default" worldPolicy untouched,
    .filled "worlds" (byWorld worldPolicy) (.record [])]

def entityIds : Form := set (fun s => (Uuid.parse? s).map EntityId.mk) EntityId.text

def texts : Form := set some id

def domain : Form :=
  record 0 [.filled "players" entityIds (.list []), .filled "groups" texts (.list [])]

/-- A domain of which no field was given. -/
def nobody : Value := .record [("players", .list []), ("groups", .list [])]

def protectedRegion : Form :=
  record 0 [.needed "id" regionId, .filled "priority" int32 (.int 0),
    .filled "owners" domain nobody, .filled "members" domain nobody]

def playerRef : Form := record 2 [.needed "id" uuid, .needed "name" text]

def userRef : Form := record 2 [.needed "id" uuid, .nullable "name" text]

def entityRef : Form :=
  record 4 [.needed "id" uuid, .needed "kind" (label EntityKind), .needed "location" location,
    .nullable "origin" location]

def blockRef : Form := record 2 [.needed "pos" block, .needed "kind" (label BlockKind)]

def actorRef : Form :=
  tagged ["Unknown"]
    [("Player", playerRef), ("OfflineUser", userRef), ("Entity", entityRef), ("Block", blockRef)]

/-! The same in terms of what readers use. -/

section
variable {α β : Type} [DecidableEq α] [Ord α] [Std.TransOrd α] [Std.LawfulEqOrd α]

/-- Elements that ascend are in order. -/
theorem eq_inOrder {sorted as : List α} (hsorted : sorted.Pairwise fun a b => compare a b = .lt)
    (hmem : ∀ a, a ∈ sorted ↔ a ∈ as) : sorted = inOrder as := by
  let le (a b : α) : Prop := (compare a b).isLE = true
  have htotal : Std.Total le := ⟨fun a b => by
    by_cases h : le a b
    · exact .inl h
    · exact .inr (Ordering.isLE_of_eq_lt (Std.OrientedCmp.lt_of_not_isLE h))⟩
  have htrans : IsTrans α le := ⟨fun _ _ _ => Std.TransCmp.isLE_trans⟩
  have hperm : sorted.Perm (inOrder as) := by
    refine List.Perm.trans ?_ (List.perm_insertionSort le as.dedup).symm
    have hdistinct : sorted.Nodup := hsorted.imp fun hlt heq => by
      rw [heq, Std.ReflOrd.compare_self] at hlt
      cases hlt
    exact (List.perm_ext_iff_of_nodup hdistinct as.nodup_dedup).mpr fun a =>
      (hmem a).trans List.mem_dedup.symm
  refine hperm.eq_of_pairwise (fun a b _ _ hab hba => ?_)
    (hsorted.imp Ordering.isLE_of_eq_lt) (List.pairwise_insertionSort le as.dedup)
  exact Std.LawfulEqCmp.eq_of_compare (Std.OrientedCmp.isLE_antisymm hab hba)

theorem toList_setOfList (as : List α) : (Std.ExtTreeSet.ofList as).toList = inOrder as :=
  eq_inOrder Std.ExtTreeSet.ordered_toList fun a => by
    rw [Std.ExtTreeSet.mem_toList, Std.ExtTreeSet.mem_ofList, List.contains_iff_mem]

/-- What a map has for a key is what was put there last. -/
theorem getElem?_insertMany (m : Std.ExtTreeMap α β) (entries : List (α × β)) (a : α) :
    (m.insertMany entries)[a]? = (entries.reverse.lookup a).or m[a]? := by
  induction entries generalizing m with
  | nil => simp
  | cons entry entries ih =>
    obtain ⟨key, b⟩ := entry
    rw [Std.ExtTreeMap.insertMany_cons, ih, Std.ExtTreeMap.getElem?_insert, List.reverse_cons,
      List.lookup_append, Option.or_assoc]
    congr 1
    simp only [List.lookup_cons, List.lookup_nil, Std.compare_eq_iff_eq]
    split
    next h => simp [h]
    next h => simp [beq_eq_false_iff_ne.mpr (Ne.symm h)]

theorem toList_mapOfList (entries : List (α × β)) : (Std.ExtTreeMap.ofList entries).toList =
    (inOrder (entries.map (·.1))).filterMap fun a => (entries.reverse.lookup a).map (a, ·) := by
  generalize hm : Std.ExtTreeMap.ofList entries = m
  have hkeys : m.keys = inOrder (entries.map (·.1)) := by
    refine eq_inOrder m.ordered_keys fun a => ?_
    rw [Std.ExtTreeMap.mem_keys, ← hm, Std.ExtTreeMap.mem_ofList, List.contains_iff_mem]
  have hfound (a : α) : entries.reverse.lookup a = m[a]? := by
    rw [← hm, Std.ExtTreeMap.ofList_eq_insertMany_empty, getElem?_insertMany]
    simp
  simp only [← hkeys, ← Std.ExtTreeMap.map_fst_toList_eq_keys, List.filterMap_map, hfound]
  refine ((List.filterMap_congr fun entry hentry => ?_).trans List.filterMap_some).symm
  simp [Std.ExtTreeMap.mem_toList_iff_getElem?_eq_some.mp hentry]

end

theorem placed_eq {fields : List FieldForm} (hdistinct : (fields.map (·.name)).Nodup)
    (items : List Value) : placed fields items =
      fields.map fun f => (f, ((fields.map (·.name)).zip items).lookup f.name) := by
  induction fields generalizing items with
  | nil => rfl
  | cons f fields ih =>
    obtain ⟨hnew, hrest⟩ := List.nodup_cons.mp hdistinct
    rw [placed, ih hrest]
    cases items with
    | nil => simp
    | cons v items =>
      simp only [List.head?_cons, List.tail_cons, List.map_cons, List.zip_cons_cons,
        List.lookup_cons_self, List.cons.injEq, true_and]
      refine List.map_congr_left fun g hg => ?_
      have hne : (g.name == f.name) = false := by
        rw [beq_eq_false_iff_ne]
        exact fun hname => hnew (List.mem_map.mpr ⟨g, hg, hname⟩)
      rw [List.lookup_cons, hne]

/-- In either notation, a record is written by the values that its fields are read from. -/
theorem record_eq (least : Nat) {fields : List FieldForm}
    (hdistinct : (fields.map (·.name)).Nodup) (v : Value) :
    record least fields v = (fields? least (fields.map (·.name)) v).bind fun field =>
      written (fields.map fun f => (f, field f.name)) := by
  cases v with
  | record entries =>
    simp only [record, fields?, record?, List.all_map, List.all_eq_true, Function.comp_apply,
      decide_eq_true_eq, ← List.countP_eq_length_filter]
    split <;> rfl
  | list items =>
    simp only [record, fields?, record?, List.length_map, Bool.and_eq_true, decide_eq_true_eq,
      placed_eq hdistinct]
    split <;> rfl
  | null => rfl
  | bool b => rfl
  | int n => rfl
  | real x => rfl
  | text s => rfl

end Form
end RegionAccess
