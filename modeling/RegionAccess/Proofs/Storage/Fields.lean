import RegionAccess.Proofs.Number.Floats
import RegionAccess.Storage.Value

/-! What reading finds of what was written: fields of records, sets and maps written in order, and
numbers. -/
namespace RegionAccess.Storage
open Document

/-- A value as a notation gives it: whole numbers have 64 bits, with a sign or without, and all
others are finite. -/
inductive Value.WellFormed : Value → Prop where
  | null : WellFormed .null
  | bool (b : Bool) : WellFormed (.bool b)
  | int {n : Int} : -2 ^ 63 ≤ n → n < 2 ^ 64 → WellFormed (.int n)
  | real {x : Float} : Number.isFinite x = true → WellFormed (.real x)
  | text (s : String) : WellFormed (.text s)
  | list {items : List Value} : (∀ v ∈ items, WellFormed v) → WellFormed (.list items)
  | record {fields : List (String × Value)} : (∀ field ∈ fields, WellFormed field.2) →
      WellFormed (.record fields)

@[simp] theorem text?_text (s : String) : text? (Value.text s) = some s := rfl

@[simp] theorem bool?_bool (b : Bool) : bool? (Value.bool b) = some b := rfl

section
variable {α : Type} (read : Value → Option α)

@[simp] theorem required_some (v : Value) : required read (some v) = read v := rfl

@[simp] theorem orElse_some (a : α) (v : Value) : orElse a read (some v) = read v := rfl

/-- What may be missing is written as null when it is. -/
theorem optional_elim {write : α → Value} (field : Option α)
    (hread : ∀ a ∈ field, read (write a) = some a) (hnull : ∀ a, (write a).isNull = false) :
    Value.optional read (some (field.elim .null write)) = some field := by
  cases field with
  | none => rfl
  | some a => simp [Value.optional, hnull, hread]

/-- What may be missing was read of something that was there, if it was. -/
theorem exists_of_optional {node : Option Value} {a : α}
    (h : Value.optional read node = some (some a)) : ∃ v, node = some v ∧ read v = some a := by
  cases node with
  | none => cases h
  | some v =>
    simp only [Value.optional] at h
    split at h
    · cases h
    · obtain ⟨b, hb, hba⟩ := Option.map_eq_some_iff.mp h
      exact ⟨v, rfl, Option.some.inj hba ▸ hb⟩

end

/-- A record written with its known fields, each once, is read by them. -/
theorem fields?_record (least : Nat) {names : List String} {fields : List (String × Value)}
    (hnames : fields.map (·.1) = names) (hdistinct : names.Nodup) :
    fields? least names (Value.record fields) = some (fields.lookup ·) := by
  have honce : names.all fun n => (fields.filter (·.1 == n)).length ≤ 1 := by
    refine List.all_eq_true.mpr fun n _ => decide_eq_true ?_
    have hcount := List.nodup_iff_count_le_one.mp hdistinct n
    rwa [← hnames, List.count, List.countP_map, List.countP_eq_length_filter] at hcount
  exact if_pos honce

theorem mem_of_lookup {α β : Type} [BEq α] [LawfulBEq α] {a : α} {b : β} {l : List (α × β)}
    (h : l.lookup a = some b) : (a, b) ∈ l := by
  obtain ⟨before, after, rfl, -⟩ := List.lookup_eq_some_iff.mp h
  exact List.mem_append_right _ List.mem_cons_self

/-- Whatever is found in a well-formed record is well formed. -/
theorem Value.WellFormed.field {v : Value} (hv : v.WellFormed) {least : Nat} {names : List String}
    {field : String → Option Value} (h : fields? least names v = some field) {name : String}
    {w : Value} (hw : field name = some w) : w.WellFormed := by
  cases hv with
  | record hfields =>
    simp only [fields?, record?] at h
    split at h
    · obtain rfl := Option.some.inj h
      exact hfields _ (mem_of_lookup hw)
    · cases h
  | list hitems =>
    simp only [fields?, record?] at h
    split at h
    · obtain rfl := Option.some.inj h
      exact hitems _ (List.of_mem_zip (mem_of_lookup hw)).2
    · cases h
  | null => cases h
  | bool b => cases h
  | int => cases h
  | real => cases h
  | text s => cases h

theorem mapM_map_of_inverse {α β : Type} {f : β → Option α} {g : α → β} (h : ∀ a, f (g a) = some a)
    (as : List α) : (as.map g).mapM f = some as := by
  induction as with
  | nil => rfl
  | cons a as ih => simp [h, ih]

theorem list?_map_of_inverse {α : Type} {read : Value → Option α} {write : α → Value}
    (h : ∀ a, read (write a) = some a) (as : List α) :
    list? read (Value.list (as.map write)) = some as := mapM_map_of_inverse h as

section
variable {α β : Type} [DecidableEq α] [Ord α] [Std.TransOrd α] [Std.LawfulEqOrd α]

/-- A set is what its elements in order make. -/
theorem setOfList_toList (s : Std.ExtTreeSet α) : Std.ExtTreeSet.ofList s.toList = s := by
  refine Std.ExtTreeSet.ext_mem fun a => ?_
  rw [Std.ExtTreeSet.mem_ofList, List.contains_iff_mem, Std.ExtTreeSet.mem_toList]

/-- A map is what its entries in order make. -/
theorem mapOfList_toList (m : Std.ExtTreeMap α β) : Std.ExtTreeMap.ofList m.toList = m := by
  refine Std.ExtTreeMap.ext_getElem? fun a => ?_
  cases ha : m[a]? with
  | some b =>
    exact Std.ExtTreeMap.getElem?_ofList_of_mem Std.ReflOrd.compare_self m.distinct_keys_toList
      (Std.ExtTreeMap.mem_toList_iff_getElem?_eq_some.mpr ha)
  | none =>
    apply Std.ExtTreeMap.getElem?_ofList_of_contains_eq_false
    refine Bool.eq_false_iff.mpr fun hmem => ?_
    obtain ⟨⟨key, b⟩, hentry, rfl⟩ := List.mem_map.mp (List.contains_iff_mem.mp hmem)
    rw [Std.ExtTreeMap.mem_toList_iff_getElem?_eq_some.mp hentry] at ha
    cases ha

end

namespace Value

@[simp] theorem int32?_ofInt32 (n : Int32) : int32? (ofInt32 n) = some n := by
  rw [ofInt32, int32?, if_pos ⟨n.minValue_le_toInt, n.toInt_le⟩, n.ofInt_toInt]

@[simp] theorem label?_ofLabel {α : Type} [Labelled α] (a : α) : label? (ofLabel a) = some a :=
  ofLabel?_label a

theorem double?_ofDouble {x : Float} (h : Number.isFinite x = true) :
    double? (ofDouble x) = some x := by
  rw [ofDouble, if_pos h, double?]

theorem single?_ofSingle {x : Float32} (h : Number.isFiniteSingle x = true) :
    single? (ofSingle x) = some x := by
  obtain ⟨hwide, hnarrow⟩ := Number.narrow_widen h
  rw [ofSingle, ofDouble, if_pos hwide, single?, hnarrow]

/-- A double is read finite where the number that was written is. -/
theorem WellFormed.double {v : Value} (hv : v.WellFormed) {x : Float} (h : double? v = some x) :
    Number.isFinite x = true := by
  cases hv with
  | int hleast hgreatest =>
    obtain rfl := Option.some.inj h
    exact Number.isFinite_toDouble_ofInt (by omega)
  | real hx =>
    obtain rfl := Option.some.inj h
    exact hx
  | null => cases h
  | bool b => cases h
  | text s => cases h
  | list => cases h
  | record => cases h

end Value
end RegionAccess.Storage
