import Mathlib.Data.List.Dedup
import RegionAccess.Attribution

/-! Attributions answer as one finite map would, from an identity and a key to an actor. That the
values of an identity are kept in a table of their own shows nowhere: a table is dropped with its
last value, so that the tables count the identities that have any. -/
namespace RegionAccess

namespace Attributions

/-- What can be asked of attributions. -/
inductive Request where
  | put (target : ActorRef) (key : String) (value : ActorRef)
  | get (target : ActorRef) (key : String)
  | remove (target : ActorRef) (key : String)
  | removeAll (target : ActorRef)
  | track (target parent : ActorRef)
  | untrack (target : ActorRef)
  | parent (target : ActorRef)
  | size
  | isEmpty

inductive Reply where
  | done
  | refused (error : AttributionError)
  | value (found : Option ActorRef)
  | count (n : Nat)
  | verdict (holds : Bool)

/-- A write that is refused changes nothing. -/
def Reply.ofWrite {α : Type} (result : Except AttributionError α) : StateM α Reply := fun s =>
  match result with
  | .ok s => (.done, s)
  | .error e => (.refused e, s)

def serve : Request → StateM Attributions Reply
  | .put target key value => do Reply.ofWrite ((← get).put target key value)
  | .get target key => return .value ((← get).get? target key)
  | .remove target key => modifyGet fun s => ((s.remove target key).map .value id)
  | .removeAll target => do modify (·.removeAll target); return .done
  | .track target parent => do Reply.ofWrite ((← get).track target parent)
  | .untrack target => do modify (·.untrack target); return .done
  | .parent target => return .value ((← get).parent? target)
  | .size => return .count (← get).size
  | .isEmpty => return .verdict (← get).isEmpty

end Attributions

/-- What a value is attached under. -/
structure Place where
  identity : EntityId
  key : String
  deriving DecidableEq

namespace Place

instance : Ord Place := ⟨compareLex (compareOn identity) (compareOn key)⟩

instance : Std.TransOrd Place :=
  inferInstanceAs (Std.TransCmp (compareLex (compareOn identity) (compareOn key)))

instance : Std.LawfulEqOrd Place where
  eq_of_compare {a b} h := by
    obtain ⟨hidentity, hkey⟩ := Ordering.then_eq_eq.mp h
    obtain ⟨a, k⟩ := a
    obtain ⟨b, l⟩ := b
    have ha : a = b := Std.LawfulEqOrd.eq_of_compare hidentity
    have hk : k = l := Std.LawfulEqOrd.eq_of_compare hkey
    rw [ha, hk]

end Place

/-- Attached values as one finite map. -/
structure Bindings where
  values : Std.ExtTreeMap Place ActorRef := ∅

namespace Bindings
open Attributions

/-- The place of a key at a player, an offline user or an entity, who are told apart by id alone. -/
def place? (target : ActorRef) (key : String) : Option Place := target.id?.map (Place.mk · key)

/-- Neither blocks nor what is unknown can have anything attached. -/
def put (b : Bindings) (target : ActorRef) (key : String) (value : ActorRef) :
    Except AttributionError Bindings :=
  match target with
  | .block r => .error (.blockNotTrackable r.block)
  | .unknown => .error .unknownTarget
  | .player _ | .offlineUser _ | .entity _ =>
      .ok ⟨(place? target key).elim b.values (b.values.insert · value)⟩

def get? (b : Bindings) (target : ActorRef) (key : String) : Option ActorRef :=
  (place? target key).bind fun place => b.values[place]?

def remove (b : Bindings) (target : ActorRef) (key : String) : Bindings :=
  ⟨(place? target key).elim b.values b.values.erase⟩

def removeAll (b : Bindings) (target : ActorRef) : Bindings :=
  ⟨b.values.filter fun place _ => target.id? ≠ some place.identity⟩

/-- The identities that have something attached. -/
def identities (b : Bindings) : List EntityId := (b.values.keys.map (·.identity)).dedup

def serve : Request → StateM Bindings Reply
  | .put target key value => do Reply.ofWrite ((← get).put target key value)
  | .get target key => return .value ((← get).get? target key)
  | .remove target key => modifyGet fun b => (.value (b.get? target key), b.remove target key)
  | .removeAll target => do modify (·.removeAll target); return .done
  | .track target parent => do Reply.ofWrite ((← get).put target causeKey parent)
  | .untrack target => do modify (·.remove target causeKey); return .done
  | .parent target => return .value ((← get).get? target causeKey)
  | .size => return .count (← get).identities.length
  | .isEmpty => return .verdict (← get).values.isEmpty

end Bindings

namespace Attributions

/-- Every binding is in its identity's table, and no table is empty. -/
structure Represents (s : Attributions) (b : Bindings) : Prop where
  values : ∀ place : Place, b.values[place]? = (s.table place.identity)[place.key]?
  occupied : ∀ id : EntityId, s.bindings[id]? ≠ some ∅

/-- The attributions with another table for an identity. -/
def withTable (s : Attributions) (id : EntityId) (t : Std.ExtTreeMap String ActorRef) :
    Attributions :=
  ⟨if t.isEmpty then s.bindings.erase id else s.bindings.insert id t⟩

section
variable {s : Attributions} {b b' : Bindings} {target : ActorRef} {id : EntityId} {key : String}

@[simp] theorem table_withTable (s : Attributions) (id : EntityId)
    (t : Std.ExtTreeMap String ActorRef) (other : EntityId) :
    (s.withTable id t).table other = if id = other then t else s.table other := by
  unfold withTable table
  split
  next ht =>
    have hempty : t = ∅ := Std.ExtTreeMap.isEmpty_iff.mp ht
    by_cases hid : id = other <;> simp [Std.ExtTreeMap.getElem?_erase, hid, hempty]
  next => by_cases hid : id = other <;> simp [Std.ExtTreeMap.getElem?_insert, hid]

theorem removeAll_eq_withTable (s : Attributions) (h : target.id? = some id) :
    s.removeAll target = s.withTable id ∅ := by
  simp [removeAll, withTable, h]

/-- An identity loses all it has attached, whichever of its references is asked; the others keep
theirs. -/
theorem get?_removeAll (s : Attributions) (h : target.id? = some id) (ref : ActorRef)
    (key : String) :
    (s.removeAll target).get? ref key = if ref.id? = some id then none else s.get? ref key := by
  rw [s.removeAll_eq_withTable h]
  cases href : ref.id? with
  | none => simp [get?, href]
  | some other =>
    by_cases hother : id = other
    · simp [get?, href, hother]
    · simp [get?, href, hother, Ne.symm hother]

theorem remove_eq_withTable (s : Attributions) (h : target.id? = some id) (key : String) :
    s.remove target key = ((s.table id)[key]?, s.withTable id ((s.table id).erase key)) := by
  simp only [remove, h]
  rfl

theorem put_eq_withTable (s : Attributions) (h : target.id? = some id) (key : String)
    (value : ActorRef) :
    s.put target key value = .ok (s.withTable id ((s.table id).insert key value)) := by
  have hslot : slot target = .ok id := by cases target <;> simp_all [slot, ActorRef.id?]
  simp [put, hslot, withTable, Except.map]

namespace Represents

/-- The values of one identity are replaced by those of a table, the others kept. -/
theorem withTable (h : s.Represents b) {t : Std.ExtTreeMap String ActorRef}
    (hb : ∀ place : Place, b'.values[place]? =
      if id = place.identity then t[place.key]? else b.values[place]?) :
    (s.withTable id t).Represents b' where
  values place := by
    rw [hb, table_withTable]
    split
    · rfl
    · exact h.values place
  occupied other := by
    unfold Attributions.withTable
    split
    next =>
      rw [Std.ExtTreeMap.getElem?_erase]
      split
      · exact Option.some_ne_none _ |>.symm
      · exact h.occupied other
    next ht =>
      rw [Std.ExtTreeMap.getElem?_insert]
      split
      · intro hnone
        exact ht (Std.ExtTreeMap.isEmpty_iff.mpr (Option.some.inj hnone))
      · exact h.occupied other

theorem insert (h : s.Represents b) (value : ActorRef) :
    (s.withTable id ((s.table id).insert key value)).Represents
      ⟨b.values.insert ⟨id, key⟩ value⟩ := by
  refine h.withTable fun place => ?_
  rw [Std.ExtTreeMap.getElem?_insert, Std.ExtTreeMap.getElem?_insert, h.values]
  obtain ⟨other, k⟩ := place
  by_cases hid : id = other <;> simp [hid]

theorem erase (h : s.Represents b) :
    (s.withTable id ((s.table id).erase key)).Represents ⟨b.values.erase ⟨id, key⟩⟩ := by
  refine h.withTable fun place => ?_
  rw [Std.ExtTreeMap.getElem?_erase, Std.ExtTreeMap.getElem?_erase, h.values]
  obtain ⟨other, k⟩ := place
  by_cases hid : id = other <;> simp [hid]

theorem get? (h : s.Represents b) (target : ActorRef) (key : String) :
    s.get? target key = b.get? target key := by
  cases hid : target.id? with
  | none => simp [Attributions.get?, Bindings.get?, Bindings.place?, hid]
  | some id => simp [Attributions.get?, Bindings.get?, Bindings.place?, hid, h.values]

theorem put (h : s.Represents b) (target : ActorRef) (key : String) (value : ActorRef) :
    (∃ e, s.put target key value = .error e ∧ b.put target key value = .error e) ∨
      ∃ s' b', s.put target key value = .ok s' ∧ b.put target key value = .ok b' ∧
        s'.Represents b' := by
  have hwrite (id : EntityId) (hid : target.id? = some id)
      (hb : b.put target key value = .ok ⟨b.values.insert ⟨id, key⟩ value⟩) :
      ∃ s' b', s.put target key value = .ok s' ∧ b.put target key value = .ok b' ∧
        s'.Represents b' :=
    ⟨_, _, s.put_eq_withTable hid key value, hb, h.insert value⟩
  cases target with
  | player p => exact .inr (hwrite p.id rfl rfl)
  | offlineUser u => exact .inr (hwrite u.id rfl rfl)
  | entity e => exact .inr (hwrite e.id rfl rfl)
  | block r => exact .inl ⟨_, rfl, rfl⟩
  | unknown => exact .inl ⟨_, rfl, rfl⟩

theorem remove (h : s.Represents b) (target : ActorRef) (key : String) :
    (s.remove target key).1 = b.get? target key ∧
      (s.remove target key).2.Represents (b.remove target key) := by
  cases hid : target.id? with
  | none =>
    simp only [Attributions.remove, Bindings.get?, Bindings.remove, Bindings.place?, hid]
    exact ⟨rfl, h⟩
  | some id =>
    rw [s.remove_eq_withTable hid, ← h.get?]
    simp only [Attributions.get?, Bindings.remove, Bindings.place?, hid]
    exact ⟨rfl, h.erase⟩

theorem removeAll (h : s.Represents b) (target : ActorRef) :
    (s.removeAll target).Represents (b.removeAll target) := by
  have hget (place : Place) : (b.removeAll target).values[place]? =
      if target.id? = some place.identity then none else b.values[place]? := by
    rw [Bindings.removeAll, Std.ExtTreeMap.getElem?_filter]
    simp only [Std.ExtTreeMap.getKey_eq, Option.pfilter_eq_filter]
    by_cases htarget : target.id? = some place.identity <;>
      cases b.values[place]? <;> simp [htarget]
  cases hid : target.id? with
  | none =>
    simp only [Attributions.removeAll, hid]
    refine ⟨fun place => ?_, h.occupied⟩
    rw [hget, if_neg (by simp [hid])]
    exact h.values place
  | some id =>
    rw [s.removeAll_eq_withTable hid]
    refine h.withTable fun place => ?_
    simp [hget, hid]

/-- There is a table for whoever has a value, and for nobody else. -/
theorem mem_identities (h : s.Represents b) {id : EntityId} :
    id ∈ b.identities ↔ id ∈ s.bindings.keys := by
  rw [Bindings.identities, List.mem_dedup, List.mem_map, Std.ExtTreeMap.mem_keys]
  constructor
  · rintro ⟨place, hplace, rfl⟩
    rw [Std.ExtTreeMap.mem_keys, Std.ExtTreeMap.mem_iff_isSome_getElem?, h.values, table] at hplace
    rw [Std.ExtTreeMap.mem_iff_isSome_getElem?]
    by_contra hnone
    simp_all
  · intro hid
    obtain ⟨t, ht⟩ := Option.isSome_iff_exists.mp (Std.ExtTreeMap.mem_iff_isSome_getElem?.mp hid)
    have hne : t ≠ ∅ := fun hempty => h.occupied id (hempty ▸ ht)
    obtain ⟨key, hkey⟩ : ∃ key, key ∈ t := by
      by_contra hnone
      exact hne (Std.ExtTreeMap.eq_empty_iff_forall_not_mem.mpr (not_exists.mp hnone))
    refine ⟨⟨id, key⟩, ?_, rfl⟩
    rw [Std.ExtTreeMap.mem_keys, Std.ExtTreeMap.mem_iff_isSome_getElem?, h.values, table, ht]
    exact Std.ExtTreeMap.mem_iff_isSome_getElem?.mp hkey

theorem length_identities (h : s.Represents b) : b.identities.length = s.size := by
  have hperm : b.identities.Perm s.bindings.keys :=
    (List.perm_ext_iff_of_nodup (List.nodup_dedup _) Std.ExtTreeMap.nodup_keys).mpr
      fun id => h.mem_identities
  rw [hperm.length_eq, Std.ExtTreeMap.length_keys]
  rfl

theorem isEmpty_values (h : s.Represents b) : b.values.isEmpty = s.isEmpty := by
  rw [isEmpty, ← h.length_identities, Bool.eq_iff_iff, Std.ExtTreeMap.isEmpty_iff]
  simp [Bindings.identities]

/-- Every request is answered alike, and what is attached afterwards is the same again. -/
theorem serve (h : s.Represents b) (request : Request) :
    (Attributions.serve request s).1 = (Bindings.serve request b).1 ∧
      (Attributions.serve request s).2.Represents (Bindings.serve request b).2 := by
  have hput (target : ActorRef) (key : String) (value : ActorRef) :
      (Reply.ofWrite (s.put target key value) s).1 = (Reply.ofWrite (b.put target key value) b).1 ∧
        (Reply.ofWrite (s.put target key value) s).2.Represents
          (Reply.ofWrite (b.put target key value) b).2 := by
    obtain ⟨e, hs, hb⟩ | ⟨s', b', hs, hb, h'⟩ := h.put target key value
    · rw [hs, hb]
      exact ⟨rfl, h⟩
    · rw [hs, hb]
      exact ⟨rfl, h'⟩
  cases request with
  | put target key value => exact hput target key value
  | track target parent => exact hput target causeKey parent
  | get target key => exact ⟨congrArg Reply.value (h.get? target key), h⟩
  | parent target => exact ⟨congrArg Reply.value (h.get? target causeKey), h⟩
  | remove target key =>
    obtain ⟨hfound, h'⟩ := h.remove target key
    exact ⟨congrArg Reply.value hfound, h'⟩
  | untrack target => exact ⟨rfl, (h.remove target causeKey).2⟩
  | removeAll target => exact ⟨rfl, h.removeAll target⟩
  | size => exact ⟨congrArg Reply.count h.length_identities.symm, h⟩
  | isEmpty => exact ⟨congrArg Reply.verdict h.isEmpty_values.symm, h⟩

/-- So are all requests of a run. -/
theorem replies_eq (h : s.Represents b) (requests : List Request) :
    (requests.mapM Attributions.serve s).1 = (requests.mapM Bindings.serve b).1 := by
  induction requests generalizing s b with
  | nil => rfl
  | cons request requests ih =>
    obtain ⟨hreply, h'⟩ := h.serve request
    rw [List.mapM_cons, List.mapM_cons]
    exact congrArg₂ List.cons hreply (ih h')

end Represents

theorem represents_empty : ({} : Attributions).Represents {} where
  values place := by simp [table]
  occupied other := by simp

/-- Whatever is asked of attributions that start out empty, they answer as one finite map from an
identity and a key: players, offline users and entities of one id are one identity, blocks and what
is unknown are refused for what they are, and the size counts the identities that have a value. -/
theorem answer_as_one_finite_map (requests : List Request) :
    (requests.mapM Attributions.serve {}).1 = (requests.mapM Bindings.serve {}).1 :=
  represents_empty.replies_eq requests

/-- An identity counts until its last key is removed, whichever of its references is named. -/
example :
    let id : EntityId := ⟨⟨7⟩⟩
    let player : ActorRef := .player ⟨id, "alice"⟩
    let user : ActorRef := .offlineUser ⟨id, none⟩
    ([.put player "home" .unknown, .track user player, .remove user "home", .size, .untrack player,
      .size].mapM serve {}).1 =
      [.done, .done, .value (some .unknown), .count 1, .done, .count 0] := by
  rfl

end
end Attributions
end RegionAccess
