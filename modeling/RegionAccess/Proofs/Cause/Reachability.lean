import Mathlib.Data.List.Nodup
import Mathlib.Logic.Relation
import RegionAccess.Proofs.Cause.Expansion

/-! Where links and recorded causes lead from the triggers. A chain holds nobody else, and without
recorded causes it holds everyone that links lead to. -/
namespace RegionAccess
open Relation (ReflTransGen TransGen)

namespace Relations

/-- The link of one actor names another. -/
def Names (r : Relations) (a b : ActorRef) : Prop := b ∈ r.named a

/-- Links lead to the actor from some trigger. -/
def Reaches (r : Relations) (triggers : List ActorRef) (a : ActorRef) : Prop :=
  ∃ t ∈ triggers, ReflTransGen r.Names t a

/-- Among the references that links lead to, those of one key have one link. -/
def AgreesOn (r : Relations) (triggers : List ActorRef) : Prop :=
  ∀ a b, r.Reaches triggers a → r.Reaches triggers b → a.key? = b.key? → r.linkOf a = r.linkOf b

/-- There are finitely many ids, so in whatever way entities are linked, the links are relations. -/
theorem exists_link?_eq (link? : EntityRef → Option Link) : ∃ r : Relations, r.link? = link? := by
  have hall (id : EntityId) : id ∈ (List.finRange (2 ^ 128)).map fun n => ⟨⟨.ofFin n⟩⟩ :=
    List.mem_map.mpr ⟨id.uuid.value.toFin, List.mem_finRange _, rfl⟩
  exact ⟨⟨link?, _, fun e _ => hall e.id⟩, rfl⟩

theorem mem_table_of_link? {table : List (EntityId × Option Link)} {e : EntityRef} {link : Link}
    (h : (ofTable table).link? e = some link) : (e.id, some link) ∈ table := by
  obtain ⟨before, after, hsplit, -⟩ := List.lookup_eq_some_iff.mp (Option.join_eq_some_iff.mp h)
  have hmem : (e.id, some link) ∈ table.reverse :=
    hsplit ▸ List.mem_append_right _ List.mem_cons_self
  exact List.mem_reverse.mp hmem

variable {r : Relations} {a b : ActorRef}

theorem names_iff : r.Names a b ↔ ∃ link, r.linkOf a = some link ∧ b ∈ link.actors := by
  rw [Names, named]
  cases r.linkOf a <;> simp

theorem actsIndirectly_iff : r.actsIndirectly a = true ↔ ∃ x, r.linkOf a = some (.areaSource x) ∨
    r.linkOf a = some (.target x) ∨ r.linkOf a = some (.owner x) := by
  rw [actsIndirectly]
  cases r.linkOf a with
  | none => simp
  | some link => cases link <;> simp [Link.isIndirect]

theorem Names.exists_entity (h : r.Names a b) : ∃ e, a = .entity e := by
  obtain ⟨link, hlink, -⟩ := names_iff.mp h
  cases a with
  | entity e => exact ⟨e, rfl⟩
  | _ => cases hlink

/-- The unknown actor leads nowhere. -/
theorem ne_unknown_of_names (h : ReflTransGen r.Names a b) (hb : b ≠ .unknown) :
    a ≠ .unknown := by
  rcases h.cases_head with rfl | ⟨d, hd, -⟩
  · exact hb
  · obtain ⟨e, rfl⟩ := hd.exists_entity
    exact ActorRef.noConfusion

end Relations

/-- One step towards whoever is responsible: along the link of an entity, or to the recorded cause
of an actor that is not a block. -/
inductive LeadsTo (r : Relations) (s : Attributions) : ActorRef → ActorRef → Prop where
  | link {e : EntityRef} {link : Link} {b : ActorRef} :
      r.link? e = some link → b ∈ link.actors → LeadsTo r s (.entity e) b
  | record {a p : ActorRef} :
      (∀ b, a ≠ .block b) → s.parent? a = some p → LeadsTo r s a p

/-- Steps lead to the actor from some trigger that is not unknown. -/
def Involves (r : Relations) (s : Attributions) (triggers : List ActorRef) (a : ActorRef) : Prop :=
  ∃ t ∈ triggers, t ≠ .unknown ∧ ReflTransGen (LeadsTo r s) t a

section
variable {r : Relations} {s : Attributions} {c c' : Chain} {visits visits' : List Visit}
  {triggers : List ActorRef} {a b : ActorRef}

theorem Relations.Names.leadsTo (h : r.Names a b) : LeadsTo r s a b := by
  obtain ⟨e, rfl⟩ := h.exists_entity
  obtain ⟨link, hlink, hb⟩ := Relations.names_iff.mp h
  exact .link hlink hb

theorem leadsTo_of_names (h : ReflTransGen r.Names a b) : ReflTransGen (LeadsTo r s) a b :=
  ReflTransGen.mono (fun _ _ h => h.leadsTo) _ _ h

theorem LeadsTo.of_parent? (h : s.parent? a = some b) : LeadsTo r s a b := by
  refine .record (fun block hblock => ?_) h
  rw [hblock] at h
  cases h

theorem Relations.Reaches.involves (h : r.Reaches triggers a) (ha : a ≠ .unknown) :
    Involves r s triggers a := by
  obtain ⟨t, ht, hpath⟩ := h
  exact ⟨t, ht, Relations.ne_unknown_of_names hpath ha, leadsTo_of_names hpath⟩

theorem Relations.Reaches.tail (h : r.Reaches triggers a) (hb : r.Names a b) :
    r.Reaches triggers b := by
  obtain ⟨t, ht, hpath⟩ := h
  exact ⟨t, ht, hpath.tail hb⟩

theorem Involves.trans (h : Involves r s triggers a) (hb : ReflTransGen (LeadsTo r s) a b) :
    Involves r s triggers b := by
  obtain ⟨t, ht, hknown, hpath⟩ := h
  exact ⟨t, ht, hknown, hpath.trans hb⟩

theorem Attributions.leadsTo_ancestors {seen : List ActorKey} (h : b ∈ s.ancestors seen a) :
    ReflTransGen (LeadsTo r s) a b := by
  fun_induction ancestors s seen a with
  | case1 => cases h
  | case2 => cases h
  | case3 => cases h
  | case4 seen a p hp key hkey hseen ih =>
    have hstep : LeadsTo r s a p := .of_parent? hp
    rcases List.mem_cons.mp h with rfl | h
    · exact .single hstep
    · exact .head hstep (ih h)

end

/-- Visits are made of actors that links lead to, and steps of either sort lead to those in the
chain. -/
structure Chain.Traced (r : Relations) (s : Attributions) (triggers : List ActorRef) (c : Chain)
    (visits : List Visit) : Prop where
  keyed : c.Keyed visits
  reached : ∀ v ∈ visits, r.Reaches triggers v.actor
  involved : ∀ a ∈ c.actors, Involves r s triggers a

section
variable {r : Relations} {s : Attributions} {c c' : Chain} {visits visits' : List Visit}
  {triggers : List ActorRef} {a b : ActorRef} {key : ActorKey}

theorem Chain.Traced.advance (h : Advances r s c visits c' visits')
    (hc : c.Traced r s triggers visits) : c'.Traced r s triggers visits' := by
  refine ⟨hc.keyed.advance h, ?_, ?_⟩
  · cases h with
    | skipped => exact fun v hv => hc.reached v (List.mem_cons_of_mem _ hv)
    | closed => exact fun v hv => hc.reached v (List.mem_cons_of_mem _ hv)
    | @opened a rest key hkey hseen =>
      have ha : r.Reaches triggers a := hc.reached _ List.mem_cons_self
      intro v hv
      rcases List.mem_append.mp hv with hv | hv
      · obtain ⟨b, hb, rfl⟩ := List.mem_map.mp hv
        exact ha.tail hb
      · rcases List.mem_cons.mp hv with rfl | hv
        · exact ha
        · exact hc.reached v (List.mem_cons_of_mem _ hv)
  · cases h with
    | skipped => exact hc.involved
    | opened => exact hc.involved
    | @closed a rest =>
      have hknown : a ≠ .unknown := by
        rintro rfl
        exact hc.keyed.known (List.mem_append_right _ List.mem_cons_self)
      have ha : Involves r s triggers a := (hc.reached _ List.mem_cons_self).involves hknown
      intro b hb
      rw [append_actors, List.mem_append, List.mem_append, List.mem_reverse,
        List.mem_singleton] at hb
      rcases hb with hb | hb | rfl
      · exact hc.involved b hb
      · exact ha.trans (Attributions.leadsTo_ancestors hb)
      · exact ha

/-- What every visit keeps of a traced chain holds once all are made. -/
theorem traced_invariant {I : Chain → List Visit → Prop} (h : I {} (triggers.map .enter))
    (hstep : ∀ {c visits c' visits'}, Advances r s c visits c' visits' →
      c.Traced r s triggers visits → I c visits → I c' visits') :
    (resolution r s triggers).Traced r s triggers [] ∧ I (resolution r s triggers) [] := by
  refine resolution_invariant (I := fun c visits => c.Traced r s triggers visits ∧ I c visits)
    ⟨⟨keyed_enters triggers, ?_, fun a ha => nomatch ha⟩, h⟩ ?_
  · intro v hv
    obtain ⟨t, ht, rfl⟩ := List.mem_map.mp hv
    exact ⟨t, ht, .refl⟩
  · exact fun h hc => ⟨hc.1.advance h, hstep h hc.1 hc.2⟩

theorem involves_of_mem_resolve (ha : a ∈ (resolve r s triggers).actors) :
    Involves r s triggers a :=
  (traced_invariant (I := fun _ _ => True) trivial fun _ _ _ => trivial).1.involved a ha

/-- Chains are complete for their triggers, repeat no key and hold nothing unrelated, whatever
cycles there are among links and recorded causes. -/
theorem resolved_chain_traceable (r : Relations) (s : Attributions) (triggers : List ActorRef) :
    let cause := resolve r s triggers
    .unknown ∉ cause.actors ∧ cause.keys.Nodup ∧
    (∀ t ∈ triggers, ∀ key, t.key? = some key → key ∈ cause.keys) ∧
    ∀ a ∈ cause.actors, ∃ t ∈ triggers, t ≠ .unknown ∧ ReflTransGen (LeadsTo r s) t a :=
  ⟨unknown_notMem_resolve r s triggers, nodup_resolve_keys r s triggers,
    fun _ ht _ hkey => trigger_mem_resolve_keys ht hkey, fun _ ha => involves_of_mem_resolve ha⟩

end

/-- Among the references met on the way from the triggers, those of one key are equal. -/
def Distinct (r : Relations) (s : Attributions) (triggers : List ActorRef) : Prop :=
  ∀ a b, Involves r s triggers a → Involves r s triggers b → a.key? = b.key? → a = b

section
variable {r : Relations} {s : Attributions} {triggers members : List ActorRef} {a : ActorRef}

/-- Nobody is met but the triggers, those that links name and recorded causes. -/
theorem Involves.mem_of_closed (ht : triggers ⊆ members)
    (hlink : ∀ e link, r.link? e = some link → link.actors ⊆ members)
    (hrecord : s.parents ⊆ members) (h : Involves r s triggers a) : a ∈ members := by
  obtain ⟨t, htrigger, -, hpath⟩ := h
  induction hpath with
  | refl => exact ht htrigger
  | tail _ hstep ih =>
    cases hstep with
    | link he hb => exact hlink _ _ he hb
    | record _ hparent => exact hrecord (Attributions.mem_parents hparent)

namespace Distinct

theorem of_members (hkeys : (members.map (·.key?)).Nodup)
    (h : ∀ a, Involves r s triggers a → a ∈ members) : Distinct r s triggers :=
  fun a b ha hb => List.inj_on_of_nodup_map hkeys (h a ha) (h b hb)

/-- Where one key is one reference, it has one link. -/
theorem agreesOn (h : Distinct r s triggers) : r.AgreesOn triggers := by
  intro a b ha hb hkey
  rcases ActorRef.eq_unknown_or_ne hkey with ⟨rfl, rfl⟩ | ⟨hknown, hknown'⟩
  · rfl
  · rw [h a b (ha.involves hknown) (hb.involves hknown') hkey]

/-- Where one key is one reference, the triggers themselves are in the chain. -/
theorem mem_resolve (h : Distinct r s triggers) (ha : a ∈ triggers) (hknown : a ≠ .unknown) :
    a ∈ (resolve r s triggers).actors := by
  obtain ⟨key, hkey⟩ := ActorRef.exists_key hknown
  obtain ⟨b, hb, hbkey⟩ := Cause.mem_keys.mp (trigger_mem_resolve_keys ha hkey)
  have heq : a = b :=
    h a b ⟨a, ha, hknown, .refl⟩ (involves_of_mem_resolve hb) (hkey.trans hbkey.symm)
  exact heq ▸ hb

end Distinct
end

/-! A raid. A boat carries a zombie, someone unknown and a player, and the zombie is after a
skeleton. On record, the player let in the zombie, a creeper the skeleton and another player the
creeper. -/
namespace Raid

def place : Location := { world := ⟨⟨1⟩⟩, x := 0, y := 64, z := 0 }

def boat : EntityRef := { id := ⟨⟨9⟩⟩, kind := .boat, location := place }

def zombie : EntityRef := { id := ⟨⟨8⟩⟩, kind := .zombie, location := place }

def skeleton : EntityRef := { id := ⟨⟨7⟩⟩, kind := .skeleton, location := place }

def creeper : EntityRef := { id := ⟨⟨6⟩⟩, kind := .creeper, location := place }

def leader : PlayerRef := { id := ⟨⟨5⟩⟩, name := "leader" }

def rider : PlayerRef := { id := ⟨⟨4⟩⟩, name := "rider" }

def table : List (EntityId × Option Link) :=
  [(boat.id, some (.passengers [.entity zombie, .unknown, .player rider])),
    (zombie.id, some (.target (.entity skeleton)))]

/-- The skeleton is after the zombie, too. -/
def feud : List (EntityId × Option Link) :=
  (skeleton.id, some (.target (.entity zombie))) :: table

def caused (a : ActorRef) : Std.ExtTreeMap String ActorRef := .ofList [(Attributions.causeKey, a)]

def records : Attributions where
  bindings := .ofList [(zombie.id, caused (.player rider)), (skeleton.id, caused (.entity creeper)),
    (creeper.id, caused (.player leader))]

def everyone : List ActorRef :=
  [.entity boat, .entity zombie, .entity skeleton, .entity creeper, .player leader, .player rider,
    .unknown]

theorem parents_records : records.parents = [.player leader, .entity creeper, .player rider] := rfl

theorem distinct {r : Relations} {s : Attributions} {triggers : List ActorRef}
    (hr : ∀ e link, r.link? e = some link → (e.id, some link) ∈ feud) (hs : s.parents ⊆ everyone)
    (ht : triggers ⊆ everyone) : Distinct r s triggers := by
  have hkeys : (everyone.map (·.key?)).Nodup := by decide
  have hlink (e : EntityRef) (link : Link) (h : r.link? e = some link) :
      link.actors ⊆ everyone := by
    have hmem := hr e link h
    simp only [feud, table, List.mem_cons, Prod.mk.injEq, Option.some.injEq, List.not_mem_nil,
      or_false] at hmem
    rcases hmem with ⟨-, rfl⟩ | ⟨-, rfl⟩ | ⟨-, rfl⟩ <;> simp [everyone, Link.actors]
  exact .of_members hkeys fun _ => Involves.mem_of_closed ht hlink hs

end Raid
end RegionAccess
