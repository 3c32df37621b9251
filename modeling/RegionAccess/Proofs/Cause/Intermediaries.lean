import RegionAccess.Proofs.Cause.Reachability
import RegionAccess.Proofs.Event.Effect

/-! Acting through others. A player behind a path of entities, each the first that the one before
it names, is the root of whatever the path sets off, and is judged as if acting alone. -/
namespace RegionAccess

/-- A path of recorded causes from an actor to a player, those on it after the actor. All but the
last have a recorded cause themselves, so none is a block or unknown. -/
inductive RecordedPath (s : Attributions) (p : PlayerRef) : ActorRef → List ActorRef → Prop where
  | last {a : ActorRef} : s.parent? a = some (.player p) → RecordedPath s p a [.player p]
  | next {a b : ActorRef} {path : List ActorRef} :
      s.parent? a = some b → RecordedPath s p b path → RecordedPath s p a (b :: path)

/-- A path of responsibility from an entity to a player, those on it after the entity: along links
to the one actor they name or to the first passenger, and from an entity without a link along
recorded causes. -/
inductive ActsFor (r : Relations) (s : Attributions) (p : PlayerRef) :
    EntityRef → List ActorRef → Prop where
  | linked {e : EntityRef} :
      (r.named (.entity e)).head? = some (.player p) → ActsFor r s p e [.player p]
  | recorded {e : EntityRef} {path : List ActorRef} :
      r.link? e = none → RecordedPath s p (.entity e) path → ActsFor r s p e path
  | through {e next : EntityRef} {path : List ActorRef} :
      (r.named (.entity e)).head? = some (.entity next) → ActsFor r s p next path →
      ActsFor r s p e (.entity next :: path)

section
variable {r : Relations} {s : Attributions} {p : PlayerRef} {a : ActorRef} {e : EntityRef}
  {path : List ActorRef} {c : Chain} {seen : List ActorKey}

theorem Attributions.key?_of_parent? {b : ActorRef} (h : s.parent? a = some b) :
    ∃ key, a.key? = some key := by
  cases a with
  | block => cases h
  | unknown => cases h
  | _ => exact ⟨_, rfl⟩

namespace RecordedPath

theorem exists_key (h : RecordedPath s p a path) : ∃ key, a.key? = some key := by
  cases h with
  | last hparent => exact Attributions.key?_of_parent? hparent
  | next hparent => exact Attributions.key?_of_parent? hparent

theorem exists_front (h : RecordedPath s p a path) : ∃ front, path = front ++ [.player p] := by
  induction h with
  | last => exact ⟨[], rfl⟩
  | @next a b path hparent hpath ih =>
    obtain ⟨front, rfl⟩ := ih
    exact ⟨b :: front, rfl⟩

/-- Along a path of fresh keys the ancestors are the path, where the player ends it. -/
theorem ancestors_eq (h : RecordedPath s p a path) (hp : s.parent? (.player p) = none)
    (hkeys : (path.filterMap (·.key?) ++ seen).Nodup) : s.ancestors seen a = path := by
  induction h generalizing seen with
  | last hparent =>
    have hfresh : .id p.id ∉ seen := (List.nodup_cons.mp hkeys).1
    rw [Attributions.ancestors_of_fresh hparent rfl hfresh, Attributions.ancestors_of_none hp]
  | @next a b path hparent hpath ih =>
    obtain ⟨key, hkey⟩ : ∃ key, b.key? = some key := hpath.exists_key
    rw [List.filterMap_cons_some hkey] at hkeys
    have hfresh : key ∉ path.filterMap (·.key?) ++ seen := (List.nodup_cons.mp hkeys).1
    have hrest : (path.filterMap (·.key?) ++ key :: seen).Nodup :=
      List.perm_middle.nodup_iff.mpr hkeys
    rw [Attributions.ancestors_of_fresh hparent hkey fun h => hfresh (List.mem_append_right _ h),
      ih hrest]

end RecordedPath

/-- An actor whose link names nobody enters the chain at once, led by its recorded ancestors. -/
theorem unlinked_first {key : ActorKey} (hunlinked : r.named a = []) (hkey : a.key? = some key)
    (hfresh : key ∉ c.seen) (hc : c.actors = []) (rest : List Visit) :
    (s.ancestors (key :: c.seen) a).reverse ++ [a] <+:
      (expand r s c (.enter a :: rest)).actors := by
  have hplaced : ((c.opened r a key).append s a).actors =
      (s.ancestors (key :: c.seen) a).reverse ++ [a] := by
    rw [Chain.append_actors, Chain.opened_actors, Chain.opened_seen, hc, List.nil_append]
  rw [expand_eq_of_advances (.opened hkey hfresh), hunlinked, List.map_nil, List.nil_append,
    expand_eq_of_advances .closed, ← hplaced]
  exact actors_prefix_expand r s _ rest

theorem unrecorded_player_first (hp : s.parent? (.player p) = none) (hfresh : .id p.id ∉ c.seen)
    (hc : c.actors = []) (rest : List Visit) :
    [.player p] <+: (expand r s c (.enter (.player p) :: rest)).actors := by
  have hfirst := unlinked_first (r := r) (s := s) (a := .player p) rfl rfl hfresh hc rest
  rwa [Attributions.ancestors_of_none hp] at hfirst

/-- The first key of a path is fresh, and those after it are once it is taken. -/
theorem fresh_of_nodup (h : ((.entity e :: path).filterMap ActorRef.key? ++ seen).Nodup) :
    .id e.id ∉ seen ∧ (path.filterMap ActorRef.key? ++ .id e.id :: seen).Nodup := by
  have hperm := List.perm_middle.nodup_iff.mpr h
  exact ⟨fun hseen => (List.nodup_cons.mp h).1 (List.mem_append_right _ hseen), hperm⟩

/-- Where all keys on the path are fresh, the player at its end enters the chain first. -/
theorem ActsFor.player_first (h : ActsFor r s p e path) (hp : s.parent? (.player p) = none)
    (hkeys : ((.entity e :: path).filterMap ActorRef.key? ++ c.seen).Nodup)
    (hc : c.actors = []) (rest : List Visit) :
    [.player p] <+: (expand r s c (.enter (.entity e) :: rest)).actors := by
  -- Whatever else triggered the change waits: the entity is opened, and what is first among those
  -- it names is next.
  induction h generalizing c rest with
  | @linked e hfirst =>
    obtain ⟨others, hnamed⟩ := List.head?_eq_some_iff.mp hfirst
    obtain ⟨hfresh, hnext⟩ := fresh_of_nodup hkeys
    rw [expand_eq_of_advances (.opened rfl hfresh), hnamed]
    exact unrecorded_player_first (c := c.opened r (.entity e) _) hp
      (List.nodup_cons.mp hnext).1 hc _
  | @through e next path hfirst hpath ih =>
    obtain ⟨others, hnamed⟩ := List.head?_eq_some_iff.mp hfirst
    obtain ⟨hfresh, hnext⟩ := fresh_of_nodup hkeys
    rw [expand_eq_of_advances (.opened rfl hfresh), hnamed]
    exact ih (c := c.opened r (.entity e) _) hnext hc _
  | @recorded e path hlink hpath =>
    obtain ⟨hfresh, hnext⟩ := fresh_of_nodup hkeys
    obtain ⟨front, rfl⟩ := hpath.exists_front
    have hunlinked : r.named (.entity e) = [] := Relations.named_of_unlinked hlink
    have hfirst := unlinked_first (s := s) hunlinked rfl hfresh hc rest
    rw [hpath.ancestors_eq hp hnext, List.reverse_append] at hfirst
    exact List.IsPrefix.trans ⟨front.reverse ++ [.entity e], rfl⟩ hfirst

end

namespace Cause
variable {c d : Cause}

theorem root?_eq_of_prefix {a : ActorRef} (h : [a] <+: c.actors) : c.root? = some a := by
  obtain ⟨rest, hactors⟩ := h
  rw [root?, ← hactors]
  rfl

/-- A player is no carrier. -/
theorem isKnown_of_root?_eq_player {p : PlayerRef} (h : c.root? = some (.player p)) :
    c.isKnown = true := by
  obtain ⟨rest, hactors⟩ := List.head?_eq_some_iff.mp h
  rw [isKnown, hactors]
  rfl

/-- Of a cause, only its root and whether it is known decide what the cause may build. -/
structure JudgedAs (c d : Cause) : Prop where
  root : c.root? = d.root?
  known : c.isKnown = d.isKnown

namespace JudgedAs

theorem subject_eq (h : c.JudgedAs d) (platform : Platform) (worlds : WorldPolicies) :
    c.subject platform worlds = d.subject platform worlds := by
  rw [subject, subject, h.root, h.known]

theorem rootBypasses_eq (h : c.JudgedAs d) (platform : Platform) (registry : Registry)
    (world : WorldId) :
    c.rootBypasses platform registry world = d.rootBypasses platform registry world := by
  rw [rootBypasses, rootBypasses, h.root]

end JudgedAs
end Cause

/-- Whatever the two indexes were asked before, they leave a change the same for causes that are
judged alike. -/
theorem FixedAnswers.protect_eq_of_judgedAs {σ : Type} [RegionIndex σ] (fixed : FixedAnswers σ)
    {c d : Cause} (h : c.JudgedAs d) (platform : Platform) (worlds : WorldPolicies)
    (registry : Registry) (change : BlockChange) (before before' : σ) :
    let out := ({ change with cause := c }.protect platform worlds registry before).1
    let out' := ({ change with cause := d }.protect platform worlds registry before').1
    out.locations = out'.locations ∧ out.isCancelled = out'.isCancelled := by
  intro out out'
  have hout := fixed.yields_protect { change with cause := c } platform worlds registry before
  have hout' := fixed.yields_protect { change with cause := d } platform worlds registry before'
  have hexempt : { change with cause := c }.isExempt worlds =
      { change with cause := d }.isExempt worlds := rfl
  rw [hexempt, h.rootBypasses_eq, h.subject_eq] at hout
  simp only [out, out', hout, hout']
  split <;> exact ⟨rfl, rfl⟩

/-- Whoever acts through others is judged as if acting alone, whatever else triggered the change:
the chain is known and has the player as its root, and where answers are fixed the build flag
leaves the same locations and cancels the same changes. -/
theorem ActsFor.judged_as_player {r : Relations} {s : Attributions} {p : PlayerRef} {e : EntityRef}
    {path : List ActorRef} (h : ActsFor r s p e path)
    (hkeys : ((.entity e :: path).filterMap ActorRef.key?).Nodup)
    (hp : s.parent? (.player p) = none) (ts : List ActorRef) :
    let acted := resolve r s (.entity e :: ts)
    let alone := resolve r s [.player p]
    acted.isKnown = true ∧ acted.root? = some (.player p) ∧
    ∀ {σ : Type} [RegionIndex σ], FixedAnswers σ → ∀ platform worlds registry
      (change : BlockChange) (before before' : σ),
      let out := ({ change with cause := acted }.protect platform worlds registry before).1
      let out' := ({ change with cause := alone }.protect platform worlds registry before').1
      out.locations = out'.locations ∧ out.isCancelled = out'.isCancelled := by
  intro acted alone
  have hacted : acted.root? = some (.player p) := by
    apply Cause.root?_eq_of_prefix
    exact h.player_first (c := {}) hp (by rwa [List.append_nil]) rfl (ts.map .enter)
  have halone : alone.root? = some (.player p) :=
    Cause.root?_eq_of_prefix (unrecorded_player_first (c := {}) hp List.not_mem_nil rfl [])
  have hjudged : acted.JudgedAs alone := by
    refine ⟨hacted.trans halone.symm, ?_⟩
    rw [Cause.isKnown_of_root?_eq_player hacted, Cause.isKnown_of_root?_eq_player halone]
  exact ⟨Cause.isKnown_of_root?_eq_player hacted, hacted,
    fun fixed => fixed.protect_eq_of_judgedAs hjudged⟩

/-- The leader of the raid is judged for whatever the boat does. -/
theorem judged_as_leader_of_raid :
    let r : Relations := .ofTable Raid.table
    let path : List ActorRef :=
      [.entity Raid.zombie, .entity Raid.skeleton, .entity Raid.creeper, .player Raid.leader]
    let acted := resolve r Raid.records [.entity Raid.boat, .unknown, .player Raid.rider]
    let alone := resolve r Raid.records [.player Raid.leader]
    let s : Served Town.steadyTables := {}
    let out := ({ Town.blast with cause := acted }.protect Town.platform {} {} s).1
    let out' := ({ Town.blast with cause := alone }.protect Town.platform {} {} s).1
    ActsFor r Raid.records Raid.leader Raid.boat path ∧
      ((.entity Raid.boat :: path).filterMap ActorRef.key?).Nodup ∧
      Raid.records.parent? (.player Raid.leader) = none ∧
      acted.isKnown = true ∧ acted.root? = some (.player Raid.leader) ∧
      out.locations = out'.locations ∧ out.isCancelled = out'.isCancelled := by
  intro r path acted alone s out out'
  have hpath : ActsFor r Raid.records Raid.leader Raid.boat path :=
    .through rfl <| .through rfl <| .recorded rfl <| .next rfl <| .last rfl
  have hkeys : ((.entity Raid.boat :: path).filterMap ActorRef.key?).Nodup := by decide
  have hleader : Raid.records.parent? (.player Raid.leader) = none := rfl
  obtain ⟨hknown, hroot, hsame⟩ :=
    hpath.judged_as_player hkeys hleader [.unknown, .player Raid.rider]
  exact ⟨hpath, hkeys, hleader, hknown, hroot,
    hsame (Town.steadyTables.fixed fun _ => rfl) Town.platform {} {} Town.blast s s⟩

end RegionAccess
