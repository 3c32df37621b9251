import RegionAccess.Proofs.Index.Tables
import RegionAccess.Proofs.Session.Frames
import RegionAccess.Proofs.Session.Moments

/-! Errands for different actors commute. One actor's errand depends on how the registry is set up
and on what it holds of that actor, and leaves what it holds of everybody else. -/
namespace RegionAccess

/-- Something done for one actor. -/
inductive Errand where
  | enter (actor : LiveActor)
  | tick (actor : LiveActor)
  | resync (actor : LiveActor)
  | judgeMove (actor : LiveActor) (target : Location) (kind : MoveKind)
  | setBypassOff (actor : EntityId) (off : Bool)
  | remove (actor : EntityId)

def Errand.id : Errand → EntityId
  | .enter actor | .tick actor | .resync actor | .judgeMove actor _ _ => actor.id
  | .setBypassOff actor _ | .remove actor => actor

/-- What an errand comes to. -/
inductive Response where
  | done
  /-- Where the actor has to go back to, if the move was refused. -/
  | judged (back : Option Location)
  | switched (outcome : Except SessionError Unit)
  | removed (outcome : Except SessionError Session)

def Response.timeless : Response → Response
  | .removed outcome => .removed (outcome.map (·.timeless))
  | response => response

theorem ProfileCache.ext {c c' : ProfileCache} (hnames : c.names = c'.names)
    (hpending : c.pending = c'.pending) : c = c' := by
  cases c
  cases c'
  cases hnames
  cases hpending
  rfl

theorem ProfileCache.name?_insert (c : ProfileCache) (p : Profile) (id : EntityId) :
    (c.insert p).name? id = if p.id = id then some p.name else c.name? id := by
  simp [name?, insert, Std.ExtTreeMap.getElem?_insert]

/-- The changes of flags that are reported of an actor, in order. -/
def Notice.changesOf (id : EntityId) (notices : List Notice) : List Notice :=
  notices.filter fun
    | .flagChanged actor _ _ => actor = id
    | .remark _ => false

namespace Notice
variable {id other : EntityId} {sent more : List Notice}

theorem changesOf_append (id : EntityId) (sent more : List Notice) :
    changesOf id (sent ++ more) = changesOf id sent ++ changesOf id more := List.filter_append ..

theorem changesOf_eq_nil (h : ∀ n ∈ sent, n.Concerns other) (hother : other ≠ id) :
    changesOf id sent = [] := by
  refine List.filter_eq_nil_iff.mpr fun n hn => ?_
  cases n with
  | flagChanged actor flag allowed =>
    have hactor : actor = other := h _ hn
    simp [hactor, hother]
  | remark text => simp

/-- Nobody can tell in which order what concerns two actors was reported. -/
theorem changesOf_append_comm (hne : id ≠ other) (h : ∀ n ∈ sent, n.Concerns id)
    (h' : ∀ n ∈ more, n.Concerns other) (reader : EntityId) :
    changesOf reader (sent ++ more) = changesOf reader (more ++ sent) := by
  rw [changesOf_append, changesOf_append]
  by_cases hreader : id = reader
  · rw [changesOf_eq_nil h' (hreader ▸ hne.symm), List.append_nil, List.nil_append]
  · rw [changesOf_eq_nil h hreader, List.append_nil, List.nil_append]

end Notice

namespace Registry

/-- The registry with the origin for every moment in it. -/
def timeless (r : Registry) : Registry :=
  { r with sessions := r.sessions.map fun _ s => s.timeless }

/-- The registries are set up alike, and have the same of one actor but for moments. -/
structure AgreesAt (id : EntityId) (r r' : Registry) : Prop where
  config : r'.config = r.config
  worlds : r'.worlds = r.worlds
  blueprints : r'.blueprints = r.blueprints
  session : (r'.session? id).map (·.timeless) = (r.session? id).map (·.timeless)
  name : r'.profiles.name? id = r.profiles.name? id

/-- What is done for one actor leaves all others as they were. -/
structure LeavesOthers (id : EntityId) (r r' : Registry) : Prop where
  agrees : r.AgreesOutside (id = ·) r'
  names : ∀ other, id ≠ other → r'.profiles.name? other = r.profiles.name? other
  pending : r'.profiles.pending = r.profiles.pending

section
variable {σ : Type} [RegionIndex σ]

def serve (r : Registry) (errand : Errand) (now : Instant) : HostM σ (Response × Registry) :=
  match errand with
  | .enter actor => return (.done, ← r.enter actor now)
  | .tick actor => return (.done, ← r.tick [actor] now)
  | .resync actor => return (.done, ← r.resync [⟨actor, now⟩])
  | .judgeMove actor target kind => do
      let (back, r) ← r.judgeMove actor target kind now
      return (.judged back, r)
  | .setBypassOff actor off =>
      match r.setBypassOff actor off with
      | .ok r => pure (.switched (.ok ()), r)
      | .error e => pure (.switched (.error e), r)
  | .remove actor =>
      match r.remove actor with
      | .ok (s, r) => pure (.removed (.ok s), r)
      | .error e => pure (.removed (.error e), r)

/-- One errand after the other, each at its moment. -/
def serveBoth (r : Registry) (first second : Errand) (now later : Instant) :
    HostM σ ((Response × Response) × Registry) := do
  let (response, r) ← r.serve first now
  let (response', r) ← r.serve second later
  return ((response, response'), r)

end

namespace AgreesAt
variable {id : EntityId} {r r' r'' : Registry}

theorem symm (h : r.AgreesAt id r') : r'.AgreesAt id r :=
  ⟨h.config.symm, h.worlds.symm, h.blueprints.symm, h.session.symm, h.name.symm⟩

theorem trans (h : r.AgreesAt id r') (h' : r'.AgreesAt id r'') : r.AgreesAt id r'' :=
  ⟨h'.config.trans h.config, h'.worlds.trans h.worlds, h'.blueprints.trans h.blueprints,
    h'.session.trans h.session, h'.name.trans h.name⟩

theorem store (h : r.AgreesAt id r') {s s' : Session} (hs : s.timeless = s'.timeless) :
    (r.store id s).AgreesAt id (r'.store id s') where
  config := h.config
  worlds := h.worlds
  blueprints := h.blueprints
  session := by
    rw [session?_store, session?_store, if_pos rfl, if_pos rfl, Option.map_some, Option.map_some,
      hs]
  name := h.name

theorem erase (h : r.AgreesAt id r') :
    ({ r with sessions := r.sessions.erase id } : Registry).AgreesAt id
      { r' with sessions := r'.sessions.erase id } where
  config := h.config
  worlds := h.worlds
  blueprints := h.blueprints
  session := by rw [session?_erase, session?_erase, if_pos rfl, if_pos rfl]
  name := h.name

/-- Either neither has a session of the actor, or both have one, the same but for moments. -/
theorem cases_session (h : r.AgreesAt id r') :
    (r.session? id = none ∧ r'.session? id = none) ∨
      ∃ s s', r.session? id = some s ∧ r'.session? id = some s' ∧ s.timeless = s'.timeless := by
  have hsession := h.session
  cases hs : r.session? id with
  | none =>
    rw [hs, Option.map_none, Option.map_eq_none_iff] at hsession
    exact .inl ⟨rfl, hsession⟩
  | some s =>
    rw [hs, Option.map_some, Option.map_eq_some_iff] at hsession
    obtain ⟨s', hs', ht⟩ := hsession
    exact .inr ⟨s, s', rfl, hs', ht.symm⟩

theorem sessionOf (h : r.AgreesAt id r') (now now' : Instant) :
    (r.sessionOf id now).timeless = (r'.sessionOf id now').timeless := by
  unfold Registry.sessionOf
  rw [h.blueprints]
  obtain ⟨hs, hs'⟩ | ⟨s, s', hs, hs', ht⟩ := h.cases_session <;> rw [hs, hs']
  · rfl
  · exact ht

theorem hasBypass (h : r.AgreesAt id r') {i : Identity} (hi : i.id = id) (world : WorldId) :
    r'.hasBypass i world = r.hasBypass i world := by
  have hoff := congrArg (Option.any (·.bypassOff)) h.session
  rw [Option.any_map, Option.any_map] at hoff
  rw [Registry.hasBypass, Registry.hasBypass, h.config, h.worlds, hi]
  exact congrArg (fun off => _ || (!off && _)) hoff

/-- Registries that hold the same of everybody are the same but for moments. -/
theorem timeless_eq (h : ∀ id, r.AgreesAt id r')
    (hpending : r'.profiles.pending = r.profiles.pending) : r'.timeless = r.timeless := by
  have hsetup := h ⟨⟨0⟩⟩
  have hsessions :
      (r'.sessions.map fun _ s => s.timeless) = r.sessions.map fun _ s => s.timeless := by
    refine Std.ExtTreeMap.ext_getElem? fun id => ?_
    rw [Std.ExtTreeMap.getElem?_map, Std.ExtTreeMap.getElem?_map]
    exact (h id).session
  have hnames : r'.profiles.names = r.profiles.names :=
    Std.ExtTreeMap.ext_getElem? fun id => (h id).name
  rw [timeless, timeless, hsessions, hsetup.config, hsetup.worlds, hsetup.blueprints,
    ProfileCache.ext hnames hpending]

end AgreesAt

namespace LeavesOthers
variable {id : EntityId} {r r' : Registry}

theorem refl (r : Registry) : r.LeavesOthers id r := ⟨.refl r, fun _ _ => rfl, rfl⟩

theorem store (r : Registry) (id : EntityId) (s : Session) : r.LeavesOthers id (r.store id s) :=
  ⟨.store rfl r s, fun _ _ => rfl, rfl⟩

theorem erase (r : Registry) (id : EntityId) :
    r.LeavesOthers id { r with sessions := r.sessions.erase id } :=
  ⟨.erase r id, fun _ _ => rfl, rfl⟩

theorem agreesAt (h : r.LeavesOthers id r') {other : EntityId} (hother : id ≠ other) :
    r.AgreesAt other r' where
  config := h.agrees.config
  worlds := h.agrees.worlds
  blueprints := h.agrees.blueprints
  session := by rw [h.agrees.sessions other hother]
  name := h.names other hother

end LeavesOthers

section
variable {σ : Type} [RegionIndex σ] (r : Registry)

theorem tick_singleton (actor : LiveActor) (now : Instant) :
    (r.tick [actor] now : HostM σ Registry) = r.tickActor actor now := by
  simp [tick]

theorem resync_singleton (turn : Turn) :
    (r.resync [turn] : HostM σ Registry) = r.resyncActor turn.actor turn.moment := by
  simp [resync]

theorem enter_leavesOthers (actor : LiveActor) (now : Instant) :
    Yields (r.enter actor now : HostM σ Registry) (r.LeavesOthers actor.id) := by
  refine Yields.bind Yields.any fun s _ => Yields.pure ⟨?_, fun other hother => ?_, rfl⟩
  · exact (AgreesOutside.store rfl r s).trans ⟨rfl, rfl, rfl, fun _ _ => rfl⟩
  · exact (r.profiles.name?_insert ⟨actor.id, actor.name⟩ other).trans (if_neg hother)

theorem tickActor_leavesOthers (actor : LiveActor) (now : Instant) :
    Yields (r.tickActor actor now : HostM σ Registry) (r.LeavesOthers actor.id) := by
  unfold tickActor
  split
  · exact Yields.pure (.refl r)
  · exact Yields.bind Yields.any fun _ _ => Yields.bind Yields.any fun s _ =>
      Yields.pure (.store r actor.id s)

theorem resyncActor_leavesOthers (actor : LiveActor) (now : Instant) :
    Yields (r.resyncActor actor now : HostM σ Registry) (r.LeavesOthers actor.id) := by
  unfold resyncActor
  split
  · exact Yields.pure (.refl r)
  · split
    · exact Yields.pure (.refl r)
    · exact Yields.bind Yields.any fun s _ => Yields.pure (.store r actor.id s)

theorem judgeMove_leavesOthers (actor : LiveActor) (target : Location) (kind : MoveKind)
    (now : Instant) :
    Yields (r.judgeMove actor target kind now : HostM σ _) fun out =>
      r.LeavesOthers actor.id out.2 := by
  unfold judgeMove
  split
  · exact Yields.pure (.store r actor.id _)
  · exact Yields.bind Yields.any fun _ _ => Yields.bind Yields.any fun out _ =>
      Yields.pure (.store r actor.id out.2)

/-- Errands leave everybody alone but the actor they are for. -/
theorem serve_leavesOthers (errand : Errand) (now : Instant) :
    Yields (r.serve errand now : HostM σ _) fun out => r.LeavesOthers errand.id out.2 := by
  cases errand with
  | enter actor => exact Yields.bind (r.enter_leavesOthers actor now) fun _ h => Yields.pure h
  | tick actor =>
    refine Yields.bind ?_ fun _ h => Yields.pure h
    rw [tick_singleton]
    exact r.tickActor_leavesOthers actor now
  | resync actor =>
    refine Yields.bind ?_ fun _ h => Yields.pure h
    rw [resync_singleton]
    exact r.resyncActor_leavesOthers actor now
  | judgeMove actor target kind =>
    exact Yields.bind (r.judgeMove_leavesOthers actor target kind now) fun _ h => Yields.pure h
  | setBypassOff actor off =>
    dsimp only [serve, setBypassOff]
    cases r.session? actor with
    | none => exact fun _ => .refl r
    | some s => exact fun _ => .store r actor _
  | remove actor =>
    dsimp only [serve, remove]
    cases r.session? actor with
    | none => exact fun _ => .refl r
    | some s => exact fun _ => .erase r actor

end

end Registry

namespace FixedAnswers
variable {σ : Type} [RegionIndex σ] (fixed : FixedAnswers σ) {r r' : Registry}
include fixed

theorem enter_alike (actor : LiveActor) (h : r.AgreesAt actor.id r') (now now' : Instant) :
    Alike actor.id (·.AgreesAt actor.id ·) (r.enter actor now : HostM σ Registry)
      (r'.enter actor now') := by
  refine (fixed.anchor_alike (h.sessionOf now now') actor now now').bind fun s s' hs => .pure ?_
  have hstore := h.store hs
  refine ⟨hstore.config, hstore.worlds, hstore.blueprints, hstore.session, ?_⟩
  have hname (c : ProfileCache) :
      (c.insert ⟨actor.id, actor.name⟩).name? actor.id = some actor.name :=
    (c.name?_insert _ _).trans (if_pos rfl)
  exact (hname r'.profiles).trans (hname r.profiles).symm

theorem tickActor_alike (actor : LiveActor) (h : r.AgreesAt actor.id r') (now now' : Instant) :
    Alike actor.id (·.AgreesAt actor.id ·) (r.tickActor actor now : HostM σ Registry)
      (r'.tickActor actor now') := by
  unfold Registry.tickActor
  rw [h.name]
  refine .ite _ (.pure h) ?_
  refine (fixed.ensureActive_alike (h.sessionOf now now') actor now now').bind fun s s' hs => ?_
  refine (fixed.sessionTick_alike hs actor _ now now').bind fun t t' ht => ?_
  exact .pure (h.store ht)

theorem resyncActor_alike (actor : LiveActor) (h : r.AgreesAt actor.id r') (now now' : Instant) :
    Alike actor.id (·.AgreesAt actor.id ·) (r.resyncActor actor now : HostM σ Registry)
      (r'.resyncActor actor now') := by
  unfold Registry.resyncActor
  refine .ite _ (.pure h) ?_
  obtain ⟨hs, hs'⟩ | ⟨s, s', hs, hs', ht⟩ := h.cases_session <;> rw [hs, hs']
  · exact .pure h
  · exact (fixed.anchor_alike ht actor now now').bind fun t t' ht => .pure (h.store ht)

theorem registryMove_alike (actor : LiveActor) (h : r.AgreesAt actor.id r') (target : Location)
    (kind : MoveKind) (now now' : Instant) :
    Alike actor.id (fun out out' => out.1 = out'.1 ∧ out.2.AgreesAt actor.id out'.2)
      (r.judgeMove actor target kind now : HostM σ _) (r'.judgeMove actor target kind now') := by
  have hs := h.sessionOf now now'
  unfold Registry.judgeMove
  rw [h.hasBypass rfl]
  refine .ite _ (.pure ⟨rfl, h.store (congrArg (·.movedBlindly target) hs)⟩) ?_
  refine (fixed.ensureActive_alike hs actor now now').bind fun s s' hs => ?_
  refine (fixed.judgeMove_alike hs actor target kind now now').bind fun out out' hout => ?_
  exact .pure ⟨hout.1, h.store hout.2⟩

/-- An errand depends on what the registry holds of its actor, and on nothing it holds of others. -/
theorem serve_alike (errand : Errand) (h : r.AgreesAt errand.id r') (now now' : Instant) :
    Alike errand.id
      (fun out out' => out.1.timeless = out'.1.timeless ∧ out.2.AgreesAt errand.id out'.2)
      (r.serve errand now : HostM σ _) (r'.serve errand now') := by
  cases errand with
  | enter actor =>
    exact (fixed.enter_alike actor h now now').bind fun _ _ hr => .pure ⟨rfl, hr⟩
  | tick actor =>
    dsimp only [Registry.serve]
    rw [Registry.tick_singleton, Registry.tick_singleton]
    exact (fixed.tickActor_alike actor h now now').bind fun _ _ hr => .pure ⟨rfl, hr⟩
  | resync actor =>
    dsimp only [Registry.serve]
    rw [Registry.resync_singleton, Registry.resync_singleton]
    exact (fixed.resyncActor_alike actor h now now').bind fun _ _ hr => .pure ⟨rfl, hr⟩
  | judgeMove actor target kind =>
    refine (fixed.registryMove_alike actor h target kind now now').bind ?_
    rintro ⟨back, t⟩ ⟨_, t'⟩ ⟨rfl, ht⟩
    exact .pure ⟨rfl, ht⟩
  | setBypassOff actor off =>
    change r.AgreesAt actor r' at h
    dsimp only [Registry.serve, Registry.setBypassOff]
    obtain ⟨hs, hs'⟩ | ⟨s, s', hs, hs', ht⟩ := h.cases_session <;> rw [hs, hs']
    · exact .pure ⟨rfl, h⟩
    · exact .pure ⟨rfl, h.store (congrArg (fun t : Session => { t with bypassOff := off }) ht)⟩
  | remove actor =>
    change r.AgreesAt actor r' at h
    dsimp only [Registry.serve, Registry.remove]
    obtain ⟨hs, hs'⟩ | ⟨s, s', hs, hs', ht⟩ := h.cases_session <;> rw [hs, hs']
    · exact .pure ⟨rfl, h⟩
    · refine .pure ⟨?_, h.erase⟩
      exact congrArg (fun t : Session => Response.removed (.ok { t with phase := .removed })) ht

/-- Errands for different actors come to the same in either order, whenever they are done: the same
responses, the same registry and the same changes of flags reported of everybody. -/
theorem errands_commute {first second : Errand} (hne : first.id ≠ second.id) (r : Registry)
    (host : Host σ) (now later now' later' : Instant) :
    let inOrder := r.serveBoth first second now later host
    let swapped := r.serveBoth second first now' later' host
    inOrder.1.1.1.timeless = swapped.1.1.2.timeless ∧
    inOrder.1.1.2.timeless = swapped.1.1.1.timeless ∧
    inOrder.1.2.timeless = swapped.1.2.timeless ∧
    ∀ id, Notice.changesOf id inOrder.2.notices = Notice.changesOf id swapped.2.notices := by
  intro inOrder swapped
  let one := r.serve first now host
  let two := one.1.2.serve second later one.2
  let one' := r.serve second now' host
  let two' := one'.1.2.serve first later' one'.2
  have hone : r.LeavesOthers first.id one.1.2 := r.serve_leavesOthers first now host
  have htwo : one.1.2.LeavesOthers second.id two.1.2 :=
    one.1.2.serve_leavesOthers second later one.2
  have hone' : r.LeavesOthers second.id one'.1.2 := r.serve_leavesOthers second now' host
  have htwo' : one'.1.2.LeavesOthers first.id two'.1.2 :=
    one'.1.2.serve_leavesOthers first later' one'.2
  -- Each errand finds of its actor what it would find if it came first.
  obtain ⟨⟨hfirst, hfirstAt⟩, sent, hconcerns, hsent, hsent'⟩ :=
    (fixed.serve_alike first (hone'.agreesAt hne.symm) now later').runs host one'.2
  obtain ⟨⟨hsecond, hsecondAt⟩, more, hconcerns', hmore, hmore'⟩ :=
    (fixed.serve_alike second (hone.agreesAt hne).symm later now').runs one.2 host
  have hagrees (id : EntityId) : two'.1.2.AgreesAt id two.1.2 := by
    by_cases hid : first.id = id
    · subst hid
      exact hfirstAt.symm.trans (htwo.agreesAt hne.symm)
    · have hleft := htwo'.agreesAt hid
      by_cases hid' : second.id = id
      · subst hid'
        exact hleft.symm.trans hsecondAt.symm
      · have hcommon := (hone'.agreesAt hid').symm.trans (hone.agreesAt hid)
        exact hleft.symm.trans (hcommon.trans (htwo.agreesAt hid'))
  refine ⟨hfirst, hsecond, Registry.AgreesAt.timeless_eq hagrees ?_, fun id => ?_⟩
  · exact (htwo.pending.trans hone.pending).trans (htwo'.pending.trans hone'.pending).symm
  · have hinOrder : inOrder.2.notices = host.notices ++ (sent ++ more) := by
      rw [← List.append_assoc, ← hsent]
      exact hmore
    have hswapped : swapped.2.notices = host.notices ++ (more ++ sent) := by
      rw [← List.append_assoc, ← hmore']
      exact hsent'
    rw [hinOrder, hswapped, Notice.changesOf_append id host.notices,
      Notice.changesOf_append id host.notices,
      Notice.changesOf_append_comm hne hconcerns hconcerns']

end FixedAnswers

/-- A visitor enters while a guest walks: which of them is first can be told neither from the
registry nor from what is reported of the guest. -/
theorem errands_commute_in_town :
    let host : Host (Served Town.steadyTables) := { index := {} }
    let guest : LiveActor := { Town.visitor with id := ⟨⟨8⟩⟩ }
    let r := ({} : Registry).register (.watch .build)
    let enter : Errand := .enter Town.visitor
    let walk : Errand := .judgeMove guest (Town.place 9) .walk
    let inOrder := r.serveBoth enter walk ⟨0⟩ ⟨1⟩ host
    let swapped := r.serveBoth walk enter ⟨2⟩ ⟨3⟩ host
    enter.id ≠ walk.id ∧ inOrder.1.2.timeless = swapped.1.2.timeless ∧
    Notice.changesOf guest.id inOrder.2.notices = [.flagChanged guest.id .build true] ∧
    Notice.changesOf guest.id swapped.2.notices = [.flagChanged guest.id .build true] := by
  intro host guest r enter walk inOrder swapped
  have hne : enter.id ≠ walk.id := by decide
  obtain ⟨-, -, hregistry, hchanges⟩ :=
    (Town.steadyTables.fixed fun _ => rfl).errands_commute hne r host ⟨0⟩ ⟨1⟩ ⟨2⟩ ⟨3⟩
  have hreported : Notice.changesOf guest.id inOrder.2.notices =
      [.flagChanged guest.id .build true] := by decide +kernel
  exact ⟨hne, hregistry, hreported, (hchanges guest.id).symm.trans hreported⟩

end RegionAccess
