import RegionAccess.Proofs.Engine.Happenings
import RegionAccess.Proofs.Index.Tables

/-! Scheduled work, counted. What an engine does over a run is what is on an agenda that leaves
nothing to schedules: there a server tick of some number comes with those chores whose interval
divides the number. -/
namespace RegionAccess
open Recording

/-- One thing done with an engine, be it due or not. -/
inductive Deed (σ : Type) where
  /-- A server tick is counted. -/
  | count
  | work (chore : Chore) (actors : List LiveActor) (now later : Instant)
  | other (happening : Happening σ)

section
variable {σ : Type}

def Deed.other? : Deed σ → Option (Happening σ)
  | .other h => some h
  | .count | .work _ _ _ _ => none

/-- The deeds that a happening comes to, after so many server ticks. -/
def Happening.deeds (config : Config) (ticks : Nat) : Happening σ → List (Deed σ)
  | .event (.tick actors now later) =>
      .count :: (Chore.all.filter (·.interval config ∣ ticks + 1)).map (.work · actors now later)
  | h => [.other h]

theorem Happening.deeds_of_not_isTick {h : Happening σ} (hh : h.isTick = false) (config : Config)
    (ticks : Nat) : h.deeds config ticks = [.other h] := by
  cases h with
  | event e =>
    cases e with
    | tick actors now later => cases hh
    | _ => rfl
  | _ => rfl

/-- The deeds that happenings come to one after the other, after so many server ticks. -/
def agenda (config : Config) : Nat → List (Happening σ) → List (Deed σ)
  | _, [] => []
  | ticks, h :: happenings =>
      h.deeds config ticks ++ agenda config (ticks + h.ticks) happenings

/-- The numbers of the server ticks at which a chore is done, after so many others. -/
def Chore.times (chore : Chore) : Nat → List (Deed σ) → List Nat
  | _, [] => []
  | tick, .count :: deeds => chore.times (tick + 1) deeds
  | tick, .work done _ _ _ :: deeds =>
      if done = chore then tick :: chore.times tick deeds else chore.times tick deeds
  | tick, .other _ :: deeds => chore.times tick deeds

/-- The positive multiples of an interval up to a number, of which zero has none. -/
def multiplesUpTo (interval n : Nat) : List Nat := (List.range' 1 n).filter (interval ∣ ·)

theorem length_multiplesUpTo (interval n : Nat) :
    (multiplesUpTo interval n).length = n / interval := by
  unfold multiplesUpTo
  induction n with
  | zero => exact (Nat.zero_div interval).symm
  | succ n ih =>
    rw [List.range'_1_concat, List.filter_append, List.length_append, ih, Nat.succ_div,
      Nat.add_comm 1 n]
    by_cases h : interval ∣ n + 1 <;> simp [h]

namespace Chore
variable (chore : Chore)

theorem times_work (chores : List Chore) (actors : List LiveActor) (now later : Instant)
    (tick : Nat) (deeds : List (Deed σ)) :
    chore.times tick (chores.map (.work · actors now later) ++ deeds) =
      List.replicate (chores.count chore) tick ++ chore.times tick deeds := by
  induction chores with
  | nil => rfl
  | cons done chores ih =>
    rw [List.map_cons, List.cons_append, times, ih, List.count_cons]
    by_cases h : done = chore <;> simp [h, List.replicate_succ]

theorem count_due (interval : Chore → Nat) (tick : Nat) :
    (all.filter (interval · ∣ tick)).count chore = if interval chore ∣ tick then 1 else 0 := by
  have hall : all.count chore = 1 := by cases chore <;> rfl
  split
  next h => exact (List.count_filter (by exact decide_eq_true h)).trans hall
  next h =>
    refine List.count_eq_zero.mpr fun hmem => h ?_
    exact of_decide_eq_true (List.mem_filter.mp hmem).2

/-- On the agenda, a chore is done on the multiples of its interval. -/
theorem times_agenda (config : Config) (happenings : List (Happening σ)) (ticks : Nat) :
    chore.times ticks (agenda config ticks happenings) =
      (List.range' (ticks + 1) (happenings.countP (·.isTick))).filter
        (chore.interval config ∣ ·) := by
  induction happenings generalizing ticks with
  | nil => rfl
  | cons h happenings ih =>
    rw [agenda, List.countP_cons]
    cases hh : h.isTick with
    | false =>
      rw [h.deeds_of_not_isTick hh, Happening.ticks, hh]
      exact ih ticks
    | true =>
      obtain ⟨actors, now, later, rfl⟩ := Happening.exists_of_isTick hh
      show chore.times (ticks + 1) (List.map _ _ ++ agenda config (ticks + 1) happenings) = _
      rw [times_work, chore.count_due (·.interval config), ih, if_pos rfl, List.range'_succ,
        List.filter_cons]
      by_cases hdue : chore.interval config ∣ ticks + 1 <;> simp [hdue]

end Chore

/-- What is not a server tick is on the agenda as it is, and no server tick is. -/
theorem other?_agenda (config : Config) (happenings : List (Happening σ)) (ticks : Nat) :
    (agenda config ticks happenings).filterMap Deed.other? = happenings.filter (!·.isTick) := by
  induction happenings generalizing ticks with
  | nil => rfl
  | cons h happenings ih =>
    rw [agenda, List.filterMap_append, ih]
    cases hh : h.isTick with
    | false => simp [h.deeds_of_not_isTick hh, hh, Deed.other?]
    | true =>
      obtain ⟨actors, now, later, rfl⟩ := Happening.exists_of_isTick hh
      rw [List.filter_cons, hh, Happening.deeds, List.filterMap_cons, List.filterMap_map]
      have hnone (chores : List Chore) :
          chores.filterMap (Deed.other? ∘ (.work · actors now later) : Chore → _) =
            ([] : List (Happening σ)) := List.filterMap_eq_nil_iff.mpr fun _ _ => rfl
      exact congrArg (· ++ _) (hnone _)

/-! The agenda is what the engine does. -/

section
variable [RegionIndex σ]

namespace Engine

def carryOut (e : Engine) : Deed σ → HostM σ Engine
  | .count => pure e.count
  | .work chore actors now later => e.work actors now later chore
  | .other h => e.undergo h

/-- Chores that are looked at one after the other, or those of them that are due. -/
theorem foldlM_workIfDue (chores : List Chore) (actors : List LiveActor) (now later : Instant)
    (e : Engine) :
    (chores.foldlM (fun e chore => e.workIfDue actors now later chore) e : HostM σ Engine) =
      ((chores.filter (·.interval e.config ∣ e.tick)).map (.work · actors now later)).foldlM
        carryOut e := by
  induction chores generalizing e with
  | nil => rfl
  | cons chore chores ih =>
    rw [List.foldlM_cons, List.filter_cons, workIfDue]
    split
    next hdue =>
      rw [if_pos (decide_eq_true hdue), List.map_cons, List.foldlM_cons]
      refine (e.work_setup actors now later chore).bind_congr fun e' he' => ?_
      rw [ih, he'.1, he'.2]
    next hdue =>
      rw [if_neg fun h => hdue (of_decide_eq_true h), pure_bind]
      exact ih e

theorem undergo_eq_carryOut {e : Engine} {h : Happening σ} (hroom : e.tick + h.ticks ≤ lastTick) :
    e.undergo h = (h.deeds e.config e.tick).foldlM carryOut e := by
  cases hh : h.isTick with
  | false =>
    rw [h.deeds_of_not_isTick hh, List.foldlM_cons]
    exact (bind_pure _).symm
  | true =>
    obtain ⟨actors, now, later, rfl⟩ := Happening.exists_of_isTick hh
    have hcount : e.count.tick = e.tick + 1 := Nat.min_eq_left hroom
    show e.onTick actors now later = _
    rw [onTick_eq, foldlM_workIfDue, Happening.deeds, List.foldlM_cons, hcount]
    exact (pure_bind _ _).symm

/-- A run does what is on its agenda. -/
theorem run_eq_agenda (happenings : List (Happening σ)) {e : Engine}
    (hroom : e.tick + happenings.countP (·.isTick) ≤ lastTick) :
    happenings.foldlM undergo e = (agenda e.config e.tick happenings).foldlM carryOut e := by
  induction happenings generalizing e with
  | nil => rfl
  | cons h happenings ih =>
    rw [Happening.countP_cons] at hroom
    have hfirst : e.tick + h.ticks ≤ lastTick := by omega
    rw [List.foldlM_cons, agenda, List.foldlM_append, ← undergo_eq_carryOut hfirst]
    refine (undergo_counts hfirst).bind_congr fun e' ⟨hconfig, htick⟩ => ?_
    rw [ih (by omega), hconfig, htick]

end Engine

/-- So many server ticks are counted, and the index was told to drop its cached answers as often as
the interval goes into them. -/
structure Engine.OnTime (config : Config) (ticks : Nat) (e : Engine) (host : Host (Recorded σ)) :
    Prop where
  config_eq : e.config = config
  tick_eq : e.tick = ticks
  invalidations_eq : host.index.invalidations = ticks / config.cacheInterval

namespace Engine.OnTime
variable {config : Config} {ticks : Nat} {e : Engine} {host : Host (Recorded σ)}

theorem undergo (h : e.OnTime config ticks host) {happening : Happening σ}
    (hroom : ticks + happening.ticks ≤ lastTick) :
    let out := e.undergo happening.recorded host
    out.1.OnTime config (ticks + happening.ticks) out.2 := by
  obtain ⟨rfl, rfl, hbefore⟩ := h
  obtain ⟨hconfig, htick⟩ := undergo_counts hroom (plain host)
  rw [← (Mirrors.undergo e happening).value host] at hconfig htick
  refine ⟨hconfig, htick, ?_⟩
  cases hh : happening.isTick with
  | false =>
    rw [Happening.ticks, hh]
    exact e.undergo_keeps_invalidations hh _ host hbefore
  | true =>
    obtain ⟨actors, now, later, rfl⟩ := Happening.exists_of_isTick hh
    have hcount : e.count.tick = e.tick + 1 := Nat.min_eq_left hroom
    show (e.onTick actors now later host).2.index.invalidations = (e.tick + 1) / _
    rw [onTick_invalidations, hbefore, hcount, Nat.succ_div]

theorem run (h : e.OnTime config ticks host) {happenings : List (Happening σ)}
    (hroom : ticks + happenings.countP (·.isTick) ≤ lastTick) :
    let out := happenings.foldlM (fun e h => e.undergo h.recorded) e host
    out.1.OnTime config (ticks + happenings.countP (·.isTick)) out.2 := by
  induction happenings generalizing ticks e host with
  | nil => exact h
  | cons happening happenings ih =>
    rw [Happening.countP_cons] at hroom
    have hfirst : ticks + happening.ticks ≤ lastTick := by omega
    rw [Happening.countP_cons, ← Nat.add_assoc]
    exact ih (h.undergo hfirst) (by omega)

end Engine.OnTime

/-- From the start, whatever else happens in between: server ticks are counted, and a run does what
is on its agenda, where sessions are ticked and the index is told to drop its cached answers exactly
at the server ticks whose number is a multiple of the interval of either. That is as often as the
interval goes into their number, and never if it is zero; and the index is told so no more often. -/
theorem Engine.chores_done_exactly_when_due (config : Config) (happenings : List (Happening σ))
    (host : Host σ) (hroom : happenings.countP (·.isTick) ≤ lastTick) :
    let n := happenings.countP (·.isTick)
    let deeds := agenda config 0 happenings
    let run := happenings.foldlM undergo (new config) host
    let noted := happenings.foldlM (fun e h => e.undergo h.recorded) (new config) host.recorded
    run = deeds.foldlM carryOut (new config) host ∧
    run = (noted.1, plain noted.2) ∧
    run.1.tick = n ∧
    deeds.filterMap Deed.other? = happenings.filter (!·.isTick) ∧
    (∀ chore : Chore, chore.times 0 deeds = multiplesUpTo (chore.interval config) n ∧
      (chore.times 0 deeds).length = n / chore.interval config) ∧
    noted.2.index.invalidations = n / config.cacheInterval := by
  intro n deeds run noted
  have hroom' : (new config).tick + happenings.countP (·.isTick) ≤ lastTick := by
    rw [show (new config).tick = 0 from rfl, Nat.zero_add]
    exact hroom
  have hmirrors : Mirrors (happenings.foldlM (fun e h => e.undergo h.recorded) (new config))
      (happenings.foldlM undergo (new config) : HostM σ Engine) :=
    Mirrors.foldlM Mirrors.undergo happenings (new config)
  have hvalue : noted.1 = run.1 := hmirrors.value host.recorded
  have hstate : plain noted.2 = run.2 := hmirrors.state host.recorded
  have hstart : (new config).OnTime config 0 host.recorded :=
    ⟨rfl, rfl, (Nat.zero_div config.cacheInterval).symm⟩
  have hend : noted.1.OnTime config (0 + n) noted.2 := hstart.run hroom'
  rw [Nat.zero_add, hvalue] at hend
  refine ⟨congrFun (run_eq_agenda happenings hroom') host, ?_, hend.tick_eq,
    other?_agenda config happenings 0, fun chore => ?_, hend.invalidations_eq⟩
  · exact Prod.ext hvalue.symm hstate.symm
  · have htimes : chore.times 0 deeds = multiplesUpTo (chore.interval config) n :=
      chore.times_agenda config happenings 0
    exact ⟨htimes, htimes ▸ length_multiplesUpTo _ n⟩

end
end

/-- A bell rings whenever the session of a visitor is ticked. While they come in, a creeper goes off
and the host ticks the sessions itself, the engine ticks them at every second of seven server ticks
and has the index drop its cached answers at every third. With an interval of zero it never does. -/
theorem chores_done_exactly_when_due_in_town :
    let bell : Blueprint := .host { name := "bell", onTick := fun _ => ["ding"] }
    let tick (n : Int) : Happening (Served Town.tables) :=
      .event (.tick [Town.visitor] ⟨n⟩ ⟨n⟩)
    let happenings : List (Happening (Served Town.tables)) :=
      [.register bell, tick 1, .event (.join Town.visitor ⟨1⟩), tick 2, tick 3,
        .blockChange Town.platform Town.blast, .drift Served.next, tick 4,
        .event (.operate (.tick [Town.visitor] ⟨4⟩)), tick 5, .check (Town.place 10) .build none,
        tick 6, .event (.quit Town.visitor), tick 7]
    let config : Config := { cacheInterval := 3 }
    let never : Config := { config with cacheInterval := 0 }
    let noted (config : Config) := happenings.foldlM (fun e h => e.undergo h.recorded)
      (Engine.new config) (Town.hostAfter 0).recorded
    (happenings.foldlM Engine.undergo (Engine.new config) (Town.hostAfter 0)).1.tick = 7 ∧
    Chore.sessions.times 0 (agenda config 0 happenings) = [2, 4, 6] ∧
    Chore.cache.times 0 (agenda config 0 happenings) = [3, 6] ∧
    (noted config).2.index.invalidations = 2 ∧
    (noted never).2.index.invalidations = 0 ∧
    (noted config).2.notices = List.replicate 4 (.remark "ding") := by
  intro bell tick happenings config never noted
  have hticks : happenings.countP (·.isTick) = 7 := by decide
  have hroom : happenings.countP (·.isTick) ≤ Engine.lastTick := by decide
  have hbell : (noted config).2.notices = List.replicate 4 (.remark "ding") := by decide +kernel
  obtain ⟨-, -, htick, -, htimes, hinvalidations⟩ :=
    Engine.chores_done_exactly_when_due config happenings (Town.hostAfter 0) hroom
  obtain ⟨-, -, -, -, -, hnever⟩ :=
    Engine.chores_done_exactly_when_due never happenings (Town.hostAfter 0) hroom
  rw [hticks] at htick htimes hinvalidations hnever
  -- nothing below is to run the engine
  clear_value happenings
  exact ⟨htick, (htimes .sessions).1.trans (by decide), (htimes .cache).1.trans (by decide),
    hinvalidations.trans (by decide), hnever.trans (by decide), hbell⟩

end RegionAccess
