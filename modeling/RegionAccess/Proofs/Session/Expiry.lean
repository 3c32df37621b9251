import Mathlib.Data.List.Basic
import RegionAccess.Proofs.Index.Tables
import RegionAccess.Proofs.Session.Runs

/-! Expiry. Spans end somewhere, and so an expiry may be configured that none of them holds. It is
cut to the longest span, which changes nothing: no two moments of a clock are further apart. -/
namespace RegionAccess

namespace Span

theorem longest_nanoseconds : longest.nanoseconds = 9223372036854775807 * 1000000 := rfl

/-- The span is within the longest one, forwards and backwards. -/
def Fits (s : Span) : Prop := -longest.nanoseconds ≤ s.nanoseconds ∧ s ≤ longest

instance (s : Span) : Decidable s.Fits := inferInstanceAs (Decidable (_ ∧ _))

/-- An unsigned word as a signed one, if it leaves the sign bit alone. -/
def signed? (n : Nat) : Option Int64 :=
  if n ≤ Int64.maxValue.toInt then some (.ofNat n) else none

/-- So many seconds, if there is a span of them. -/
def ofSeconds? (n : Int64) : Option Span :=
  let span : Span := ⟨n.toInt * 1000000000⟩
  if span.Fits then some span else none

theorem fits_seconds_iff {n : Nat} : (seconds n).Fits ↔ seconds n ≤ longest := by
  refine ⟨And.right, fun h => ⟨?_, h⟩⟩
  show -longest.nanoseconds ≤ (n : Int) * 1000000000
  rw [longest_nanoseconds]
  omega

theorem signed_of_seconds_le_longest {n : Nat} (h : seconds n ≤ longest) :
    n ≤ Int64.maxValue.toInt := by
  have hn : (n : Int) * 1000000000 ≤ longest.nanoseconds := h
  rw [longest_nanoseconds] at hn
  rw [Int64.toInt_maxValue]
  omega

/-- Seconds are cut where they are no signed word, and where there is no span of them. -/
theorem cappedSeconds_eq (n : Nat) :
    cappedSeconds n = ((signed? n).bind ofSeconds?).getD longest := by
  by_cases hn : n ≤ Int64.maxValue.toInt
  · have hword : n < 9223372036854775808 := by
      rw [Int64.toInt_maxValue] at hn
      omega
    have hseconds : ofSeconds? (.ofNat n) =
        if (seconds n).Fits then some (seconds n) else none := by
      rw [ofSeconds?, Int64.toInt_ofNat_of_lt hword]
      rfl
    rw [signed?, if_pos hn, Option.bind_some, hseconds, cappedSeconds]
    simp only [fits_seconds_iff]
    split <;> rfl
  · rw [signed?, if_neg hn, cappedSeconds, if_neg fun h => hn (signed_of_seconds_le_longest h)]
    rfl

/-- A span that there is cannot tell seconds from what they are cut to. -/
theorem le_cappedSeconds_iff {s : Span} (h : s.Fits) (n : Nat) :
    s ≤ cappedSeconds n ↔ s ≤ seconds n := by
  unfold cappedSeconds
  split
  next => rfl
  next hlong =>
    have hn : longest.nanoseconds ≤ (seconds n).nanoseconds := Int.le_of_lt (Int.not_le.mp hlong)
    exact ⟨fun hs => Int.le_trans hs hn, fun _ => h.2⟩

end Span

/-- The moments that a clock can show. There is a span between any two of them. -/
structure Clock where
  shows : Instant → Prop
  fits : ∀ later earlier, shows later → shows earlier → (later.since earlier).Fits

/-- A calendar of so many years before and after the origin. -/
def Clock.calendar : Clock where
  shows t := t.nanoseconds.natAbs ≤ 262144 * 366 * 86400 * 1000000000
  fits later earlier hlater hearlier := by
    have hspan : (later.since earlier).nanoseconds = later.nanoseconds - earlier.nanoseconds := rfl
    show -Span.longest.nanoseconds ≤ _ ∧ _ ≤ Span.longest.nanoseconds
    rw [hspan, Span.longest_nanoseconds]
    omega

namespace Registry
variable (r : Registry) (now : Instant)

/-- The sessions that were last touched longer ago than the expiry. -/
def stale (expiry : Span) : List (EntityId × Session) :=
  r.sessions.toList.filter fun entry => ¬ now.since entry.2.lastSeen ≤ expiry

theorem expire_add_size : (r.expire now).1 + (r.expire now).2.size = r.size :=
  Nat.sub_add_cancel Std.ExtTreeMap.size_filter_le_size

theorem expire_eq_length_stale :
    (r.expire now).1 = (r.stale now (Span.cappedSeconds r.config.expirySeconds)).length := by
  have hkept : (r.expire now).2.size = (r.sessions.toList.filter fun entry =>
      now.since entry.2.lastSeen ≤ Span.cappedSeconds r.config.expirySeconds).length := by
    rw [size, expire, ← Std.ExtTreeMap.length_toList, Std.ExtTreeMap.toList_filter]
  have hall : r.size = r.sessions.toList.length := Std.ExtTreeMap.length_toList.symm
  have hsplit := List.length_eq_length_filter_add (l := r.sessions.toList) fun entry =>
    decide (now.since entry.2.lastSeen ≤ Span.cappedSeconds r.config.expirySeconds)
  simp only [← decide_not] at hsplit
  have hsize := r.expire_add_size now
  rw [stale]
  omega

/-- Whatever number of seconds is configured, expiry keeps the sessions that were last touched at
most so long ago, to the nanosecond, and leaves them as they were. It counts the others, which it
drops. That the number is cut to a span on the way makes no difference. -/
theorem expiry_is_exact (clock : Clock) {now : Instant} (hnow : clock.shows now)
    (hseen : ∀ id s, r.session? id = some s → clock.shows s.lastSeen) :
    let expiry := Span.seconds r.config.expirySeconds
    let out := r.expire now
    (∀ id s, out.2.session? id = some s ↔
      r.session? id = some s ∧ now.since s.lastSeen ≤ expiry) ∧
    out.2 = { r with sessions := out.2.sessions } ∧
    out.1 = (r.stale now expiry).length ∧ out.1 + out.2.size = r.size ∧
    Span.cappedSeconds r.config.expirySeconds =
      ((Span.signed? r.config.expirySeconds).bind Span.ofSeconds?).getD Span.longest := by
  intro expiry out
  have hexact {id : EntityId} {s : Session} (hs : r.session? id = some s) :
      now.since s.lastSeen ≤ Span.cappedSeconds r.config.expirySeconds ↔
        now.since s.lastSeen ≤ expiry :=
    Span.le_cappedSeconds_iff (clock.fits _ _ hnow (hseen id s hs)) _
  refine ⟨fun id s => ?_, rfl, ?_, r.expire_add_size now, Span.cappedSeconds_eq _⟩
  · rw [session?_expire_iff]
    exact and_congr_right hexact
  · rw [show out.1 = _ from r.expire_eq_length_stale now]
    refine congrArg List.length (List.filter_congr fun entry hentry => ?_)
    have hs := Std.ExtTreeMap.mem_toList_iff_getElem?_eq_some.mp hentry
    rw [decide_eq_decide, hexact hs]

end Registry

/-- A session outlasts an expiry of ten seconds for ten seconds, and not for a nanosecond more. The
largest of expiries it outlasts as long as there is a calendar. -/
theorem expiry_is_exact_in_town :
    let last : Instant := ⟨262144 * 366 * 86400 * 1000000000⟩
    let visit := Session.fresh Town.visitor.id [.entryExit] ⟨0⟩
    let configured (seconds : Nat) : Registry :=
      ({ config := { expirySeconds := seconds } } : Registry).store visit.actor visit
    (∀ seconds id s, (configured seconds).session? id = some s →
      Clock.calendar.shows s.lastSeen) ∧ Clock.calendar.shows last ∧
    ((configured 10).expire ⟨10000000000⟩).2.session? visit.actor = some visit ∧
    ((configured 10).expire ⟨10000000001⟩).1 = 1 ∧
    ((configured (UInt64.size - 1)).expire last).2.session? visit.actor = some visit := by
  intro last visit configured
  have hvisit (seconds : Nat) : (configured seconds).session? visit.actor = some visit := by
    rw [Registry.session?_store, if_pos rfl]
  have hseen (seconds : Nat) (id : EntityId) (s : Session)
      (hs : (configured seconds).session? id = some s) : Clock.calendar.shows s.lastSeen := by
    rw [Registry.session?_store] at hs
    split at hs
    · rw [← Option.some.inj hs]
      exact Nat.zero_le _
    · rw [Registry.session?_empty] at hs
      cases hs
  have hexact (seconds : Nat) {now : Instant} (hnow : Clock.calendar.shows now) :=
    (configured seconds).expiry_is_exact .calendar hnow (hseen seconds)
  have hlast : Clock.calendar.shows last := by show _ ≤ _; decide
  have hten : Clock.calendar.shows ⟨10000000000⟩ := by show _ ≤ _; decide
  have hmore : Clock.calendar.shows ⟨10000000001⟩ := by show _ ≤ _; decide
  refine ⟨hseen, hlast, ?_, ?_, ?_⟩
  · exact ((hexact 10 hten).1 _ _).mpr ⟨hvisit 10, by decide⟩
  · exact (hexact 10 hmore).2.2.1.trans (by decide)
  · exact ((hexact _ hlast).1 _ _).mpr ⟨hvisit _, by decide⟩

end RegionAccess
