import RegionAccess.Event.BlockChange
import RegionAccess.Platform
import RegionAccess.Proofs.Index.Answers

/-! An index that answers from tables, cell by cell, and counts its calls; an outage strikes calls
by their number. Where none does, its answers are fixed. -/
namespace RegionAccess
open RegionIndex

structure Tables where
  regionsAt : Block → RegionSet
  /-- The regions in which a subject's standing decides, at a cell. -/
  consulted : Block → List ProtectedRegion
  ruling : Block → Flag → Standing → Option Ruling
  /-- The value of a flag for no one in particular. -/
  ambient : Block → Flag → Option Ruling
  /-- How a call fails, by the number of calls made before it. -/
  outage? : Nat → Option IndexError := fun _ => none

/-- The state of an index that answers from given tables. -/
structure Served (t : Tables) where
  count : Nat := 0

namespace Served
variable {t : Tables}

def next (s : Served t) : Served t := ⟨s.count + 1⟩

def answer {α : Type} (value : α) : StateM (Served t) (Except IndexError α) := fun s =>
  match t.outage? s.count with
  | some e => (.error e, s.next)
  | none => (.ok value, s.next)

instance : RegionIndex (Served t) where
  overlapping location := answer (t.regionsAt location.block)
  inquire location flag s :=
    match t.outage? s.count with
    | some e => .answer (.error e) s.next
    | none => .ask (t.consulted location.block) s.next fun standing s =>
        .answer (.ok (t.ruling location.block flag standing)) s
  environment location flag := answer (t.ambient location.block flag)
  invalidate := pure ()

theorem answer_ok {α : Type} {value found : α} {s : Served t}
    (h : (answer value s).1 = .ok found) : found = value := by
  unfold answer at h
  split at h
  · cases h
  · exact (Except.ok.inj h).symm

theorem answer_value {α : Type} {value : α} {s : Served t} (h : t.outage? s.count = none) :
    (answer value s).1 = .ok value := by
  unfold answer
  rw [h]

theorem overlapping_eq (h : ∀ n, t.outage? n = none) (location : Location) (s : Served t) :
    (overlapping location s).1 = .ok (t.regionsAt location.block) := answer_value (h s.count)

end Served

/-- Answers from tables are steady, whatever outages there are. -/
def Tables.steady (t : Tables) : SteadyIndex (Served t) where
  regionsAt := t.regionsAt
  ruling block flag standing := t.ruling block flag (standing (t.consulted block))
  overlapping_ok _ _ _ h := Served.answer_ok h
  inquire_ok location flag i s value h := by
    simp only [inquire] at h
    split at h
    · cases h
    · exact (Except.ok.inj h).symm

/-- Without outages the tables answer everything, and always alike. -/
def Tables.fixed (t : Tables) (h : ∀ n, t.outage? n = none) : FixedAnswers (Served t) where
  found location := .ok (t.regionsAt location.block)
  answer location flag standing :=
    .ok (t.ruling location.block flag (standing (t.consulted location.block)))
  ambient location flag := .ok (t.ambient location.block flag)
  overlapping_eq := Served.overlapping_eq h
  inquire_eq location flag subject s := by
    have hstanding := subject.standing_judgement (Served.overlapping_eq h)
      (t.consulted location.block) s.next
    simp only [inquire, h]
    rw [← hstanding.1]
    rfl
  environment_eq location flag s := Served.answer_value (h s.count)

/-! A town whose members may come in and leave, a visitor before it and a blast at its border. The
first call fails. -/
namespace Town

def world : WorldId := ⟨⟨1⟩⟩

def place (x : Float) : Location := { world, x, y := 64, z := 0 }

def visitor : LiveActor where
  id := ⟨⟨7⟩⟩
  name := "visitor"
  groups := []
  permits _ := false
  location := place 0

def region : ProtectedRegion := { id := .ofName "town" }

def tables : Tables where
  regionsAt b := if 10 ≤ b.x then (∅ : RegionSet).insert region.id else ∅
  consulted b := if 10 ≤ b.x then [region] else []
  ruling b _ standing := if 10 ≤ b.x ∧ standing = .nonMember then some .deny else some .allow
  ambient b _ := if 10 ≤ b.x then some .deny else some .allow
  outage? n := if n = 0 then some (.unavailable "starting") else none

/-- The same answers, and none fails. -/
def steadyTables : Tables := { tables with outage? := fun _ => none }

/-- Every call fails. -/
def darkTables : Tables := { tables with outage? := fun _ => some (.unavailable "down") }

/-- No player is connected, and no entity is tracked. -/
def platform : Platform where
  player? _ := none
  offlineUser? _ := none
  location? _ := none
  origin? _ := none
  relations := .ofTable []

def blast : BlockChange where
  kind := .breaking
  cause := ⟨[.entity { id := ⟨⟨9⟩⟩, kind := .creeper, location := place 0 }], false⟩
  world
  locations := [place 0, place 10, place 0]

/-- The host once the index was called a number of times. -/
def hostAfter (calls : Nat) : Host (Served tables) := { index := ⟨calls⟩ }

end Town
end RegionAccess
