import RegionAccess.Host
import RegionAccess.Kind
import RegionAccess.Query

/-! A host's own rules for sessions. A rule has a say in moves, may ask the index what it likes, and
keeps in mind what it likes of each session. -/
namespace RegionAccess

/-- A move under judgement, with the regions at both ends. -/
structure Move where
  actor : LiveActor
  source : Location
  target : Location
  sourceRegions : RegionSet
  targetRegions : RegionSet
  kind : MoveKind

namespace Move

def entered (m : Move) : RegionSet := m.targetRegions \ m.sourceRegions

def exited (m : Move) : RegionSet := m.sourceRegions \ m.targetRegions

end Move

/-- What a rule does when it is called: it puts questions to the index, each in the light of the
answers before, and reports to the host in words. -/
inductive Dialogue (α : Type) where
  | done (outcome : α)
  | remark (text : String) (rest : Dialogue α)
  | lookUp (location : Location) (resume : Except IndexError RegionSet → Dialogue α)
  /-- The value of a flag for some subject. -/
  | inquire (location : Location) (flag : Flag) (subject : Subject) (resume : Answer → Dialogue α)
  /-- The value of a flag for no one in particular. -/
  | environment (location : Location) (flag : Flag) (resume : Answer → Dialogue α)

/-- The value of a flag for a subject that is not asked about again. -/
def Subject.inquire {σ : Type} [RegionIndex σ] (subject : Subject) (location : Location)
    (flag : Flag) : StateM σ Answer := do
  return (← (RegionIndex.inquire location flag · |>.conduct subject)).1

/-- Holds the dialogue with the host, whatever its index is. -/
def Dialogue.hold {σ α : Type} [RegionIndex σ] : Dialogue α → HostM σ α
  | .done outcome => pure outcome
  | .remark text rest => do
      notify [.remark text]
      rest.hold
  | .lookUp location resume => do
      (resume (← consult (RegionIndex.overlapping location))).hold
  | .inquire location flag subject resume => do
      (resume (← consult (subject.inquire location flag))).hold
  | .environment location flag resume => do
      (resume (← consult (RegionIndex.environment location flag))).hold

/-- What a rule has in mind of a session, written down in a form of its own. -/
abbrev Memory := String

/-- What a rule does in the light of what it has in mind. The dialogue comes to an outcome and to
what is kept in mind from then on. -/
structure Reaction (α : Type) where
  dialogue : Memory → Dialogue (α × Memory)

namespace Reaction
variable {α : Type}

/-- A reaction with a fixed outcome and fixed words. -/
def words (outcome : α) (texts : List String) : Reaction α where
  dialogue memory := texts.foldr .remark (.done (outcome, memory))

def run {σ : Type} [RegionIndex σ] (r : Reaction α) (memory : Memory) : HostM σ (α × Memory) :=
  (r.dialogue memory).hold

instance : Coe (List String) (Reaction Unit) := ⟨words ()⟩

instance : Coe (Bool × List String) (Reaction Bool) := ⟨fun out => words out.1 out.2⟩

end Reaction

/-- A rule of the host's own. -/
structure HostRule where
  name : String
  /-- What it has in mind of a new session. -/
  fresh : Memory := ""
  onStart : LiveActor → Location → Reaction Unit := fun _ _ => .words () []
  judge : Move → Reaction Bool := fun _ => .words true []
  onCross : Move → Reaction Unit := fun _ => .words () []
  onTick : LiveActor → Reaction Unit := fun _ => .words () []

end RegionAccess
