import RegionAccess.Index

/-! Whom a policy query is asked for. Players answer from their identity; what has none stands
where it is, and the regions there are looked up at most once. -/
namespace RegionAccess
open RegionIndex

/-- A place, and what is known of the regions there: not asked, or the one lookup's outcome. -/
structure OverlapProbe where
  location : Location
  found? : Option (Option RegionSet) := none

namespace OverlapProbe
variable {σ : Type} [RegionIndex σ]

def isResolved (p : OverlapProbe) : Bool := p.found?.isSome

/-- The regions at the place, none when their lookup failed. -/
def find (p : OverlapProbe) : StateM σ (Option RegionSet × OverlapProbe) :=
  match p.found? with
  | some found => pure (found, p)
  | none => do
      let found := (← overlapping p.location).toOption
      return (found, { p with found? := some found })

/-- Whoever stands in regions owns them, and outside of all regions the global one. -/
def standingIn (found : Option RegionSet) (regions : List ProtectedRegion) : Standing :=
  match found with
  | none => .nonMember
  | some here =>
      if regions.any fun r => here.contains r.id || (r.isGlobal && here.isEmpty) then .owner
      else .nonMember

end OverlapProbe

inductive Subject where
  | player (identity : Identity)
  | offline (identity : OfflineIdentity)
  | deferred (probe : OverlapProbe)
  | constant (standing : Standing)

namespace Subject
variable {σ : Type} [RegionIndex σ]

def identity? : Subject → Option Identity
  | .player i => some i
  | .offline i => some i.toIdentity
  | .deferred _ | .constant _ => none

/-- The standing in some regions, and the subject that remembers what it looked up. -/
def standing (regions : List ProtectedRegion) : Subject → StateM σ (Standing × Subject)
  | .player i => pure (i.standing regions, .player i)
  | .offline i => pure (i.toIdentity.standing regions, .offline i)
  | .deferred p => do
      let (found, p) ← p.find
      return (OverlapProbe.standingIn found regions, .deferred p)
  | .constant s => pure (s, .constant s)

end Subject

/-- Answers every question of a query by the subject's standing. -/
def Inquiry.conduct {σ : Type} [RegionIndex σ] :
    Inquiry σ → Subject → (Answer × Subject) × σ
  | .answer result after, subject => ((result, subject), after)
  | .ask regions before resume, subject =>
      let ((standing, subject), between) := subject.standing regions before
      (resume standing between).conduct subject

end RegionAccess
