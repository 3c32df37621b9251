import RegionAccess.Flag
import RegionAccess.Region

/-! The boundary to the host's region index. An index is anything with a state of its own: it may
fail, and it may answer the same question differently the next time. -/
namespace RegionAccess

inductive IndexError where
  | unavailable (reason : String)
  | worldNotLoaded (world : WorldId)
  deriving DecidableEq

def IndexError.message : IndexError → String
  | .unavailable reason => "region index unavailable: " ++ reason
  | .worldNotLoaded world => "regions for world " ++ world.text ++ " are not loaded"

/-- The value of a flag, none where no region sets it and it has no fallback. -/
abbrev Answer := Except IndexError (Option Ruling)

/-- A flag query under way: the index answers, or first asks where the subject stands. -/
inductive Inquiry (σ : Type) where
  | answer (result : Answer) (after : σ)
  | ask (regions : List ProtectedRegion) (before : σ) (resume : Standing → σ → Inquiry σ)

/-- An index whose state is of the given type. -/
class RegionIndex (σ : Type) where
  /-- The regions at a location, the global one excluded. -/
  overlapping : Location → StateM σ (Except IndexError RegionSet)
  /-- The value of a flag for some subject. -/
  inquire : Location → Flag → σ → Inquiry σ
  /-- The value of a flag for no one in particular. -/
  environment : Location → Flag → StateM σ Answer
  /-- Drops cached answers. -/
  invalidate : StateM σ Unit

end RegionAccess
