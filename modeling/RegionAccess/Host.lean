import RegionAccess.Index

/-! What work on sessions reaches outside of them: it consults the host's index and sends the host
notices. -/
namespace RegionAccess

inductive Notice where
  /-- A watched flag took a new value where the actor is. -/
  | flagChanged (actor : EntityId) (flag : Flag) (allowed : Bool)
  /-- Something one of the host's own rules reports. -/
  | remark (text : String)
  deriving DecidableEq

structure Host (σ : Type) where
  index : σ
  notices : List Notice := []

abbrev HostM (σ : Type) := StateM (Host σ)

def consult {σ α : Type} (question : StateM σ α) : HostM σ α := fun h =>
  let (a, index) := question h.index
  (a, { h with index })

def notify {σ : Type} (notices : List Notice) : HostM σ Unit :=
  modify fun h => { h with notices := h.notices ++ notices }

end RegionAccess
