import RegionAccess.Actor

/-! Causal chains: who is ultimately responsible for an event, the farthest actor first and the
most proximate trigger last. -/
namespace RegionAccess

structure Cause where
  actors : List ActorRef
  /-- Whether the root need not have acted themselves. -/
  isIndirect : Bool
  deriving BEq

namespace Cause

/-- Nothing identifiable. -/
def unknown : Cause := ⟨[], false⟩

/-- Whether some actor of the chain is more than a carrier. -/
def isKnown (c : Cause) : Bool := c.actors.any (!·.isCarrier)

def root? (c : Cause) : Option ActorRef := c.actors.head?

def firstPlayer? (c : Cause) : Option PlayerRef :=
  c.actors.findSome? fun
    | .player p => some p
    | _ => none

def firstEntity? (c : Cause) : Option ActorRef := c.actors.find? (·.isEntity)

def firstNonPlayerEntity? (c : Cause) : Option EntityRef :=
  c.actors.findSome? fun
    | .entity e => some e
    | _ => none

def firstBlock? (c : Cause) : Option BlockRef :=
  c.actors.findSome? fun
    | .block b => some b
    | _ => none

/-- The kind of the first player or entity whose kind is listed. -/
def findKind? (c : Cause) (kinds : List EntityKind) : Option EntityKind :=
  (c.actors.filterMap (·.entityKind?)).find? (kinds.contains ·)

def involves (c : Cause) (kind : EntityKind) : Bool := (c.findKind? [kind]).isSome

def text (c : Cause) : String := " | ".intercalate (c.actors.map (·.text))

end Cause
end RegionAccess
