import RegionAccess.Location
import RegionAccess.Storage.Value

/-! Stored forms of identifiers, blocks and locations. -/
namespace RegionAccess
open Document Storage

def Uuid.read? {δ : Type} [Document δ] (node : δ) : Option Uuid := (text? node).bind Uuid.parse?

namespace EntityId

def write (id : EntityId) : Value := .text id.text

def read? {δ : Type} [Document δ] (node : δ) : Option EntityId := (Uuid.read? node).map mk

end EntityId

namespace WorldId

def write (id : WorldId) : Value := .text id.text

def read? {δ : Type} [Document δ] (node : δ) : Option WorldId := (Uuid.read? node).map mk

end WorldId

namespace RegionId

def write (id : RegionId) : Value := .text id.name

def read? (v : Value) : Option RegionId := (text? v).map ofName

end RegionId

namespace Block

def write (b : Block) : Value :=
  .record [("world", b.world.write), ("x", .ofInt32 b.x), ("y", .ofInt32 b.y), ("z", .ofInt32 b.z)]

def read? (v : Value) : Option Block := do
  let field ← fields? 4 ["world", "x", "y", "z"] v
  return {
    world := ← required WorldId.read? (field "world")
    x := ← required Value.int32? (field "x")
    y := ← required Value.int32? (field "y")
    z := ← required Value.int32? (field "z") }

end Block

namespace Location

def write (l : Location) : Value :=
  .record [("world", l.world.write), ("x", .ofDouble l.x), ("y", .ofDouble l.y),
    ("z", .ofDouble l.z), ("yaw", .ofSingle l.yaw), ("pitch", .ofSingle l.pitch)]

def read? (v : Value) : Option Location := do
  let field ← fields? 6 ["world", "x", "y", "z", "yaw", "pitch"] v
  return {
    world := ← required WorldId.read? (field "world")
    x := ← required Value.double? (field "x")
    y := ← required Value.double? (field "y")
    z := ← required Value.double? (field "z")
    yaw := ← required Value.single? (field "yaw")
    pitch := ← required Value.single? (field "pitch") }

end Location
end RegionAccess
