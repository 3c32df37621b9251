import RegionAccess.Document
import RegionAccess.Label
import RegionAccess.Number.Binary

/-! Stored values as trees. Whole numbers and floating-point numbers are told apart. -/
namespace RegionAccess.Storage

inductive Value where
  | null
  | bool (value : Bool)
  | int (value : Int)
  | real (value : Float)
  | text (value : String)
  | list (items : List Value)
  | record (fields : List (String × Value))
  deriving Inhabited

instance : Document Value where
  record?
    | .record fields => some (.named fields)
    | .list items => some (.ordered items)
    | _ => none
  entries?
    | .record fields => some fields
    | _ => none
  items?
    | .list items => some items
    | _ => none
  text?
    | .text s => some s
    | _ => none
  bool?
    | .bool b => some b
    | _ => none
  word?
    | .int n => if 0 ≤ n ∧ n < UInt64.size then some n.toNat else none
    | _ => none

namespace Value

def isNull : Value → Bool
  | .null => true
  | _ => false

/-- A field that may be missing or null. -/
def optional {α : Type} (read : Value → Option α) : Option Value → Option (Option α)
  | none => some none
  | some v => if v.isNull then some none else (read v).map some

/-- The name of an alternative, or a record of that name that holds nothing. -/
def label? {α : Type} [Labelled α] : Value → Option α
  | .text name => ofLabel? name
  | .record [(name, .null)] => ofLabel? name
  | _ => none

def ofLabel {α : Type} [Labelled α] (a : α) : Value := .text (label a)

def int32? : Value → Option Int32
  | .int n =>
    if Int32.minValue.toInt ≤ n ∧ n ≤ Int32.maxValue.toInt then some (Int32.ofInt n) else none
  | _ => none

def ofInt32 (n : Int32) : Value := .int n.toInt

def double? : Value → Option Float
  | .int n => some (Number.toDouble (.finite (.ofInt n)))
  | .real x => some x
  | _ => none

/-- A whole number is rounded to a single in one step. -/
def single? : Value → Option Float32
  | .int n => some (Number.toSingle (.finite (.ofInt n)))
  | .real x => some (Number.narrow x)
  | _ => none

/-- What is not finite has no stored form. -/
def ofDouble (x : Float) : Value := if Number.isFinite x then .real x else .null

def ofSingle (x : Float32) : Value := ofDouble (Number.widen x)

end Value
end RegionAccess.Storage
