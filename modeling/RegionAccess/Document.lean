/-! What a reader of settings or stored values asks of a node, whatever notation it was written
in: records with known fields, maps, lists and scalars. -/
namespace RegionAccess

/-- A record by field name, or as its values in the order of the fields. -/
inductive RecordForm (δ : Type) where
  | named (fields : List (String × δ))
  | ordered (values : List δ)

class Document (δ : Type) where
  record? : δ → Option (RecordForm δ)
  entries? : δ → Option (List (String × δ))
  items? : δ → Option (List δ)
  text? : δ → Option String
  bool? : δ → Option Bool
  /-- A number that an unsigned 64-bit word holds. -/
  word? : δ → Option Nat

namespace Document
variable {δ : Type} [Document δ] {α : Type}

/-- The fields of a record. No known field may be given twice; fields that are not known do not
matter. In order, at least so many values must be there and no more than there are fields. -/
def fields? (least : Nat) (names : List String) (node : δ) : Option (String → Option δ) :=
  match record? node with
  | some (.named fields) =>
      if names.all fun n => (fields.filter (·.1 == n)).length ≤ 1 then some (fields.lookup ·)
      else none
  | some (.ordered values) =>
      if least ≤ values.length && values.length ≤ names.length then
        some ((names.zip values).lookup ·)
      else none
  | none => none

/-- A field that must be there. -/
def required (read : δ → Option α) (field : Option δ) : Option α := field.bind read

/-- A field that may be missing; one that is there must be readable. -/
def orElse (fallback : α) (read : δ → Option α) : Option δ → Option α
  | none => some fallback
  | some node => read node

def list? (read : δ → Option α) (node : δ) : Option (List α) := (items? node).bind (·.mapM read)

end Document
end RegionAccess
