/-! Closed sets of named alternatives, and finding an alternative by its name. -/
namespace RegionAccess

class Labelled (α : Type) where
  all : List α
  label : α → String
  find_label : ∀ a, all.find? (fun b => label b == label a) = some a

export Labelled (label)

/-- The alternative of a name, in exact letter case. -/
def ofLabel? {α : Type} [Labelled α] (name : String) : Option α :=
  (Labelled.all : List α).find? (fun a => label a == name)

@[simp] theorem ofLabel?_label {α : Type} [Labelled α] (a : α) : ofLabel? (label a) = some a :=
  Labelled.find_label a

end RegionAccess
