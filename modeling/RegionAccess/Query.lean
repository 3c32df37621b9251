import RegionAccess.Subject

/-! Policy checks: every answer of the index becomes a verdict, and where it cannot answer the
flag's category decides. -/
namespace RegionAccess

/-- Only an explicit allow permits; a failure leaves it to the category. -/
def Flag.verdict (f : Flag) : Answer → Bool
  | .ok value => value == some .allow
  | .error _ => f.category.failVerdict

variable {σ : Type} [RegionIndex σ]

/-- Whether a flag allows a subject something at a location. -/
def allows (location : Location) (flag : Flag) : StateT Subject (StateM σ) Bool := fun subject => do
  let (answer, subject) ← (RegionIndex.inquire location flag · |>.conduct subject)
  return (flag.verdict answer, subject)

/-- Whether a player may do what a flag guards; players do not change by being asked. -/
def Identity.isAllowed (i : Identity) (location : Location) (flag : Flag) : StateM σ Bool := do
  return (← allows location flag (.player i)).1

/-- Whether a flag allows something that nobody in particular does. -/
def environmentAllows (flag : Flag) (location : Location) : StateM σ Bool := do
  return flag.verdict (← RegionIndex.environment location flag)

end RegionAccess
