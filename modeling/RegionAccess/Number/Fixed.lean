import RegionAccess.Number.Binary

/-! Decimal text with a fixed number of places, rounded from the exact binary value. -/
namespace RegionAccess.Number

/-- The nearest integer to the magnitude times 10^places, a half going to the even neighbour. -/
def Dyadic.scaled (d : Dyadic) (places : Nat) : Nat :=
  let n := d.significand * Nat.pow 10 places
  if 0 ≤ d.exponent then n <<< d.exponent.toNat else roundDiv n (1 <<< (-d.exponent).toNat)

/-- The digits of the last places, led by zeros. -/
def paddedDigits (places n : Nat) : String :=
  let digits := Nat.repr n
  String.ofList (List.replicate (places - digits.length) '0') ++ digits

/-- The sign is kept when every digit is zero. -/
def Dyadic.fixedText (d : Dyadic) (places : Nat) : String :=
  let n := d.scaled places
  (if d.negative then "-" else "") ++ Nat.repr (n / Nat.pow 10 places) ++ "." ++
    paddedDigits places (n % Nat.pow 10 places)

def fixedText (places : Nat) (x : Float) : String :=
  match readDouble x with
  | .finite d => d.fixedText places
  | .infinite negative => if negative then "-inf" else "inf"
  | .notANumber => "NaN"

end RegionAccess.Number
