/-! Binary floating-point patterns as exact dyadic numbers, and the nearest pattern of a format
to an exact number. All arithmetic is on natural numbers. -/
namespace RegionAccess.Number

/-- The number ±significand · 2^exponent; zero keeps its sign. -/
structure Dyadic where
  negative : Bool
  significand : Nat
  exponent : Int
  deriving DecidableEq, Repr

/-- What a pattern stands for. -/
inductive Reading where
  | finite (value : Dyadic)
  | infinite (negative : Bool)
  | notANumber
  deriving DecidableEq, Repr

/-- The widths of a format's stored fraction and stored exponent. -/
structure Format where
  fractionBits : Nat
  exponentBits : Nat
  deriving DecidableEq, Repr

/-- Division rounded to the nearest integer, a half going to the even neighbour. -/
def roundDiv (n d : Nat) : Nat :=
  let q := n / d
  let r := n % d
  if d < 2 * r ∨ (d = 2 * r ∧ q % 2 = 1) then q + 1 else q

@[simp] theorem roundDiv_mul_right (q : Nat) {d : Nat} (hd : 0 < d) :
    roundDiv (q * d) d = q := by
  simp [roundDiv, Nat.mul_div_cancel _ hd, Nat.mul_mod_left, Nat.ne_of_gt hd]

namespace Format

def single : Format := ⟨23, 8⟩
def double : Format := ⟨52, 11⟩

/-- The exponent of the last place of the smallest numbers. -/
def leastExponent (f : Format) : Int := 2 - ↑(1 <<< (f.exponentBits - 1)) - f.fractionBits

def signBit (f : Format) : Nat := 1 <<< (f.fractionBits + f.exponentBits)

/-- The pattern of positive infinity, above every finite pattern without a sign. -/
def infinity (f : Format) : Nat := (1 <<< f.exponentBits - 1) <<< f.fractionBits

def decode (f : Format) (bits : Nat) : Reading :=
  let negative := decide (bits / f.signBit % 2 = 1)
  let exponent := (bits >>> f.fractionBits) % (1 <<< f.exponentBits)
  let fraction := bits % (1 <<< f.fractionBits)
  if exponent + 1 = 1 <<< f.exponentBits then
    if fraction = 0 then .infinite negative else .notANumber
  else if exponent = 0 then .finite ⟨negative, fraction, f.leastExponent⟩
  else .finite ⟨negative, 1 <<< f.fractionBits + fraction, f.leastExponent + (exponent - 1)⟩

/-- The unsigned pattern nearest to m · 2^q. Stored exponent and fraction are adjacent, so a
carry out of the fraction moves to the next exponent by itself. -/
def roundMagnitude (f : Format) (m : Nat) (q : Int) : Nat :=
  if m = 0 then 0
  else
    let place := max (q + m.log2 - f.fractionBits) f.leastExponent
    let scaled :=
      if place ≤ q then m <<< (q - place).toNat else roundDiv m (1 <<< (place - q).toNat)
    min f.infinity ((place - f.leastExponent).toNat <<< f.fractionBits + scaled)

/-- The pattern nearest to a number; numbers beyond the largest become infinite. -/
def round (f : Format) (d : Dyadic) : Nat :=
  (if d.negative then f.signBit else 0) + f.roundMagnitude d.significand d.exponent

/-- A pattern of what another pattern was read as. -/
def encode (f : Format) : Reading → Nat
  | .finite d => f.round d
  | .infinite negative => (if negative then f.signBit else 0) + f.infinity
  | .notANumber => f.infinity + 1 <<< (f.fractionBits - 1)

end Format

/-- The exact value of an integer. -/
def Dyadic.ofInt (n : Int) : Dyadic := ⟨n < 0, n.natAbs, 0⟩

def readDouble (x : Float) : Reading := Format.double.decode x.toBits.toNat
def readSingle (x : Float32) : Reading := Format.single.decode x.toBits.toNat

def toDouble (r : Reading) : Float := Float.ofBits (UInt64.ofNat (Format.double.encode r))
def toSingle (r : Reading) : Float32 := Float32.ofBits (UInt32.ofNat (Format.single.encode r))

/-- Widening is exact. -/
def widen (x : Float32) : Float := toDouble (readSingle x)

/-- Narrowing rounds to the nearest single, overflow giving an infinity. -/
def narrow (x : Float) : Float32 := toSingle (readDouble x)

def isFinite (x : Float) : Bool :=
  match readDouble x with
  | .finite _ => true
  | _ => false

namespace Dyadic

def signed (d : Dyadic) : Int := if d.negative then -d.significand else d.significand

/-- The greatest integer not above the number. -/
def floor (d : Dyadic) : Int :=
  if 0 ≤ d.exponent then d.signed * ↑(1 <<< d.exponent.toNat)
  else d.signed / ↑(1 <<< (-d.exponent).toNat)

end Dyadic
end RegionAccess.Number
