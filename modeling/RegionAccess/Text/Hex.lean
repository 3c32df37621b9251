/-! Hexadecimal digits: the lower-case digits of a fixed width, and a reader for either case. -/
namespace RegionAccess.Text

def hexDigit (n : Nat) : Char := Char.ofNat (if n < 10 then 48 + n else 87 + n)

def hexValue? (c : Char) : Option Nat :=
  let n := c.toNat
  if 48 ≤ n ∧ n ≤ 57 then some (n - 48)
  else if 97 ≤ n ∧ n ≤ 102 then some (n - 87)
  else if 65 ≤ n ∧ n ≤ 70 then some (n - 55)
  else none

/-- The last digits of a number, led by zeros. -/
def hexDigits : Nat → Nat → List Char
  | 0, _ => []
  | width + 1, n => hexDigits width (n / 16) ++ [hexDigit (n % 16)]

def readHex? (cs : List Char) : Option Nat :=
  cs.foldlM (fun n c => (hexValue? c).map (n * 16 + ·)) 0

@[simp] theorem length_hexDigits (width n : Nat) : (hexDigits width n).length = width := by
  induction width generalizing n with
  | zero => rfl
  | succ width ih => simp [hexDigits, ih]

theorem hexValue?_hexDigit : ∀ n < 16, hexValue? (hexDigit n) = some n := by decide

@[simp] theorem readHex?_hexDigits (width n : Nat) :
    readHex? (hexDigits width n) = some (n % Nat.pow 16 width) := by
  induction width generalizing n with
  | zero => simp [hexDigits, readHex?, Nat.mod_one]
  | succ width ih =>
    have h := ih (n / 16)
    simp only [readHex?] at h
    simp only [hexDigits, readHex?, List.foldlM_append, h, List.foldlM_cons, List.foldlM_nil,
      hexValue?_hexDigit _ (Nat.mod_lt n (by decide))]
    simp only [Option.bind_eq_bind, Option.bind_some, Option.map_some, Option.pure_def,
      Option.some.injEq]
    rw [Nat.pow_eq, Nat.pow_eq, Nat.pow_succ', Nat.mod_mul, Nat.mul_comm, Nat.add_comm]

end RegionAccess.Text
