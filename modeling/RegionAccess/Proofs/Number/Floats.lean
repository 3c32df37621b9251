import RegionAccess.Proofs.Number.Patterns

/-! Floating-point numbers by their patterns: a finite single survives being widened, and whole
numbers of 64 bits have a finite double. -/
namespace RegionAccess.Number
open Format Float.Model.UnpackedFloat

theorem exponent_lt_of_single {m : Nat} {q : Int} (h : single.magnitude m q < single.infinity) :
    (q - single.leastExponent).toNat < 255 := by
  have hinfinity : single.infinity = 255 * 2 ^ 23 := by decide
  rw [magnitude, hinfinity, show single.fractionBits = 23 from rfl] at h
  omega

theorem lt_infinity_double {m : Nat} {q : Int} (hq : (q - double.leastExponent).toNat ≤ 2000)
    (hm : m < 2 ^ 53) : double.magnitude m q < double.infinity := by
  have hinfinity : double.infinity = 2047 * 2 ^ 52 := by decide
  rw [magnitude, hinfinity, show double.fractionBits = 52 from rfl]
  omega

/-- A number that a single holds is held by a double too, and rounds back to the single. -/
theorem exists_widened {m : Nat} {q : Int} (h : single.Canonical m q) :
    ∃ m' q', double.Canonical m' q' ∧ double.roundMagnitude m q = double.magnitude m' q' ∧
      single.roundMagnitude m' q' = single.magnitude m q := by
  have hleast : single.leastExponent = -149 := by decide
  have hleast' : double.leastExponent = -1074 := by decide
  by_cases hm : m = 0
  · subst hm
    have hq : q = single.leastExponent := h.filled.resolve_left (by decide)
    refine ⟨0, double.leastExponent, ⟨le_rfl, .inr rfl, by decide, by decide⟩, ?_, ?_⟩
    · rfl
    · rw [hq]
      rfl
  · have hfits : m < 2 ^ 24 := h.fits
    have hlog : m.log2 ≤ 23 := Nat.lt_succ_iff.mp ((Nat.log2_lt hm).mpr hfits)
    obtain ⟨k, hk⟩ : ∃ k, m.log2 + k = 52 := ⟨52 - m.log2, by omega⟩
    have hlow : 2 ^ 52 ≤ m * 2 ^ k := by
      rw [← hk, pow_add]
      exact Nat.mul_le_mul_right _ (Nat.log2_self_le hm)
    have hhigh : m * 2 ^ k < 2 ^ 53 := by
      rw [← Nat.log2_lt (by positivity), log2_mul_two_pow hm, hk]
      decide
    have hcanonical : double.Canonical (m * 2 ^ k) (q - k) := by
      have hq : -149 ≤ q := hleast ▸ h.least
      have hplace := exponent_lt_of_single h.finite
      exact ⟨by omega, .inl hlow, hhigh, lt_infinity_double (by omega) hhigh⟩
    refine ⟨m * 2 ^ k, q - k, hcanonical, ?_, roundMagnitude_finer h hm k⟩
    have hcoarser := roundMagnitude_coarser hcanonical hm
    rwa [Int.sub_add_cancel] at hcoarser

/-- A pattern that is read as a number is no not-a-number, and is kept by the double it makes. -/
theorem toNat_toBits_ofBits {bits : Nat} {d : Dyadic} (hbits : bits < 2 ^ 64)
    (h : double.decode bits = .finite d) :
    (Float.ofBits (UInt64.ofNat bits)).toBits.toNat = bits := by
  have hexponent : @unpackExponent .binary64 (UInt64.ofNat bits).toBitVec ≠ -1#11 := fun hall => by
    have hfield : bits / 2 ^ 52 % 2 ^ 11 + 1 < 2 ^ 11 := exponent_of_decode h
    replace hall := congrArg BitVec.toNat hall
    rw [unpackExponent_def, BitVec.extractLsb'_toNat, Nat.shiftRight_eq_div_pow] at hall
    have hbits' : (UInt64.ofNat bits).toBitVec.toNat = bits := UInt64.toNat_ofNat_of_lt' hbits
    rw [hbits'] at hall
    exact Nat.ne_of_lt hfield (congrArg (· + 1) hall)
  have hkept := @pack_unpack .binary64 (UInt64.ofNat bits).toBitVec (by decide)
  rw [isNaNBits, decide_eq_false fun hall => hexponent hall.1] at hkept
  have htoBits : (Float.ofBits (UInt64.ofNat bits)).toBits = UInt64.ofNat bits :=
    congrArg UInt64.ofBitVec hkept
  rw [htoBits, UInt64.toNat_ofNat_of_lt' hbits]

theorem readDouble_toDouble {d d' : Dyadic} (h : double.decode (double.round d) = .finite d') :
    readDouble (toDouble (.finite d)) = .finite d' := by
  rw [readDouble, toDouble, encode, toNat_toBits_ofBits (double.round_lt d) h, h]

def isFiniteSingle (x : Float32) : Bool :=
  match readSingle x with
  | .finite _ => true
  | _ => false

theorem exists_of_isFiniteSingle {x : Float32} (h : isFiniteSingle x = true) :
    ∃ d, readSingle x = .finite d := by
  unfold isFiniteSingle at h
  split at h
  next d hd => exact ⟨d, hd⟩
  next => cases h

/-- A finite single is widened to a finite double, and narrowing that gives it back. -/
theorem narrow_widen {x : Float32} (hx : isFiniteSingle x = true) :
    isFinite (widen x) = true ∧ narrow (widen x) = x := by
  obtain ⟨d, h⟩ := exists_of_isFiniteSingle hx
  obtain ⟨hcanonical, hbits⟩ := canonical_of_decode x.toBits.toNat_lt h
  obtain ⟨m', q', hcanonical', hround, hround'⟩ := exists_widened hcanonical
  have hread : readDouble (widen x) = .finite ⟨d.negative, m', q'⟩ := by
    rw [widen, h]
    apply readDouble_toDouble
    rw [round_eq, hround]
    exact decode_magnitude hcanonical' d.negative
  refine ⟨by rw [isFinite, hread], ?_⟩
  rw [narrow, hread, toSingle, encode, round_eq, hround', ← hbits]
  exact (congrArg Float32.ofBits UInt32.ofNat_toNat).trans x.ofBits_toBits

/-- Whole numbers of 64 bits, with a sign or without, are near finite doubles. -/
theorem isFinite_toDouble_ofInt {n : Int} (h : n.natAbs < 2 ^ 64) :
    isFinite (toDouble (.finite (.ofInt n))) = true := by
  have hlog : n.natAbs.log2 < 64 := by
    by_cases hzero : n.natAbs = 0
    · rw [hzero]
      decide
    · exact (Nat.log2_lt hzero).mpr h
  have hleast : double.leastExponent = -1074 := by decide
  have hfinite : double.roundMagnitude n.natAbs 0 < double.infinity := by
    have hplace : (n.natAbs.log2 : Int) - double.fractionBits = n.natAbs.log2 - 52 := rfl
    refine roundMagnitude_lt_infinity hplace.symm (by omega) ?_
    show ((n.natAbs.log2 : Int) - 52 - double.leastExponent).toNat + 2 < 2 ^ 11 - 1
    omega
  obtain ⟨d, hd⟩ := decode_of_lt_infinity hfinite (decide (n < 0))
  have hround : double.round (.ofInt n) =
      double.sign (decide (n < 0)) + double.roundMagnitude n.natAbs 0 := round_eq _
  rw [← hround] at hd
  rw [isFinite, readDouble_toDouble hd]

end RegionAccess.Number
