import Mathlib
import RegionAccess.Number.Binary

/-! The finite patterns of a format. Each stands for one number in canonical form, and rounding a
number that a pattern stands for finds that pattern, in whatever form the number is given. -/
namespace RegionAccess.Number
namespace Format

/-- The unsigned pattern of a number in canonical form. -/
def magnitude (f : Format) (m : Nat) (q : Int) : Nat :=
  (q - f.leastExponent).toNat * 2 ^ f.fractionBits + m

/-- The form in which a pattern holds a number: the significand fills the fraction unless the number
is among the smallest. -/
structure Canonical (f : Format) (m : Nat) (q : Int) : Prop where
  least : f.leastExponent ≤ q
  filled : 2 ^ f.fractionBits ≤ m ∨ q = f.leastExponent
  fits : m < 2 ^ (f.fractionBits + 1)
  finite : f.magnitude m q < f.infinity

def sign (f : Format) (negative : Bool) : Nat := if negative then f.signBit else 0

variable {f : Format}

theorem round_eq (d : Dyadic) :
    f.round d = f.sign d.negative + f.roundMagnitude d.significand d.exponent := rfl

theorem signBit_eq (f : Format) : f.signBit = 2 ^ f.fractionBits * 2 ^ f.exponentBits := by
  rw [signBit, Nat.one_shiftLeft, Nat.pow_add]

theorem infinity_eq (f : Format) :
    f.infinity = (2 ^ f.exponentBits - 1) * 2 ^ f.fractionBits := by
  rw [infinity, Nat.one_shiftLeft, Nat.shiftLeft_eq]

theorem infinity_lt_signBit (f : Format) : f.infinity < f.signBit := by
  rw [infinity_eq, signBit_eq, Nat.mul_comm]
  have hpos := Nat.two_pow_pos f.exponentBits
  exact Nat.mul_lt_mul_of_pos_left (by omega) (Nat.two_pow_pos _)

/-- The sign, exponent and fraction of a pattern are read from where they were put. -/
theorem decode_fields {fraction exponent : Nat} (hfraction : fraction < 2 ^ f.fractionBits)
    (hexponent : exponent + 1 < 2 ^ f.exponentBits) (negative : Bool) :
    f.decode (f.sign negative + (exponent * 2 ^ f.fractionBits + fraction)) =
      .finite (if exponent = 0 then ⟨negative, fraction, f.leastExponent⟩
        else ⟨negative, 2 ^ f.fractionBits + fraction, f.leastExponent + (exponent - 1)⟩) := by
  have hbits : f.sign negative + (exponent * 2 ^ f.fractionBits + fraction) =
      2 ^ f.fractionBits * (2 ^ f.exponentBits * negative.toNat + exponent) + fraction := by
    rw [Nat.mul_add, ← Nat.mul_assoc, ← signBit_eq, Nat.mul_comm exponent, ← Nat.add_assoc]
    cases negative <;> simp [sign]
  have hhigh : (f.sign negative + (exponent * 2 ^ f.fractionBits + fraction)) /
      2 ^ f.fractionBits = 2 ^ f.exponentBits * negative.toNat + exponent := by
    rw [hbits, Nat.mul_add_div (Nat.two_pow_pos _), Nat.div_eq_of_lt hfraction, Nat.add_zero]
  have hlow : (f.sign negative + (exponent * 2 ^ f.fractionBits + fraction)) %
      2 ^ f.fractionBits = fraction := by
    rw [hbits, Nat.mul_add_mod, Nat.mod_eq_of_lt hfraction]
  have hmiddle : (2 ^ f.exponentBits * negative.toNat + exponent) % 2 ^ f.exponentBits =
      exponent := by
    rw [Nat.mul_add_mod, Nat.mod_eq_of_lt (Nat.lt_of_succ_lt hexponent)]
  have htop : (2 ^ f.exponentBits * negative.toNat + exponent) / 2 ^ f.exponentBits =
      negative.toNat := by
    rw [Nat.mul_add_div (Nat.two_pow_pos _), Nat.div_eq_of_lt (Nat.lt_of_succ_lt hexponent),
      Nat.add_zero]
  have hnegative : decide (negative.toNat % 2 = 1) = negative := by cases negative <;> rfl
  rw [decode, signBit_eq, Nat.one_shiftLeft, Nat.one_shiftLeft, Nat.shiftRight_eq_div_pow,
    ← Nat.div_div_eq_div_mul, hhigh, hlow, hmiddle, htop, hnegative]
  simp only [if_neg (Nat.ne_of_lt hexponent)]
  split <;> rfl

/-- Below infinity every pattern stands for a number. -/
theorem decode_of_lt_infinity {p : Nat} (hp : p < f.infinity) (negative : Bool) :
    ∃ d, f.decode (f.sign negative + p) = .finite d := by
  have hb := Nat.two_pow_pos f.fractionBits
  have hexponent : p / 2 ^ f.fractionBits < 2 ^ f.exponentBits - 1 := by
    rw [Nat.div_lt_iff_lt_mul hb, ← infinity_eq]
    exact hp
  have hfields := decode_fields (Nat.mod_lt p hb) (Nat.add_lt_of_lt_sub hexponent) negative
  rw [Nat.mul_comm, Nat.div_add_mod] at hfields
  exact ⟨_, hfields⟩

theorem decode_magnitude {m : Nat} {q : Int} (h : f.Canonical m q) (negative : Bool) :
    f.decode (f.sign negative + f.magnitude m q) = .finite ⟨negative, m, q⟩ := by
  have hb := Nat.two_pow_pos f.fractionBits
  have hleast := h.least
  have hfinite := h.finite
  rw [infinity_eq] at hfinite
  by_cases hm : 2 ^ f.fractionBits ≤ m
  · have hmagnitude : f.magnitude m q =
        ((q - f.leastExponent).toNat + 1) * 2 ^ f.fractionBits + (m - 2 ^ f.fractionBits) := by
      rw [magnitude, Nat.add_mul]
      omega
    have hfraction : m - 2 ^ f.fractionBits < 2 ^ f.fractionBits := by
      have hfits := h.fits
      rw [Nat.pow_succ] at hfits
      omega
    have hexponent : (q - f.leastExponent).toNat + 1 < 2 ^ f.exponentBits - 1 := by
      rw [hmagnitude] at hfinite
      exact Nat.lt_of_mul_lt_mul_right (Nat.lt_of_le_of_lt (Nat.le_add_right ..) hfinite)
    rw [hmagnitude, decode_fields hfraction (Nat.add_lt_of_lt_sub hexponent), if_neg (by omega),
      Nat.add_sub_cancel' hm]
    congr 2
    omega
  · have hq : q = f.leastExponent := h.filled.resolve_left hm
    have hmagnitude : f.magnitude m q = 0 * 2 ^ f.fractionBits + m := by
      rw [magnitude, hq, Int.sub_self]
      rfl
    have hexponent : 0 < 2 ^ f.exponentBits - 1 :=
      Nat.pos_of_mul_pos_right (Nat.lt_of_le_of_lt (Nat.zero_le _) hfinite)
    have hfields := decode_fields (Nat.lt_of_not_le hm) (Nat.add_lt_of_lt_sub hexponent) negative
    rw [hmagnitude, hfields, if_pos rfl, hq]

/-- The largest exponent is for infinities and what is not a number. -/
theorem exponent_of_decode {bits : Nat} {d : Dyadic} (h : f.decode bits = .finite d) :
    bits / 2 ^ f.fractionBits % 2 ^ f.exponentBits + 1 < 2 ^ f.exponentBits := by
  refine Nat.lt_of_le_of_ne (Nat.mod_lt _ (Nat.two_pow_pos _)) fun hall => ?_
  simp only [decode, Nat.one_shiftLeft, Nat.shiftRight_eq_div_pow] at h
  rw [if_pos hall] at h
  split at h <;> cases h

/-- A pattern that stands for a number is the pattern of that number. -/
theorem canonical_of_decode {bits : Nat} {d : Dyadic} (hbits : bits < 2 * f.signBit)
    (h : f.decode bits = .finite d) :
    f.Canonical d.significand d.exponent ∧
      bits = f.sign d.negative + f.magnitude d.significand d.exponent := by
  have hb := Nat.two_pow_pos f.fractionBits
  let exponent := bits / 2 ^ f.fractionBits % 2 ^ f.exponentBits
  let fraction := bits % 2 ^ f.fractionBits
  let negative := decide (bits / f.signBit % 2 = 1)
  have hfraction : fraction < 2 ^ f.fractionBits := Nat.mod_lt _ hb
  have hsign : f.sign negative = f.signBit * (bits / f.signBit) := by
    have htop : bits / f.signBit < 2 := Nat.div_lt_of_lt_mul (by rwa [Nat.mul_comm] at hbits)
    rcases Nat.lt_succ_iff_lt_or_eq.mp htop with hzero | hone
    · simp [negative, sign, Nat.lt_one_iff.mp hzero]
    · simp [negative, sign, hone]
  have hsplit : bits = f.sign negative + (exponent * 2 ^ f.fractionBits + fraction) := by
    have hhigh := Nat.div_add_mod (bits / 2 ^ f.fractionBits) (2 ^ f.exponentBits)
    rw [Nat.div_div_eq_div_mul, ← signBit_eq] at hhigh
    have hlow := Nat.div_add_mod bits (2 ^ f.fractionBits)
    rw [hsign, signBit_eq, Nat.mul_assoc, Nat.mul_comm exponent, ← Nat.add_assoc, ← Nat.mul_add,
      ← signBit_eq, hhigh, hlow]
  have hordinary : exponent + 1 < 2 ^ f.exponentBits := exponent_of_decode h
  rw [hsplit, decode_fields hfraction hordinary] at h
  obtain rfl := Reading.finite.inj h
  have hmagnitude {m : Nat} {q : Int} (hleast : f.leastExponent ≤ q)
      (hfilled : 2 ^ f.fractionBits ≤ m ∨ q = f.leastExponent)
      (hfits : m < 2 ^ (f.fractionBits + 1))
      (hfields : f.magnitude m q = exponent * 2 ^ f.fractionBits + fraction) :
      f.Canonical m q ∧ bits = f.sign negative + f.magnitude m q := by
    refine ⟨⟨hleast, hfilled, hfits, ?_⟩, by rw [hfields]; exact hsplit⟩
    have hroom : (exponent + 1) * 2 ^ f.fractionBits ≤
        (2 ^ f.exponentBits - 1) * 2 ^ f.fractionBits :=
      Nat.mul_le_mul_right _ (Nat.le_sub_one_of_lt hordinary)
    rw [hfields, infinity_eq]
    rw [Nat.add_mul] at hroom
    omega
  have hfits : 2 ^ f.fractionBits + fraction < 2 ^ (f.fractionBits + 1) := by
    rw [Nat.pow_succ]
    omega
  split
  next hzero =>
    refine hmagnitude (Int.le_refl _) (.inr rfl) (Nat.lt_of_le_of_lt (Nat.le_add_left ..) hfits) ?_
    simp [magnitude, hzero]
  next hpos =>
    have hplace : (f.leastExponent + ((exponent : Int) - 1) - f.leastExponent).toNat + 1 =
        exponent := by omega
    refine hmagnitude (by dsimp only; omega) (.inl (Nat.le_add_right ..)) hfits ?_
    dsimp only
    rw [magnitude, ← Nat.add_assoc, ← Nat.succ_mul, Nat.succ_eq_add_one, hplace]

theorem log2_mul_two_pow {m : Nat} (hm : m ≠ 0) (k : Nat) : (m * 2 ^ k).log2 = m.log2 + k := by
  have hpos := Nat.two_pow_pos k
  refine (Nat.log2_eq_iff (Nat.mul_ne_zero hm (Nat.ne_of_gt hpos))).mpr ⟨?_, ?_⟩
  · rw [Nat.pow_add]
    exact Nat.mul_le_mul_right _ (Nat.log2_self_le hm)
  · rw [Nat.add_right_comm, Nat.pow_add]
    exact Nat.mul_lt_mul_of_pos_right Nat.lt_log2_self hpos

/-- The last place of a number in canonical form is where rounding would put it. -/
theorem Canonical.place_eq {m : Nat} {q : Int} (h : f.Canonical m q) (hm : m ≠ 0) :
    max (q + m.log2 - f.fractionBits) f.leastExponent = q := by
  have hleast := h.least
  have hlog : m.log2 < f.fractionBits + 1 := (Nat.log2_lt hm).mpr h.fits
  rcases h.filled with hfilled | rfl
  · have hlog' : f.fractionBits ≤ m.log2 := (Nat.le_log2 hm).mpr hfilled
    omega
  · omega

/-- Rounding finds the pattern of a number that is given in finer places. -/
theorem roundMagnitude_finer {m : Nat} {q : Int} (h : f.Canonical m q) (hm : m ≠ 0) (k : Nat) :
    f.roundMagnitude (m * 2 ^ k) (q - k) = f.magnitude m q := by
  have hpos := Nat.two_pow_pos k
  have hplace : max (q - k + ((m.log2 + k : Nat) : Int) - f.fractionBits) f.leastExponent = q := by
    have hplace := h.place_eq hm
    omega
  have hscaled : (if q ≤ q - k then (m * 2 ^ k) <<< (q - k - q).toNat
      else roundDiv (m * 2 ^ k) (1 <<< (q - (q - k)).toNat)) = m := by
    split
    next hk =>
      obtain rfl : k = 0 := by omega
      simp
    next =>
      have hshift : (q - (q - k)).toNat = k := by omega
      rw [hshift, Nat.one_shiftLeft, roundDiv_mul_right m hpos]
  simp only [roundMagnitude, log2_mul_two_pow hm, hplace]
  rw [if_neg (Nat.mul_ne_zero hm (Nat.ne_of_gt hpos)), hscaled, Nat.shiftLeft_eq]
  exact Nat.min_eq_right (Nat.le_of_lt h.finite)

/-- Rounding finds the pattern of a number that is given in coarser places. -/
theorem roundMagnitude_coarser {m k : Nat} {q : Int} (h : f.Canonical (m * 2 ^ k) q) (hm : m ≠ 0) :
    f.roundMagnitude m (q + k) = f.magnitude (m * 2 ^ k) q := by
  have hplace : max (q + k + (m.log2 : Int) - f.fractionBits) f.leastExponent = q := by
    have hplace := h.place_eq (Nat.mul_ne_zero hm (Nat.ne_of_gt (Nat.two_pow_pos k)))
    rw [log2_mul_two_pow hm] at hplace
    omega
  have hshift : (q + k - q).toNat = k := by omega
  simp only [roundMagnitude, hplace]
  rw [if_neg hm, if_pos (Int.le_add_of_nonneg_right (Int.natCast_nonneg k)), hshift,
    Nat.shiftLeft_eq, Nat.shiftLeft_eq]
  exact Nat.min_eq_right (Nat.le_of_lt h.finite)

theorem roundMagnitude_le_infinity (f : Format) (m : Nat) (q : Int) :
    f.roundMagnitude m q ≤ f.infinity := by
  unfold roundMagnitude
  split
  · exact Nat.zero_le _
  · exact Nat.min_le_left ..

theorem round_lt (f : Format) (d : Dyadic) : f.round d < 2 * f.signBit := by
  have hmagnitude := f.roundMagnitude_le_infinity d.significand d.exponent
  have hinfinity := f.infinity_lt_signBit
  rw [round_eq, sign]
  split <;> omega

theorem roundDiv_le (n d : Nat) : roundDiv n d ≤ n / d + 1 := by
  unfold roundDiv
  dsimp only
  split <;> omega

/-- Scaled to a full fraction, a whole number has no more than one place beyond it. -/
theorem scaled_le {m : Nat} {place : Int} (hplace : place = m.log2 - f.fractionBits) :
    (if place ≤ 0 then m <<< (0 - place).toNat else roundDiv m (1 <<< (place - 0).toNat)) ≤
      2 * 2 ^ f.fractionBits := by
  have hm : m < 2 ^ (m.log2 + 1) := Nat.lt_log2_self
  rw [← Nat.pow_succ', Nat.succ_eq_add_one]
  split
  next hsmall =>
    have hshift : m.log2 + 1 + (0 - place).toNat = f.fractionBits + 1 := by omega
    rw [Nat.shiftLeft_eq, ← hshift, Nat.pow_add]
    exact Nat.mul_le_mul_right _ (Nat.le_of_lt hm)
  next hlarge =>
    have hshift : m.log2 + 1 = f.fractionBits + 1 + (place - 0).toNat := by omega
    rw [hshift, Nat.pow_add, Nat.mul_comm] at hm
    rw [Nat.one_shiftLeft]
    exact Nat.le_trans (roundDiv_le ..) (Nat.div_lt_of_lt_mul hm)

/-- Whole numbers well within the range of a format are not rounded to infinity. -/
theorem roundMagnitude_lt_infinity {m : Nat} {place : Int}
    (hplace : place = m.log2 - f.fractionBits) (hleast : f.leastExponent ≤ place)
    (hroom : (place - f.leastExponent).toNat + 2 < 2 ^ f.exponentBits - 1) :
    f.roundMagnitude m 0 < f.infinity := by
  have hb := Nat.two_pow_pos f.fractionBits
  have hscaled := scaled_le hplace
  unfold roundMagnitude
  split
  next =>
    rw [infinity_eq]
    exact Nat.mul_pos (by omega) hb
  next =>
    refine Nat.lt_of_le_of_lt (Nat.min_le_right ..) ?_
    simp only [Int.zero_add, ← hplace, Int.max_eq_left hleast]
    rw [infinity_eq, Nat.shiftLeft_eq]
    refine Nat.lt_of_le_of_lt (Nat.add_le_add_left hscaled _) ?_
    rw [← Nat.add_mul]
    exact Nat.mul_lt_mul_of_pos_right hroom hb

end Format
end RegionAccess.Number
