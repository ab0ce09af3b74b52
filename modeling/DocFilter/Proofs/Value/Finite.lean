import DocFilter.Json
import Mathlib.Algebra.Group.Nat.Defs

/-!
# Whole numbers as floats

A whole number that needs all 64 bits is far below the largest float, so it becomes a finite one (`isFinite_ofInt`).
The bounds are generous: rounding shortens the significand of a float and raises its exponent by no more than that is
long.
-/

namespace DocFilter

open Float.Model (Format totalExponent)
open Float.Model.UnpackedFloat (Accuracy ExtendedMantissa pack unpack unpackExponent unpackMantissa
  unpackExponent_packComponents shiftToExponent shiftToTargetExponent roundWithAccuracy ofScientific)

/-! ### Packing -/

private theorem isFinite_unpack {bits : BitVec Format.binary64.numBits}
    (h : unpackExponent bits ≠ -1#11) :
    (unpack .binary64 bits).isFinite := by
  unfold unpack
  dsimp only
  rw [if_neg h]
  by_cases hexponent : unpackExponent bits = 0#11
  · rw [if_pos hexponent]
    by_cases hmantissa : unpackMantissa bits = 0#52
    · rw [dif_pos hmantissa]
      rfl
    · rw [dif_neg hmantissa]
      rfl
  · rw [if_neg hexponent]
    rfl

private theorem isFinite_pack_finite {sign : Float.Model.UnpackedFloat.Sign} {mantissa : Nat} {exponent : Int}
    (hpos : 0 < mantissa) (h : exponent ≤ 900) :
    (Float.ofModel (.pack (.finite sign mantissa exponent hpos))).isFinite := by
  refine isFinite_unpack ?_
  show unpackExponent (pack .binary64 _) ≠ _
  have hbias : Format.binary64.exponentBias = 1023 := rfl
  delta Float.Model.UnpackedFloat.pack
  dsimp only
  rw [hbias]
  have hfits : ¬2 ^ 11 ≤ (exponent + 1023 + 52).toNat + 1 := by omega
  split
  · rename_i hoverflow
    exact absurd hoverflow hfits
  · split
    · rw [unpackExponent_packComponents]
      intro heq
      have hvalue : (exponent + 1023 + 52).toNat % 2 ^ 11 = 2047 := congrArg BitVec.toNat heq
      omega
    · rw [unpackExponent_packComponents]
      decide

/-! ### Rounding -/

private theorem mantissa_repeat_le (em : ExtendedMantissa) (n : Nat) :
    (n.repeat ExtendedMantissa.shiftRightOne em).mantissa ≤ em.mantissa := by
  induction n with
  | zero => exact Nat.le_refl _
  | succ n ih => exact Nat.le_trans (Nat.div_le_self ..) ih

private theorem roundedMantissa_le (em : ExtendedMantissa) : em.roundedMantissa ≤ em.mantissa + 1 := by
  obtain ⟨mantissa, roundBit, stickyBit⟩ := em
  cases roundBit <;> cases stickyBit
  · exact Nat.le_succ _
  · exact Nat.le_succ _
  · show mantissa + mantissa % 2 ≤ mantissa + 1
    omega
  · exact Nat.le_refl _

/-- Moving a significand to its place shortens it, and raises the exponent to the place at most. -/
private theorem shift_bounds {mantissa : Nat} (exponent : Int) (accuracy : Accuracy) {bits : Nat}
    (hmantissa : mantissa < 2 ^ bits) :
    (shiftToTargetExponent .binary64 mantissa exponent accuracy).1.mantissa ≤ mantissa ∧
      (shiftToTargetExponent .binary64 mantissa exponent accuracy).2 ≤
        max exponent (max (bits + exponent - 52) (-1074)) := by
  have hlog : mantissa.log2 ≤ bits := by
    by_cases hzero : mantissa = 0
    · rw [hzero]
      exact Nat.zero_le bits
    · exact Nat.le_of_lt ((Nat.log2_lt hzero).2 hmantissa)
  have htarget : Format.binary64.targetExponent (totalExponent mantissa exponent) =
      max (mantissa.log2 + 1 + exponent - 53) (-1074) := rfl
  have hinitial : (ExtendedMantissa.ofMantissaAndAccuracy mantissa accuracy).mantissa = mantissa := by
    rcases accuracy with _ | (_ | _ | _) <;> rfl
  unfold shiftToTargetExponent shiftToExponent
  dsimp only
  rw [htarget]
  constructor
  · exact Nat.le_trans (mantissa_repeat_le _ _) (Nat.le_of_eq hinitial)
  · omega

private theorem isFinite_round (sign : Float.Model.UnpackedFloat.Sign) {mantissa : Nat} {exponent : Int}
    (hmantissa : mantissa < 2 ^ 120) (hexponent : exponent ≤ 0) :
    (Float.ofModel (.pack (roundWithAccuracy .binary64 sign mantissa exponent .exact))).isFinite := by
  obtain ⟨hshort, hplace⟩ := shift_bounds exponent .exact hmantissa
  unfold roundWithAccuracy
  revert hshort hplace
  generalize shiftToTargetExponent .binary64 mantissa exponent .exact = first
  obtain ⟨em, e⟩ := first
  intro hshort hplace
  dsimp only at hshort hplace ⊢
  -- rounding up adds one, which can make the significand longer once more
  have hrounded : em.roundedMantissa < 2 ^ 121 := by
    have := roundedMantissa_le em
    omega
  obtain ⟨-, hplace'⟩ := shift_bounds e .exact hrounded
  by_cases hzero : (shiftToTargetExponent .binary64 em.roundedMantissa e .exact).1.mantissa = 0
  · rw [dif_pos hzero]
    cases sign <;> rfl
  · rw [dif_neg hzero]
    exact isFinite_pack_finite _ (by omega)

/-- A whole number that needs all 64 bits becomes a finite float. -/
theorem isFinite_ofInt {n : Int} (hlow : 9223372036854775808 ≤ n) (hhigh : n < 18446744073709551616) :
    (Float.ofInt n).isFinite := by
  obtain ⟨k, rfl⟩ := Int.eq_ofNat_of_zero_le (by omega : 0 ≤ n)
  have hround : ofScientific .binary64 k 0 =
      roundWithAccuracy .binary64 .positive ((k <<< 53) * 1) (-53 + 0) .exact := by
    have hpos : ¬k = 0 := by omega
    have hlarge : ¬(0 : Int) > 2 ^ Format.binary64.exponentBits := by decide
    have hsmall : ¬(0 : Int) < -(2 ^ Format.binary64.exponentBits + k.log2) := by
      show ¬(0 : Int) < -(2048 + k.log2)
      omega
    rw [ofScientific, dif_neg hpos, if_neg hlarge, if_neg hsmall, if_pos (Int.le_refl 0)]
    rfl
  show (Float.ofScientific k false 0).isFinite
  unfold Float.ofScientific
  split
  · rename_i hfast
    have : k < 9007199254740992 := hfast.1
    omega
  · show (Float.ofModel (.pack (ofScientific .binary64 k 0))).isFinite
    rw [hround]
    refine isFinite_round _ ?_ (by decide)
    rw [Nat.shiftLeft_eq]
    omega

end DocFilter
