import DocFilter.Value

/-!
# Floats that equal themselves

A float equals itself unless it is not a number (`beq_self_eq_not_isNaN`), and no whole number becomes one that is not
(`isNaN_ofInt`): packing a float keeps it a number (`isNaN_pack`), and a product or a rounded number is one, however
large it gets.
-/

namespace DocFilter

open Float.Model (Format UnpackedFloat)
open Float.Model.UnpackedFloat (Accuracy pack unpack unpackExponent unpackMantissa unpackExponent_packComponents
  unpackMantissa_packComponents roundWithAccuracy shiftToTargetExponent)

theorem unpacked_beq_self (u : UnpackedFloat) : u.beq u = !u.isNaN := by
  cases u with
  | notANumber => rfl
  | infinity sign | zero sign => cases sign <;> rfl
  | finite sign mantissa exponent hpos =>
    have hsame : (compare exponent exponent).then (compare mantissa mantissa) = .eq := by simp
    cases sign with
    | positive => exact congrArg (some · == some Ordering.eq) hsame
    | negative => exact congrArg (fun o => some o.swap == some Ordering.eq) hsame

/-- A float equals itself exactly if it is a number. -/
theorem beq_self_eq_not_isNaN (x : Float) : (x == x) = !x.isNaN :=
  unpacked_beq_self x.toModel.unpack

/-! ### Packing -/

private theorem isNaN_unpack {bits : BitVec Format.binary64.numBits}
    (h : unpackExponent bits = -1#11 → unpackMantissa bits = 0#52) : (unpack .binary64 bits).isNaN = false := by
  unfold unpack
  dsimp only
  by_cases hlargest : unpackExponent bits = -1#11
  · rw [if_pos hlargest, if_pos (h hlargest)]
    rfl
  rw [if_neg hlargest]
  by_cases hexponent : unpackExponent bits = 0#11
  · rw [if_pos hexponent]
    by_cases hmantissa : unpackMantissa bits = 0#52
    · rw [dif_pos hmantissa]
      rfl
    · rw [dif_neg hmantissa]
      rfl
  · rw [if_neg hexponent]
    rfl

/-- A number that is packed is a number again, or infinity if it is too large. -/
theorem isNaN_pack {u : UnpackedFloat} (h : u.isNaN = false) : (Float.ofModel (.pack u)).isNaN = false := by
  refine isNaN_unpack fun hlargest => ?_
  cases u with
  | notANumber => cases h
  | infinity sign | zero sign => exact unpackMantissa_packComponents
  | finite sign mantissa exponent hpos =>
    revert hlargest
    show unpackExponent (pack .binary64 _) = _ → unpackMantissa (pack .binary64 _) = _
    delta Float.Model.UnpackedFloat.pack
    dsimp only
    split
    · exact fun _ => unpackMantissa_packComponents
    · rename_i hsmall
      split
      · rw [unpackExponent_packComponents]
        intro hlargest
        -- an exponent that fits is less than the largest one
        have hfits : ¬2 ^ 11 ≤ (exponent + Format.binary64.exponentBias + 52).toNat + 1 := hsmall
        have hvalue : (exponent + Format.binary64.exponentBias + 52).toNat % 2 ^ 11 = 2047 :=
          congrArg BitVec.toNat hlargest
        omega
      · rw [unpackExponent_packComponents]
        exact fun hlargest => absurd hlargest (by decide)

/-! ### Whole numbers -/

private theorem isNaN_round (sign : UnpackedFloat.Sign) (mantissa : Nat) (exponent : Int) (accuracy : Accuracy) :
    (roundWithAccuracy .binary64 sign mantissa exponent accuracy).isNaN = false := by
  unfold roundWithAccuracy
  dsimp only
  generalize shiftToTargetExponent .binary64 _ _ .exact = last
  by_cases hzero : last.1.mantissa = 0
  · rw [dif_pos hzero]
    rfl
  · rw [dif_neg hzero]
    rfl

/-- A product is a number if one of the factors is finite and neither of them zero. -/
private theorem isNaN_mul_finite {u : UnpackedFloat} (h : u.isNaN = false) {sign : UnpackedFloat.Sign} {mantissa : Nat}
    {exponent : Int} (hpos : 0 < mantissa) : (u.mul .binary64 (.finite sign mantissa exponent hpos)).isNaN = false := by
  cases u with
  | notANumber => cases h
  | infinity | zero => rfl
  | finite => exact isNaN_round ..

private theorem isNaN_normalize (n : Int) : (UnpackedFloat.ofInt .binary64 n).isNaN = false := by
  unfold UnpackedFloat.ofInt UnpackedFloat.normalize
  split
  · exact isNaN_round ..
  · rfl
  · exact isNaN_round ..

private theorem isNaN_ofScientific_zero (n : Nat) : (UnpackedFloat.ofScientific .binary64 n 0).isNaN = false := by
  unfold UnpackedFloat.ofScientific
  by_cases hn : n = 0
  · rw [dif_pos hn]
    rfl
  · have hhigh : ¬(0 : Int) > 2 ^ Format.binary64.exponentBits := by decide
    have hlow : ¬(0 : Int) < -(2 ^ Format.binary64.exponentBits + (n.log2 : Int)) := by
      have hpower : (0 : Int) ≤ 2 ^ Format.binary64.exponentBits := by decide
      omega
    rw [dif_neg hn, if_neg hhigh, if_neg hlow, if_pos (Int.le_refl 0)]
    exact isNaN_mul_finite rfl _

/-- A whole number becomes a number, or infinity if it is too large. -/
theorem isNaN_ofNat (n : Nat) : (Float.ofNat n).isNaN = false := by
  show (Float.ofScientific n false 0).isNaN = false
  unfold Float.ofScientific
  split
  · -- a short number is converted by itself and multiplied by one
    have hone : Float.exactlyRepresentablePowersOfTen[0].toModel.unpack =
        .finite .positive 4503599627370496 (-52) (by decide) := rfl
    have hshort : (Float.ofModel (.pack (UnpackedFloat.ofInt .binary64 n.toUInt64.toNat))).isNaN = false :=
      isNaN_pack (isNaN_normalize _)
    refine isNaN_pack ?_
    rw [hone]
    exact isNaN_mul_finite hshort _
  · show (Float.ofModel (.pack (UnpackedFloat.ofScientific .binary64 n 0))).isNaN = false
    exact isNaN_pack (isNaN_ofScientific_zero n)

private theorem unpacked_isNaN_neg (u : UnpackedFloat) : u.neg.isNaN = u.isNaN := by
  cases u <;> rfl

/-- A sign in front of a number makes a number. -/
theorem isNaN_neg {x : Float} (h : x.isNaN = false) : (-x).isNaN = false :=
  isNaN_pack ((unpacked_isNaN_neg _).trans h)

theorem isNaN_ofInt (n : Int) : (Float.ofInt n).isNaN = false := by
  cases n with
  | ofNat n => exact isNaN_ofNat n
  | negSucc n => exact isNaN_neg (isNaN_ofNat (n + 1))

end DocFilter
