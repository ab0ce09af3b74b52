/-!
# Decimal numbers

A decimal is a whole number times a power of ten.  `Decimal.toFloat` is the nearest binary64 number, a tie going to
the even neighbour and values too large for the format to infinity.
-/

namespace DocFilter

/-- The number `digits * 10 ^ exponent`. -/
structure Decimal where
  digits : Nat
  exponent : Int
  deriving DecidableEq, Repr

/-- Positive infinity. -/
def infinity : Float :=
  Float.ofBits 0x7ff0000000000000

namespace Decimal

/-- The number that decimal digits write, the most significant first, behind digits of value `front`. -/
def ofDigits (front : Nat) (ds : List Char) : Nat :=
  ds.foldl (fun n c => 10 * n + (c.toNat - '0'.toNat)) front

theorem le_ofDigits (front : Nat) (ds : List Char) : front ≤ ofDigits front ds := by
  induction ds generalizing front with
  | nil => exact Nat.le_refl front
  | cons c cs ih =>
    have hnext : 10 * front + (c.toNat - '0'.toNat) ≤ ofDigits front (c :: cs) := ih _
    omega

/-- The number whose digits stand before and behind the decimal point, times `10 ^ exponent`. -/
def ofParts (whole fraction : List Char) (exponent : Int) : Decimal :=
  ⟨ofDigits (ofDigits 0 whole) fraction, exponent - fraction.length⟩

/-- The nearest binary64 number.  Below `10 ^ -400` that is zero and from `10 ^ 400` on it is infinity, so no power
of ten of more digits than the number itself is computed. -/
def toFloat (d : Decimal) : Float :=
  if d.digits = 0 ∨ d.exponent + d.digits.log2 < -400 then 0.0
  else if 400 ≤ d.exponent then infinity
  else Float.ofScientific d.digits (d.exponent < 0) d.exponent.natAbs

end Decimal

end DocFilter
