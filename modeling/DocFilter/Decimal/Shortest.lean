import DocFilter.Decimal

/-!
# The shortest decimal of a float

Among the decimals that read back as a given float, `Decimal.shortest` is one of fewest digits, and among those the
nearest.  It tries the multiples of `10 ^ k` next to the float for descending `k`: the first `k` with a multiple
among the reals that round to the float needs the fewest digits.  All comparisons are of whole numbers.
-/

namespace DocFilter

/-- The positive float `significand * 2 ^ exponent`; `isPower` tells that the next smaller float is only half as far
away as the next larger one. -/
structure Binary where
  significand : Nat
  exponent : Int
  isPower : Bool
  deriving DecidableEq, Repr

namespace Binary

/-- The absolute value of a finite float, by the fields of its binary64 encoding. -/
def ofFloat (x : Float) : Binary :=
  let bits := x.toBits.toNat
  let fraction : Nat := bits % 0x10000000000000
  let biased : Nat := bits / 0x10000000000000 % 0x800
  if biased = 0 then ⟨fraction, -1074, false⟩
  else ⟨0x10000000000000 + fraction, Int.ofNat biased - 1075, fraction = 0 ∧ 1 < biased⟩

end Binary

namespace Decimal

/-- The multiple of `10 ^ k` that rounds to `b` and is nearest to it, if there is one; of two equally near ones the
even multiple.  With the float, the ends of its rounding interval and `10 ^ k` all measured in units of a common
fraction, the interval includes its ends exactly if the significand is even. -/
def nearestMultiple? (b : Binary) (k : Int) : Option Nat :=
  let quarter := Nat.pow 2 (b.exponent - 2).toNat * Nat.pow 10 (-k).toNat
  let unit := Nat.pow 2 (2 - b.exponent).toNat * Nat.pow 10 k.toNat
  let value := 4 * b.significand * quarter
  let low := value - (if b.isPower then 1 else 2) * quarter
  let high := value + 2 * quarter
  let rounds (n : Nat) : Bool :=
    if b.significand % 2 = 0 then low ≤ n * unit ∧ n * unit ≤ high else low < n * unit ∧ n * unit < high
  let below := value / unit
  let above := below + 1
  match rounds below, rounds above with
  | false, false => none
  | true, false => some below
  | false, true => some above
  | true, true =>
    let rise := above * unit - value
    let fall := value - below * unit
    some (if fall < rise then below else if rise < fall then above else if below % 2 = 0 then below else above)

/-- The nearest multiple of the largest of the powers `10 ^ k`, `10 ^ (k - 1)`, … that has one. -/
def firstMultiple (b : Binary) (k : Int) : (steps : Nat) → Decimal
  | 0 => ⟨b.significand, 0⟩
  | steps + 1 =>
    match nearestMultiple? b k with
    | some n => ⟨n, k⟩
    | none => firstMultiple b (k - 1) steps

/-- An exponent `k` such that no power of ten beyond `10 ^ k` rounds to the float. -/
def magnitudeBound (b : Binary) : Int :=
  (b.exponent + b.significand.log2 + 1) * 30103 / 100000 + 2

/-- The shortest decimal that reads back as the finite float `x`, the sign left out. -/
def shortest (x : Float) : Decimal :=
  let b := Binary.ofFloat x
  if b.significand = 0 then ⟨0, 0⟩ else firstMultiple b (magnitudeBound b) 22

end Decimal

end DocFilter
