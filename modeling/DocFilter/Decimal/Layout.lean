import DocFilter.Decimal.Shortest

/-!
# Writing floats

How the shortest decimal of a float is spelled: positional for moderate magnitudes and with an exponent for the
others.  A `Layout` fixes where the positional magnitudes begin and end.
-/

namespace DocFilter

/-- Numbers from `10 ^ lowest` to below `10 ^ bound` are written positionally. -/
structure Layout where
  lowest : Int
  bound : Int
  deriving DecidableEq, Repr

namespace Layout

/-- Digits with a point in them, at least one digit on either side of it. -/
def positional (digits : List Char) (exponent : Int) : List Char :=
  let front := digits.length + exponent
  if 0 ≤ exponent then
    digits ++ List.replicate exponent.toNat '0' ++ ['.', '0']
  else if 0 < front then
    digits.take front.toNat ++ '.' :: digits.drop front.toNat
  else
    '0' :: '.' :: List.replicate (-front).toNat '0' ++ digits

/-- One digit, a point and the others if there are any, and the exponent with its sign. -/
def scientific (digits : List Char) (exponent : Int) : List Char :=
  let magnitude := exponent + digits.length - 1
  let mantissa :=
    match digits with
    | first :: second :: rest => first :: '.' :: second :: rest
    | few => few
  mantissa ++ 'e' :: (if magnitude < 0 then '-' else '+') :: Nat.toDigits 10 magnitude.natAbs

/-- The spelling of a decimal. -/
def write (layout : Layout) (d : Decimal) : List Char :=
  let digits := Nat.toDigits 10 d.digits
  let magnitude := d.exponent + digits.length - 1
  if d.digits = 0 ∨ layout.lowest ≤ magnitude ∧ magnitude < layout.bound then positional digits d.exponent
  else scientific digits d.exponent

/-- The spelling of a finite float; a zero keeps its sign. -/
def writeFloat (layout : Layout) (x : Float) : String :=
  let digits := layout.write (Decimal.shortest x)
  String.ofList (if 0x8000000000000000 ≤ x.toBits.toNat then '-' :: digits else digits)

end Layout

end DocFilter
