/-!
# Digits

The values of ASCII digits, letters included, in bases up to sixteen.
-/

namespace DocFilter

/-- The value of a digit; letters of either case stand for ten to fifteen. -/
def digitValue? (c : Char) : Option Nat :=
  if '0' ≤ c ∧ c ≤ '9' then some (c.toNat - '0'.toNat)
  else if 'a' ≤ c ∧ c ≤ 'f' then some (c.toNat - 'a'.toNat + 10)
  else if 'A' ≤ c ∧ c ≤ 'F' then some (c.toNat - 'A'.toNat + 10)
  else none

/-- Whether a character is a digit of the given base. -/
def isDigitIn (radix : Nat) (c : Char) : Bool :=
  (digitValue? c).any (· < radix)

end DocFilter
