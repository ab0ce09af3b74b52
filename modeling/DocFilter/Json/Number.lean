import DocFilter.Decimal.Layout
import DocFilter.Json
import DocFilter.Json.Quoted

/-!
# JSON numbers

How numbers are read and written.  A number without point and exponent is whole if 64 bits hold it; any other number
is a float, and one that is too large for a float is an error.  A minus sign in front of zero is kept by making it a
float.

The float is not always the nearest one.  It is computed from a significand of 64 bits and a power of ten, and the
significand, the power and their product or quotient are rounded one after another.
-/

namespace DocFilter
namespace Json
namespace Number

/-- Floats are written positionally from `10 ^ -5` to below `10 ^ 16`. -/
def layout : Layout :=
  ⟨-5, 16⟩

def write : Number → String
  | integer n _ => toString n
  | float x _ => layout.writeFloat x

/-- A float with the given sign, if it is finite. -/
def ofFloat? (negative : Bool) (x : Float) : Except SyntaxError Number :=
  let x := if negative then -x else x
  if h : x.isFinite then .ok (float x h) else .error .numberOutOfRange

theorem ofFloat?_of_isFinite {x : Float} (h : x.isFinite) : ofFloat? false x = .ok (float x h) := by
  simp [ofFloat?, h]

/-- A significand is less than this, which is `2 ^ 64`. -/
def significandBound : Nat :=
  18446744073709551616

/-- The significand `front` goes on with digits as long as 64 bits hold it; the answer is the significand and the
digits that are left. -/
def takeDigits (front : Nat) : List Char → Nat × List Char
  | [] => (front, [])
  | c :: cs =>
    let next := 10 * front + (c.toNat - '0'.toNat)
    if next < significandBound then takeDigits next cs else (front, c :: cs)

/-- The power `10 ^ n`, which is finite for `n` up to 308. -/
def power (n : Nat) : Float :=
  Float.ofScientific 1 false n

/-- The float divided by `10 ^ 308` for a number of times and then by `10 ^ rest`, unless zero is reached before. -/
def divide (x : Float) : (times rest : Nat) → Float
  | 0, rest => x / power rest
  | times + 1, rest => if x == 0 then x else divide (x / power 308) times rest

/-- The significand times `10 ^ exponent`, infinite if it is too large. -/
def scale (significand : Nat) (exponent : Int) : Float :=
  let x := Float.ofNat significand
  match exponent with
  | .ofNat n => if n ≤ 308 then x * power n else if x == 0 then x else infinity
  | .negSucc n => divide x (n / 308) (n % 308 + 1)

/-- The float of the digits before and behind the point, times `10 ^ exponent`.  Digits before the point that the
significand does not hold count as zeros, and such digits behind the point are passed over. -/
def ofParts (whole fraction : List Char) (exponent : Int) : Float :=
  let (front, left) := takeDigits 0 whole
  let (significand, ignored) := takeDigits front fraction
  scale significand (exponent + left.length - (fraction.length - ignored.length))

/-- A significand that 64 bits hold takes all its digits. -/
theorem takeDigits_of_lt {front : Nat} {ds : List Char} (h : Decimal.ofDigits front ds < significandBound) :
    takeDigits front ds = (Decimal.ofDigits front ds, []) := by
  induction ds generalizing front with
  | nil => rfl
  | cons c cs ih =>
    have hnext : 10 * front + (c.toNat - '0'.toNat) < significandBound :=
      Nat.lt_of_le_of_lt (Decimal.le_ofDigits _ cs) h
    rw [takeDigits, if_pos hnext]
    exact ih h

/-- A number with a significand of 64 bits loses no digit: apart from the roundings it is the decimal. -/
theorem ofParts_of_lt {whole fraction : List Char} {exponent : Int}
    (h : (Decimal.ofParts whole fraction exponent).digits < significandBound) :
    ofParts whole fraction exponent =
      scale (Decimal.ofParts whole fraction exponent).digits (Decimal.ofParts whole fraction exponent).exponent := by
  have hwhole : Decimal.ofDigits 0 whole < significandBound :=
    Nat.lt_of_le_of_lt (Decimal.le_ofDigits _ fraction) h
  rw [ofParts, takeDigits_of_lt hwhole]
  dsimp only
  rw [takeDigits_of_lt h]
  simp [Decimal.ofParts]

/-- The significand and the quotient are rounded: the answer is the float next to the nearest one. -/
example : ofParts "31".toList "245270191439438".toList 0 = 31.24527019143944 ∧
    (31.24527019143944 : Float) ≠ 31.245270191439438 := by
  decide +kernel

/-- The number of a sign and digits without point and exponent. -/
def ofWhole (negative : Bool) (digits : List Char) : Except SyntaxError Number :=
  let magnitude := Decimal.ofDigits 0 digits
  let n : Int := if negative then -magnitude else magnitude
  if h : InRange n ∧ ¬(negative ∧ magnitude = 0) then .ok (integer n h.1)
  else ofFloat? negative (ofParts digits [] 0)

/-- Reads the digits behind a decimal point, if one is there; the answer is the digits and the rest of the text. -/
def readFraction (text : List Char) : Except SyntaxError (Option (List Char) × List Char) :=
  match text with
  | '.' :: rest =>
    match rest.takeWhile Char.isDigit with
    | [] => .error .invalidNumber
    | digits => .ok (some digits, rest.dropWhile Char.isDigit)
  | _ => .ok (none, text)

/-- Reads an exponent, if one is there. -/
def readExponent (text : List Char) : Except SyntaxError (Option Int × List Char) :=
  match text with
  | 'e' :: rest | 'E' :: rest =>
    let (negative, rest) :=
      match rest with
      | '-' :: rest => (true, rest)
      | '+' :: rest => (false, rest)
      | _ => (false, rest)
    match rest.takeWhile Char.isDigit with
    | [] => .error .invalidNumber
    | digits =>
      let n : Int := Decimal.ofDigits 0 digits
      .ok (some (if negative then -n else n), rest.dropWhile Char.isDigit)
  | _ => .ok (none, text)

/-- Reads the number at the head of a text; the answer is the number and the rest.  The digits before the point do
not begin with a zero unless it is the only one. -/
def readRest (text : List Char) : Except SyntaxError (Number × List Char) := do
  let (negative, body) :=
    match text with
    | '-' :: body => (true, body)
    | _ => (false, text)
  let whole := body.takeWhile Char.isDigit
  if whole = [] ∨ whole.head? = some '0' ∧ 1 < whole.length then
    throw .invalidNumber
  let (fraction?, rest) ← readFraction (body.dropWhile Char.isDigit)
  let (exponent?, rest) ← readExponent rest
  match fraction?, exponent? with
  | none, none => return (← ofWhole negative whole, rest)
  | _, _ => return (← ofFloat? negative (ofParts whole (fraction?.getD []) (exponent?.getD 0)), rest)

/-- Reads the number at the head of a text; the answer is the number and how many characters it takes. -/
def read (text : List Char) : Except SyntaxError (Number × Nat) := do
  let (n, rest) ← readRest text
  return (n, text.length - rest.length)

theorem read_of_readRest {text rest : List Char} {n : Number} (h : readRest text = .ok (n, rest)) :
    read text = .ok (n, text.length - rest.length) := by
  rw [read, h]
  rfl

end Number
end Json
end DocFilter
