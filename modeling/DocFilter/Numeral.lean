import DocFilter.Decimal
import DocFilter.Token.Lexeme

/-!
# Numerals

The numbers that number lexemes denote.  A whole number must be less than `2 ^ 63`; a number with a point is read as
the nearest binary64 number, however long it is.
-/

namespace DocFilter
namespace Numeral

/-- Whole numbers are less than this, which is `2 ^ 63`. -/
def integerBound : Nat :=
  9223372036854775808

/-- The number that digits denote in a radix, the most significant first, if there are digits and no others. -/
def ofDigits? (radix : Nat) (ds : List Char) : Option Nat :=
  if ds = [] then none
  else ds.foldlM (fun n c => (digitValue? c).bind fun d => if d < radix then some (radix * n + d) else none) 0

/-- The digits of a whole number and their radix: ten unless a mark says otherwise. -/
def radixAndDigits (text : List Char) : Nat × List Char :=
  match text with
  | '0' :: mark :: rest =>
    match radixOfMark? mark with
    | some radix => (radix, rest)
    | none => (10, text)
  | _ => (10, text)

/-- The value of a whole number's text, if it is within bounds. -/
def integer? (text : List Char) : Option Nat :=
  let (radix, ds) := radixAndDigits text
  (ofDigits? radix ds).filter (· < integerBound)

/-- The value of a number with at most one point in it, if there is at least one digit and nothing else. -/
def decimal? (text : List Char) : Option Decimal :=
  let whole := text.takeWhile Char.isDigit
  match text.dropWhile Char.isDigit with
  | [] => if whole = [] then none else some (.ofParts whole [] 0)
  | '.' :: fraction =>
    if fraction.all Char.isDigit ∧ ¬(whole = [] ∧ fraction = []) then some (.ofParts whole fraction 0) else none
  | _ => none

end Numeral
end DocFilter
