import DocFilter.Proofs.Token.Spelling
import Mathlib.Data.List.TakeWhile

/-!
# Decimal numerals

A text of nothing but decimal digits is one lexeme, whatever zeros it begins with (`readNumber_of_digits`), and its value
is that of its digits if it is within bounds (`integer?_of_digits`).  In particular the numeral of a number is read as
the number or is too large (`integer?_toDigits`).
-/

namespace DocFilter

theorem digitValue?_of_isDigit {c : Char} (h : c.isDigit) : digitValue? c = some (c.toNat - '0'.toNat) := by
  have hdigit : '0' ≤ c ∧ c ≤ '9' := Char.isDigit_iff_toNat.1 h
  rw [digitValue?, if_pos hdigit]

/-- A digit is no mark of a radix. -/
theorem radixOfMark?_of_isDigit {c : Char} (h : c.isDigit) : radixOfMark? c = none := by
  unfold radixOfMark?
  split
  · cases h
  · cases h
  · cases h
  · rfl

section

variable {ds : List Char} (hds : ∀ c ∈ ds, c.isDigit)
include hds

/-- Digits are taken up to a point. -/
theorem takeWhile_digits_point (rest : List Char) :
    (ds ++ '.' :: rest).takeWhile Char.isDigit = ds ∧ (ds ++ '.' :: rest).dropWhile Char.isDigit = '.' :: rest := by
  have hdot : ¬Char.isDigit '.' := by decide
  constructor
  · rw [List.takeWhile_append_of_pos hds, List.takeWhile_cons_of_neg hdot, List.append_nil]
  · rw [List.dropWhile_append_of_pos hds, List.dropWhile_cons_of_neg hdot]

/-- Digits alone are read to their end. -/
theorem Lexeme.readNumber_of_digits : readNumber ds = verbatim .integer ds := by
  have hdecimal : readNumber.readDecimal ds = verbatim .integer ds := by
    have hwhole : ds.takeWhile Char.isDigit = ds := List.takeWhile_eq_self_iff.2 hds
    have hrest : ds.dropWhile Char.isDigit = [] := List.dropWhile_eq_nil_iff.2 hds
    rw [readNumber.readDecimal, hwhole, hrest]
  unfold readNumber
  split
  · rename_i mark rest
    rw [radixOfMark?_of_isDigit (hds mark (by simp))]
    exact hdecimal
  · exact hdecimal

namespace Numeral

theorem radixAndDigits_of_digits : radixAndDigits ds = (10, ds) := by
  unfold radixAndDigits
  split
  · rename_i mark rest
    rw [radixOfMark?_of_isDigit (hds mark (by simp))]
  · rfl

private theorem foldlM_of_digits (n : Nat) :
    ds.foldlM (fun n c => (digitValue? c).bind fun d => if d < 10 then some (10 * n + d) else none) n =
      some (Nat.ofDigitChars 10 ds n) := by
  induction ds generalizing n with
  | nil => rfl
  | cons c cs ih =>
    obtain ⟨hc, hcs⟩ := List.forall_mem_cons.1 hds
    have hbounds := Char.isDigit_iff_toNat.1 hc
    have hlt : c.toNat - '0'.toNat < 10 := by
      have hnine : '9'.toNat = '0'.toNat + 9 := rfl
      omega
    rw [List.foldlM_cons, digitValue?_of_isDigit hc, Option.bind_some, if_pos hlt, Nat.ofDigitChars_cons]
    exact ih hcs _

/-- Digits alone denote what they denote to the base of ten, if that is within bounds. -/
theorem integer?_of_digits (hne : ds ≠ []) :
    integer? ds = (some (Nat.ofDigitChars 10 ds 0)).filter (· < integerBound) := by
  unfold integer?
  rw [radixAndDigits_of_digits hds]
  dsimp only
  rw [ofDigits?, if_neg hne, foldlM_of_digits hds]

end Numeral

end

/-! ### The numeral of a number -/

theorem isDigit_of_mem_toDigits (n : Nat) : ∀ c ∈ Nat.toDigits 10 n, c.isDigit :=
  fun _ hc => Nat.isDigit_of_mem_toDigits (by decide) (by decide) hc

/-- The numeral of a number is read as the number, or it is too large. -/
theorem Numeral.integer?_toDigits (n : Nat) :
    integer? (Nat.toDigits 10 n) = if n < integerBound then some n else none := by
  rw [integer?_of_digits (isDigit_of_mem_toDigits n) Nat.toDigits_ne_nil,
    Nat.ofDigitChars_toDigits (by decide) (by decide), Option.filter_some]
  simp only [decide_eq_true_eq]

/-- The numeral of a number is one lexeme. -/
theorem spells_toDigits (n : Nat) {rest : List Char} (hrest : Delimited rest) :
    Spells (Nat.toDigits 10 n) rest .integer (String.ofList (Nat.toDigits 10 n)) := by
  have hread := Lexeme.readNumber_of_digits (isDigit_of_mem_toDigits n)
  have hdigit := isDigit_of_mem_toDigits n
  cases hds : Nat.toDigits 10 n with
  | nil => exact absurd hds Nat.toDigits_ne_nil
  | cons c cs =>
    rw [hds] at hread hdigit
    exact spells_number (hdigit c (.head _)) hread hrest

end DocFilter
