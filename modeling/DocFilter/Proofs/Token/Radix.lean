import Mathlib.Data.List.Induction
import Mathlib.Data.Nat.Digits.Defs
import DocFilter.Parser.Rule
import DocFilter.Proofs.Token.Lexicon

/-!
# Numbers in a radix

An integer token is a digit sequence of radix ten, or of another radix behind its mark (`IsLexeme.exists_digits`).  What
is read from it is the positional value, if there are digits and it is within bounds (`Numeral.integer?_of_mark`); so
neither leading zeros nor the case of letters matter.  A decimal token always has a value
(`IsLexeme.exists_decimal`).
-/

namespace DocFilter

/-- The marks in front of digits, and the radices that they announce. -/
def radixMarks : List (String × Nat) :=
  [("", 10), ("0x", 16), ("0o", 8), ("0b", 2)]

/-- The value of digits in a radix, the most significant first. -/
def positional (radix : Nat) (ds : List Char) : Nat :=
  Nat.ofDigits radix (ds.reverse.map fun d => (digitValue? d).getD 0)

/-- One more digit multiplies what is in front of it by the radix. -/
theorem positional_concat (radix : Nat) (ds : List Char) (d : Char) :
    positional radix (ds ++ [d]) = radix * positional radix ds + (digitValue? d).getD 0 := by
  rw [positional, List.reverse_append, List.reverse_singleton, List.singleton_append, List.map_cons, Nat.ofDigits_cons]
  exact Nat.add_comm _ _

/-- Decimal digits are digits of radix ten. -/
theorem isDigitIn_of_isDigit {d : Char} (h : d.isDigit) : isDigitIn 10 d := by
  have hbounds := Char.isDigit_iff_toNat.1 h
  have hnine : '9'.toNat = '0'.toNat + 9 := rfl
  rw [isDigitIn, digitValue?_of_isDigit h, Option.any_some, decide_eq_true_eq]
  omega

theorem isDigit_of_isDigitIn {d : Char} (h : isDigitIn 10 d) : d.isDigit := by
  rw [isDigitIn, digitValue?] at h
  split at h
  · rename_i hdigit
    exact Char.isDigit_iff_toNat.2 hdigit
  · split at h
    · simp at h
    · split at h
      · simp at h
      · cases h

theorem radixOfMark?_eq_some {mark : Char} {radix : Nat} (h : radixOfMark? mark = some radix) :
    (String.ofList ['0', mark], radix) ∈ radixMarks := by
  unfold radixOfMark? at h
  split at h <;> cases h <;> decide

/-! ### Values -/

namespace Numeral

variable {radix : Nat} {ds : List Char}

/-- Digits are read as their positional value. -/
theorem ofDigits?_eq (hne : ds ≠ []) (hds : ∀ d ∈ ds, isDigitIn radix d) :
    ofDigits? radix ds = some (positional radix ds) := by
  rw [ofDigits?, if_neg hne]
  clear hne
  induction ds using List.reverseRecOn with
  | nil => rfl
  | append_singleton ds d ih =>
    obtain ⟨hfront, hlast⟩ := List.forall_mem_append.1 hds
    obtain ⟨v, hv, hlt⟩ := (Option.any_eq_true _ _).1 (hlast d (.head _))
    have hlt : v < radix := of_decide_eq_true hlt
    rw [List.foldlM_append, ih hfront, positional_concat, hv]
    simp only [List.foldlM_cons, List.foldlM_nil, Option.bind_eq_bind, Option.bind_some, hv, if_pos hlt]
    rfl

private theorem radixAndDigits_of_mark {mark : String} (hmark : (mark, radix) ∈ radixMarks)
    (hds : ∀ d ∈ ds, isDigitIn radix d) : radixAndDigits (mark.toList ++ ds) = (radix, ds) := by
  simp only [radixMarks, List.mem_cons, Prod.mk.injEq, List.not_mem_nil, or_false] at hmark
  rcases hmark with ⟨rfl, rfl⟩ | ⟨rfl, rfl⟩ | ⟨rfl, rfl⟩ | ⟨rfl, rfl⟩
  · exact radixAndDigits_of_digits fun d hd => isDigit_of_isDigitIn (hds d hd)
  · rfl
  · rfl
  · rfl

/-- A whole number has its positional value if it has digits and the value is within bounds, and otherwise none. -/
theorem integer?_of_mark {mark : String} (hmark : (mark, radix) ∈ radixMarks) (hds : ∀ d ∈ ds, isDigitIn radix d) :
    integer? (mark.toList ++ ds) =
      if ds ≠ [] ∧ positional radix ds ≤ 2 ^ 63 - 1 then some (positional radix ds) else none := by
  unfold integer?
  rw [radixAndDigits_of_mark hmark hds]
  dsimp only
  by_cases hne : ds = []
  · rw [if_neg fun h => h.1 hne, ofDigits?, if_pos hne]
    rfl
  · have hbound : positional radix ds < integerBound ↔ ds ≠ [] ∧ positional radix ds ≤ 2 ^ 63 - 1 := by
      unfold integerBound
      exact ⟨fun h => ⟨hne, by omega⟩, fun h => by omega⟩
    rw [ofDigits?_eq hne hds, Option.filter_some]
    simp only [decide_eq_true_eq, hbound]

end Numeral

/-! ### Number tokens -/

namespace IsLexeme

variable {span : List Char} {kind : TokenKind} {text : String}

/-- An integer is written as a mark and digits of the radix that it announces. -/
theorem exists_digits (h : IsLexeme span kind text) (hkind : kind = .integer) :
    ∃ mark radix ds, (mark, radix) ∈ radixMarks ∧ (∀ d ∈ ds, isDigitIn radix d) ∧ span = mark.toList ++ ds := by
  cases h with
  | digits _ hds => exact ⟨"", 10, span, .head _, fun d hd => isDigitIn_of_isDigit (hds d hd), rfl⟩
  | @marked mark radix ds hmark hds =>
    refine ⟨String.ofList ['0', mark], radix, ds, radixOfMark?_eq_some hmark, hds, ?_⟩
    rw [String.toList_ofList]
    rfl
  | reserved h =>
    subst hkind
    exact absurd h (by simp [reservedWords])
  | operator h =>
    subst hkind
    exact absurd h (by simp [operators])
  | identifier | decimal | string => cases hkind

/-- A mark and digits of its radix are an integer, and so are decimal digits without a mark if there are any. -/
theorem of_digits {mark : String} {radix : Nat} {ds : List Char} (hmark : (mark, radix) ∈ radixMarks)
    (hds : ∀ d ∈ ds, isDigitIn radix d) (hne : mark = "" → ds ≠ []) :
    IsLexeme (mark.toList ++ ds) .integer (String.ofList (mark.toList ++ ds)) := by
  simp only [radixMarks, List.mem_cons, Prod.mk.injEq, List.not_mem_nil, or_false] at hmark
  rcases hmark with ⟨rfl, rfl⟩ | ⟨rfl, rfl⟩ | ⟨rfl, rfl⟩ | ⟨rfl, rfl⟩
  · exact .digits (hne rfl) fun d hd => isDigit_of_isDigitIn (hds d hd)
  · exact .marked (rfl : radixOfMark? 'x' = some 16) hds
  · exact .marked (rfl : radixOfMark? 'o' = some 8) hds
  · exact .marked (rfl : radixOfMark? 'b' = some 2) hds

/-- A decimal always has a value: there is a digit in front of its point. -/
theorem exists_decimal (h : IsLexeme span kind text) (hkind : kind = .decimal) :
    ∃ x, Numeral.decimal? span = some x := by
  cases h with
  | @decimal ds es hne hds hes =>
    obtain ⟨hwhole, hfraction⟩ := takeWhile_digits_point hds es
    unfold Numeral.decimal?
    rw [hwhole, hfraction]
    exact ⟨_, if_pos ⟨List.all_eq_true.2 hes, fun hnone => hne hnone.1⟩⟩
  | reserved h =>
    subst hkind
    exact absurd h (by simp [reservedWords])
  | operator h =>
    subst hkind
    exact absurd h (by simp [operators])
  | identifier | digits | marked | string => cases hkind

end IsLexeme

end DocFilter
