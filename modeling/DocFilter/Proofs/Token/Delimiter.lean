import DocFilter.Proofs.Token.Quotation

/-!
# Delimiters

A lexeme is read as far as it goes, so what it is can depend on the character behind it.  A delimiter is a character
with which no lexeme goes on: before it, what stands at the head of a text is read as it is at the end of the text,
unless a string is still open there (`Lexeme.read_append_of_closed`).
-/

namespace DocFilter

/-- Whether no lexeme goes on with the character: it is in no word and in no number, and is no second half of an
operator. -/
def isDelimiter (c : Char) : Bool :=
  !(isWordChar c || ['.', '=', '&', '|'].contains c)

/-- Nothing comes any more, or a delimiter. -/
def Delimited (rest : List Char) : Prop :=
  ∀ c ∈ rest.head?, isDelimiter c

private theorem isDelimiter_iff {c : Char} :
    isDelimiter c ↔ isWordChar c = false ∧ c ≠ '.' ∧ c ≠ '=' ∧ c ≠ '&' ∧ c ≠ '|' := by
  simp [isDelimiter]

theorem isWordChar_of_isDigit {c : Char} (h : c.isDigit) : isWordChar c := by
  simp [isWordChar, Char.isAlphanum, h]

/-- The digits of every radix are word characters. -/
theorem isWordChar_of_isDigitIn {radix : Nat} {c : Char} (h : isDigitIn radix c) : isWordChar c := by
  have halpha {a b : Char} (hc : a ≤ c ∧ c ≤ b) (hrange : 65 ≤ a.toNat ∧ b.toNat ≤ 90 ∨ 97 ≤ a.toNat ∧ b.toNat ≤ 122) :
      isWordChar c := by
    have hbetween : a.toNat ≤ c.toNat ∧ c.toNat ≤ b.toNat := hc
    have : c.isAlpha := by
      change c.isUpper || c.isLower
      rw [Bool.or_eq_true]
      rcases hrange with hupper | hlower
      · have hge : 65 ≤ c.toNat := by omega
        have hle : c.toNat ≤ 90 := by omega
        exact .inl (decide_eq_true ⟨hge, hle⟩)
      · have hge : 97 ≤ c.toNat := by omega
        have hle : c.toNat ≤ 122 := by omega
        exact .inr (Bool.and_eq_true_iff.2 ⟨decide_eq_true hge, decide_eq_true hle⟩)
    simp [isWordChar, Char.isAlphanum, this]
  by_cases hdigit : '0' ≤ c ∧ c ≤ '9'
  · have : c.isDigit := Char.isDigit_iff_toNat.2 hdigit
    exact isWordChar_of_isDigit this
  · by_cases hlower : 'a' ≤ c ∧ c ≤ 'f'
    · exact halpha hlower (by decide)
    · by_cases hupper : 'A' ≤ c ∧ c ≤ 'F'
      · exact halpha hupper (by decide)
      · simp [isDigitIn, digitValue?, hdigit, hlower, hupper] at h

namespace Delimited

variable {rest : List Char}

theorem nil : Delimited [] :=
  fun _ hc => by cases hc

theorem cons {c : Char} (hc : isDelimiter c) (rest : List Char) : Delimited (c :: rest) := by
  rintro d hd
  obtain rfl := Option.some.inj hd
  exact hc

theorem not_isWordChar (h : Delimited rest) : ∀ c ∈ rest.head?, isWordChar c = false :=
  fun c hc => (isDelimiter_iff.1 (h c hc)).1

theorem ne_equalSign (h : Delimited rest) : ∀ c ∈ rest.head?, c ≠ '=' :=
  fun c hc => (isDelimiter_iff.1 (h c hc)).2.2.1

section

variable {p : Char → Bool} (hp : ∀ c, p c → isWordChar c) (h : Delimited rest) (text : List Char)
include hp h

/-- Word characters are taken as if nothing came behind the text. -/
theorem takeWhile_append : (text ++ rest).takeWhile p = text.takeWhile p := by
  induction text with
  | nil =>
    cases rest with
    | nil => rfl
    | cons c rest =>
      have hc : ¬p c := fun hpc => by simpa [hp c hpc] using h.not_isWordChar c rfl
      simp [hc]
  | cons c cs ih => rw [List.cons_append, List.takeWhile_cons, List.takeWhile_cons, ih]

theorem dropWhile_append : (text ++ rest).dropWhile p = text.dropWhile p ++ rest := by
  induction text with
  | nil =>
    cases rest with
    | nil => rfl
    | cons c rest =>
      have hc : ¬p c := fun hpc => by simpa [hp c hpc] using h.not_isWordChar c rfl
      simp [hc]
  | cons c cs ih =>
    rw [List.cons_append, List.dropWhile_cons, List.dropWhile_cons, ih]
    split <;> rfl

end

end Delimited

namespace Lexeme

variable {rest : List Char} (hrest : Delimited rest)
include hrest

private theorem readDecimal_append (text : List Char) :
    readNumber.readDecimal (text ++ rest) = readNumber.readDecimal text := by
  have hdigit : ∀ c : Char, c.isDigit → isWordChar c := fun _ => isWordChar_of_isDigit
  unfold readNumber.readDecimal
  rw [hrest.takeWhile_append hdigit, hrest.dropWhile_append hdigit]
  cases text.dropWhile Char.isDigit with
  | nil =>
    cases rest with
    | nil => rfl
    | cons c tail =>
      have hdot : c ≠ '.' := (isDelimiter_iff.1 (hrest c rfl)).2.1
      simp [hdot]
  | cons c cs =>
    by_cases hc : c = '.'
    · subst hc
      simp only [List.cons_append, hrest.takeWhile_append hdigit]
    · simp [hc]

omit hrest in
/-- A decimal number takes the digits with which the text begins. -/
theorem le_width_readDecimal (text : List Char) :
    (text.takeWhile Char.isDigit).length ≤ (readNumber.readDecimal text).width := by
  unfold readNumber.readDecimal
  split
  · rw [width_verbatim, List.length_append]
    exact Nat.le_add_right _ _
  · exact Nat.le_refl _

omit hrest in
/-- Where no mark of a radix can stand, a number is read as a decimal one. -/
theorem readNumber_eq_readDecimal {text : List Char}
    (h : ∀ mark cs, text = '0' :: mark :: cs → radixOfMark? mark = none) :
    readNumber text = readNumber.readDecimal text := by
  unfold readNumber
  split
  · rename_i mark cs
    rw [h mark cs rfl]
  · rfl

omit hrest in
private theorem radixOfMark?_eq_none {c : Char} (h : isWordChar c = false) : radixOfMark? c = none := by
  unfold radixOfMark?
  split
  · cases h
  · cases h
  · cases h
  · rfl

/-- A delimiter behind a number does not change how it is read. -/
theorem readNumber_append (text : List Char) : readNumber (text ++ rest) = readNumber text := by
  -- with a mark the digits go on to the delimiter; without one, the delimiter must not be taken for a mark
  by_cases h : ∀ mark cs, text = '0' :: mark :: cs → radixOfMark? mark = none
  · have happend : ∀ mark cs, text ++ rest = '0' :: mark :: cs → radixOfMark? mark = none := by
      intro mark cs heq
      match text, h with
      | [], _ =>
        have := hrest.not_isWordChar '0' (by rw [← List.nil_append rest, heq]; rfl)
        cases this
      | [_], _ =>
        obtain ⟨-, rfl⟩ := List.cons.inj heq
        exact radixOfMark?_eq_none (hrest.not_isWordChar mark rfl)
      | _ :: _ :: cs', h =>
        cases heq
        exact h _ cs' rfl
    rw [readNumber_eq_readDecimal h, readNumber_eq_readDecimal happend, readDecimal_append hrest]
  · simp only [Classical.not_forall] at h
    obtain ⟨mark, cs, rfl, hmark⟩ := h
    obtain ⟨radix, hradix⟩ := Option.ne_none_iff_exists'.1 hmark
    simp only [List.cons_append, readNumber, hradix, hrest.takeWhile_append fun _ => isWordChar_of_isDigitIn]

/-- A delimiter is no second half of an operator. -/
private theorem readOperator?_append (c : Char) (text : List Char) :
    readOperator? c (text ++ rest) = readOperator? c text := by
  cases text with
  | cons d cs => rfl
  | nil =>
    cases rest with
    | nil => rfl
    | cons d tail =>
      obtain ⟨-, -, hequal, hand, hor⟩ := isDelimiter_iff.1 (hrest d rfl)
      have hdouble : doubleKind? c d = none := by
        unfold doubleKind?
        split <;> first | rfl | contradiction
      simp only [List.nil_append, readOperator?, hdouble]

/-- Before a delimiter what stands at the head is read as it is at the end of a text, unless a string is still open
there. -/
theorem read_append_of_closed {c : Char} {text : List Char} (h : read c text ≠ .error ⟨.unterminatedString, 0⟩) :
    read c (text ++ rest) = read c text := by
  by_cases hquote : c = '\''
  · subst hquote
    exact read_quote_append h rest
  rw [read, read, if_neg hquote, if_neg hquote, hrest.takeWhile_append fun _ => id, ← List.cons_append,
    readNumber_append hrest, readOperator?_append hrest]

/-- Before a delimiter a lexeme is read as it is at the end of a text. -/
theorem read_append {c : Char} {text : List Char} {lexeme : Lexeme} (h : read c text = .ok lexeme) :
    read c (text ++ rest) = .ok lexeme := by
  rw [← h]
  exact read_append_of_closed hrest (by rw [h]; exact nofun)

end Lexeme

end DocFilter
