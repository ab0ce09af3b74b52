import DocFilter.Proofs.Grammar.InvalidNumber
import DocFilter.Proofs.Token.Blanks
import DocFilter.Proofs.Token.Cursor

/-!
# Number literals

A text of a mark and digits of its radix is the number that the digits denote, or no number if there are no digits or
the number is too large (`parseWith_literal`).  Every integer token that a lexer gives is such a text, and every decimal
token is a number (`integer_of_scan`, `decimal_of_scan`).
-/

namespace DocFilter
namespace Grammar

/-- What an integer token is: a mark and all digits behind it, with their positional value if it is within bounds. -/
theorem integer_of_scan {l next : Lexer} {t : Token} (h : l.scan = (.ok t, next)) (hkind : t.kind = .integer) :
    ∃ blanks more mark radix ds, (∀ b ∈ blanks, isBlank b) ∧ l.ahead = blanks ++ (t.text.toList ++ more) ∧
      t.position = l.position + blanks.length ∧ (mark, radix) ∈ radixMarks ∧ t.text = mark ++ String.ofList ds ∧
      (∀ d ∈ ds, isDigitIn radix d) ∧ (∀ c ∈ more.head?, isDigitIn radix c = false) ∧
      Rule.integer t =
        if ds ≠ [] ∧ positional radix ds ≤ 2 ^ 63 - 1 then .ok (.number (Float.ofNat (positional radix ds)))
        else .error (.invalidNumber t) := by
  obtain ⟨blanks, c, text, lexeme, hblanks, -, hahead, hread, rfl, -⟩ := Lexer.exists_read_of_scan h
  obtain ⟨span, more, hsplit, hwidth, hlexeme⟩ := Lexeme.exists_isLexeme_of_read hread
  obtain ⟨mark, radix, ds, hmark, hds, rfl⟩ := hlexeme.exists_digits hkind
  have htext : lexeme.text = mark ++ String.ofList ds := by
    rw [hlexeme.text_eq (by rw [show lexeme.kind = _ from hkind]; decide), String.ofList_append, String.ofList_toList]
  have htoList : lexeme.text.toList = mark.toList ++ ds := by
    rw [htext, String.toList_append, String.toList_ofList]
  refine ⟨blanks, more, mark, radix, ds, hblanks, ?_, rfl, hmark, htext, hds, fun d hd => ?_, ?_⟩
  · rw [hahead, hsplit, htoList]
  · -- with one more digit a longer lexeme would begin here
    by_contra hdigit
    cases more with
    | nil => cases hd
    | cons d' more =>
      obtain rfl := Option.some.inj hd
      have hlonger : IsLexeme (mark.toList ++ (ds ++ [d'])) .integer _ :=
        .of_digits hmark (List.forall_mem_append.2 ⟨hds, fun c hc => by
          obtain rfl := List.mem_singleton.1 hc
          exact Bool.eq_true_of_not_eq_false hdigit⟩) fun _ => by simp
      have hprefix : mark.toList ++ (ds ++ [d']) <+: c :: text := ⟨more, by simp [hsplit]⟩
      have := hlonger.length_le_width hprefix hread
      rw [← hwidth] at this
      simp only [List.length_append, List.length_singleton] at this
      omega
  · rw [Rule.integer, htoList, Numeral.integer?_of_mark hmark hds]
    split <;> rfl

/-- A text that is an integer literal is its positional value, or no number. -/
theorem parseWith_literal (limits : Limits) {mark : String} {radix : Nat} {ds : List Char}
    (hmark : (mark, radix) ∈ radixMarks) (hds : ∀ d ∈ ds, isDigitIn radix d) (hne : mark = "" → ds ≠ []) :
    let literal := mark ++ String.ofList ds
    Expr.parseWith limits literal =
      if ds ≠ [] ∧ positional radix ds ≤ 2 ^ 63 - 1 then .ok (.number (Float.ofNat (positional radix ds)))
      else .error (.invalidNumber ⟨.integer, literal, 0, literal.length⟩) := by
  intro literal
  have hliteral : literal.toList = mark.toList ++ ds := by
    rw [String.toList_append, String.toList_ofList]
  have hvalue := Numeral.integer?_of_mark hmark hds
  have htokens := (IsLexeme.of_digits hmark hds hne).tokenize_eq
  rw [← hliteral, String.ofList_toList, String.length_toList] at htokens
  rw [← hliteral] at hvalue
  split
  · rename_i hfits
    rw [if_pos hfits] at hvalue
    exact parseWith_of_sentence
      ⟨_, 0, 0, htokens, .expression_of_operand (.integer _ rfl hvalue), Nat.zero_le _, Nat.zero_le _⟩
  · rename_i hfits
    rw [if_neg hfits] at hvalue
    have hzero : Sentence limits "0" (.number (Float.ofNat 0)) :=
      ⟨_, 0, 0, rfl, .expression_of_operand (.integer ⟨.integer, "0", 0, 1⟩ rfl rfl), Nat.zero_le _, Nat.zero_le _⟩
    obtain ⟨start, position, hpass⟩ := tokenize_eq_ok_iff.1 htokens
    have hfirst : (TokenStream.read 0 literal.toList).Passes ([] ++ [_]) _ := hpass
    exact parseWith_invalidNumber hfirst rfl hvalue (by simp) (parseWith_of_sentence hzero) rfl (List.prefix_refl _)

/-- What a decimal token is: a number. -/
theorem decimal_of_scan {l next : Lexer} {t : Token} (h : l.scan = (.ok t, next)) (hkind : t.kind = .decimal) :
    ∃ x, Rule.decimal t = .ok (.number x) := by
  obtain ⟨blanks, c, text, lexeme, -, -, -, hread, rfl, -⟩ := Lexer.exists_read_of_scan h
  obtain ⟨span, more, -, -, hlexeme⟩ := Lexeme.exists_isLexeme_of_read hread
  obtain ⟨x, hx⟩ := hlexeme.exists_decimal hkind
  have htext : lexeme.text.toList = span := by
    rw [hlexeme.text_eq (by rw [show lexeme.kind = _ from hkind]; decide), String.toList_ofList]
  refine ⟨x.toFloat, ?_⟩
  rw [Rule.decimal, htext, hx]
  rfl

private theorem integer_eq_error_iff {t : Token} :
    Rule.integer t = .error (.invalidNumber t) ↔ Numeral.integer? t.text.toList = none := by
  unfold Rule.integer
  cases Numeral.integer? t.text.toList with
  | none => exact ⟨fun _ => rfl, fun _ => rfl⟩
  | some n => exact ⟨nofun, nofun⟩

private theorem exists_of_integer_eq_ok {t : Token} {e : Expr} (h : Rule.integer t = .ok e) :
    ∃ n, Numeral.integer? t.text.toList = some n := by
  unfold Rule.integer at h
  cases hvalue : Numeral.integer? t.text.toList with
  | none =>
    rw [hvalue] at h
    cases h
  | some n => exact ⟨n, rfl⟩

/-- Integers are read exactly up to the greatest that is admitted.  A text of a mark and digits of its radix, however
many, is the number that the digits denote if there are any and it is at most `2 ^ 63 - 1`; otherwise the error names
the whole of it.  Every integer token that a lexer gives is such a text, with all digits that stand there, and becomes
that number or that error; every decimal token is a number.  The error ends the parse: if some accepted text has tokens
of the same kinds up to where the bad integer stands, and the integers before it are numbers, then the error names the
bad one, whatever comes behind it.  And nothing but an integer without a value is ever named by it. -/
theorem numbers_exact (limits : Limits) :
    (∀ mark radix ds, (mark, radix) ∈ radixMarks → (∀ d ∈ ds, isDigitIn radix d) → (mark = "" → ds ≠ []) →
      let literal := mark ++ String.ofList ds
      Expr.parseWith limits literal =
        if ds ≠ [] ∧ positional radix ds ≤ 2 ^ 63 - 1 then .ok (.number (Float.ofNat (positional radix ds)))
        else .error (.invalidNumber ⟨.integer, literal, 0, literal.length⟩)) ∧
    (∀ (l next : Lexer) (t : Token), l.scan = (.ok t, next) →
      (t.kind = .integer → ∃ blanks more mark radix ds,
        (∀ b ∈ blanks, isBlank b) ∧ l.ahead = blanks ++ (t.text.toList ++ more) ∧
        t.position = l.position + blanks.length ∧ (mark, radix) ∈ radixMarks ∧ t.text = mark ++ String.ofList ds ∧
        (∀ d ∈ ds, isDigitIn radix d) ∧ (∀ c ∈ more.head?, isDigitIn radix c = false) ∧
        Rule.integer t =
          if ds ≠ [] ∧ positional radix ds ≤ 2 ^ 63 - 1 then .ok (.number (Float.ofNat (positional radix ds)))
          else .error (.invalidNumber t)) ∧
      (t.kind = .decimal → ∃ x, Rule.decimal t = .ok (.number x))) ∧
    (∀ (text other : String) ts us bad rest e, (TokenStream.read 0 text.toList).Passes (ts ++ [bad]) rest →
      bad.kind = .integer → Rule.integer bad = .error (.invalidNumber bad) →
      (∀ t ∈ ts, t.kind = .integer → ∃ value, Rule.integer t = .ok value) →
      Expr.parseWith limits other = .ok e → tokenize other = .ok us →
      (ts ++ [bad]).map Token.kind <+: us.map Token.kind →
      Expr.parseWith limits text = .error (.invalidNumber bad)) ∧
    ∀ text literal, Expr.parseWith limits text = .error (.invalidNumber literal) →
      literal ∈ (TokenStream.read 0 text.toList).tokens ∧ literal.kind = .integer ∧
        Rule.integer literal = .error (.invalidNumber literal) := by
  refine ⟨fun mark radix ds => parseWith_literal limits, fun l next t h => ⟨integer_of_scan h, decimal_of_scan h⟩,
    fun text other ts us bad rest e hpass hbad hvalue hbefore hother htokens hkinds => ?_, fun text literal h => ?_⟩
  · have hvalues : ∀ t ∈ ts, t.kind = .integer → ∃ n, Numeral.integer? t.text.toList = some n := by
      intro t ht hkind
      obtain ⟨value, h⟩ := hbefore t ht hkind
      exact exists_of_integer_eq_ok h
    exact parseWith_invalidNumber hpass hbad (integer_eq_error_iff.1 hvalue) hvalues hother htokens hkinds
  · obtain ⟨hmem, hkind, hnone⟩ := literal_of_invalidNumber h
    exact ⟨hmem, hkind, integer_eq_error_iff.2 hnone⟩

/-- Both cases of letters, leading zeros, a mark without digits, and a number that is too large by one, behind which the
text is malformed. -/
theorem numbers_exact_bounds :
    let bad : Token := ⟨.integer, "9223372036854775808", 8, 27⟩
    Expr.parseWith .standard "0xfF" = .ok (.number (Float.ofNat 255)) ∧
      Expr.parseWith .standard "009223372036854775807" = .ok (.number (Float.ofNat 9223372036854775807)) ∧
      Expr.parseWith .standard "0b" = .error (.invalidNumber ⟨.integer, "0b", 0, 2⟩) ∧
      Expr.parseWith .standard "a < 7 - 9223372036854775808 )'" = .error (.invalidNumber bad) ∧
      (∃ x, Rule.decimal ⟨.decimal, "9223372036854775808.", 0, 20⟩ = .ok (.number x)) := by
  intro bad
  obtain ⟨hliteral, htoken, hends, -⟩ := numbers_exact .standard
  have hhex := hliteral "0x" 16 ['f', 'F'] (by decide) (List.all_eq_true.1 (by decide)) nofun
  have hzeros := hliteral "" 10 "009223372036854775807".toList (by decide) (List.all_eq_true.1 (by decide)) nofun
  have hempty := hliteral "0b" 2 [] (by decide) nofun nofun
  have hhexValue : positional 16 ['f', 'F'] = 255 := rfl
  have hzerosValue : positional 10 "009223372036854775807".toList = 9223372036854775807 := rfl
  have hnone : Numeral.integer? "9223372036854775808".toList = none := by decide
  have hbad : Rule.integer bad = .error (.invalidNumber bad) := integer_eq_error_iff.2 hnone
  dsimp only at hhex hzeros hempty
  rw [hhexValue, if_pos ⟨nofun, by norm_num⟩] at hhex
  rw [hzerosValue, if_pos ⟨nofun, by norm_num⟩] at hzeros
  rw [if_neg fun h => h.1 rfl] at hempty
  let before : List Token := [⟨.identifier, "a", 0, 1⟩, ⟨.less, "<", 2, 3⟩, ⟨.integer, "7", 4, 5⟩, ⟨.minus, "-", 6, 7⟩]
  have hbefore : ∀ t ∈ before, t.kind = .integer → ∃ value, Rule.integer t = .ok value := by
    intro t ht hk
    have hseven : ∀ t ∈ before, t.kind = .integer → t = ⟨.integer, "7", 4, 5⟩ := by decide
    obtain rfl := hseven t ht hk
    exact ⟨_, rfl⟩
  obtain ⟨rest, hpass⟩ : ∃ rest, (TokenStream.read 0 "a < 7 - 9223372036854775808 )'".toList).Passes (before ++ [bad])
      rest := ⟨_, .cons _ _ (.cons _ _ (.cons _ _ (.cons _ _ (.cons _ _ (.nil _)))))⟩
  obtain ⟨e, hother⟩ : ∃ e, Expr.parseWith .standard "a < 7 - 0" = .ok e := ⟨_, rfl⟩
  refine ⟨hhex, hzeros, hempty, ?_, ?_⟩
  · exact hends _ _ before _ bad rest e hpass rfl hbad hbefore hother rfl (List.prefix_refl _)
  · exact (htoken (.ofString "9223372036854775808.") _ _ rfl).2 rfl

end Grammar
end DocFilter
