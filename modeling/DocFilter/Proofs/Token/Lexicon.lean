import DocFilter.Proofs.Token.Numeral
import DocFilter.Proofs.Token.Quotation

/-!
# The lexicon

How each kind of token is written, said without a reader (`IsLexeme`): words, numbers, quoted strings and operators.
What is read at the head of a text is a lexeme (`Lexeme.exists_isLexeme_of_read`), a lexeme that stands alone is read as
a whole (`IsLexeme.iff_read_eq`), and no lexeme with which a text begins is longer than the one that is read
(`IsLexeme.length_le_width`).
-/

namespace DocFilter

/-- The words that are no identifiers. -/
def reservedWords : List (TokenKind × String) :=
  [(.trueWord, "true"), (.falseWord, "false"), (.nullWord, "null")]

/-- The operators and delimiters.  A single bar is another way to write `||`; a single `=` or `&` has no meaning. -/
def operators : List (TokenKind × String) :=
  [(.plus, "+"), (.minus, "-"), (.times, "*"), (.divide, "/"), (.leftParen, "("), (.rightParen, ")"), (.dot, "."),
    (.andOp, "&&"), (.orOp, "||"), (.orOp, "|"), (.notOp, "!"), (.equal, "=="), (.notEqual, "!="), (.greater, ">"),
    (.less, "<"), (.greaterEqual, ">="), (.lessEqual, "<="), (.unknown, "="), (.unknown, "&")]

/-- The characters are one token of the given kind and text, when they stand alone. -/
inductive IsLexeme : List Char → TokenKind → String → Prop where
  | reserved {word : List Char} {kind : TokenKind} (h : (kind, String.ofList word) ∈ reservedWords) :
    IsLexeme word kind (String.ofList word)
  | identifier {word : List Char} (h : IsIdentifier (String.ofList word)) :
    IsLexeme word .identifier (String.ofList word)
  | digits {ds : List Char} (hne : ds ≠ []) (hds : ∀ d ∈ ds, d.isDigit) : IsLexeme ds .integer (String.ofList ds)
  | marked {mark : Char} {radix : Nat} {ds : List Char} (hmark : radixOfMark? mark = some radix)
    (hds : ∀ d ∈ ds, isDigitIn radix d) : IsLexeme ('0' :: mark :: ds) .integer (String.ofList ('0' :: mark :: ds))
  | decimal {ds es : List Char} (hne : ds ≠ []) (hds : ∀ d ∈ ds, d.isDigit) (hes : ∀ d ∈ es, d.isDigit) :
    IsLexeme (ds ++ '.' :: es) .decimal (String.ofList (ds ++ '.' :: es))
  | string {body content : List Char} (h : Denotes body content) :
    IsLexeme ('\'' :: (body ++ ['\''])) .string (String.ofList content)
  | operator {symbol : List Char} {kind : TokenKind} (h : (kind, String.ofList symbol) ∈ operators) :
    IsLexeme symbol kind (String.ofList symbol)

namespace Lexeme

/-! ### What is read is a lexeme -/

/-- The lexeme is written as the characters with which the text begins. -/
private def BeginsWith (text : List Char) (lexeme : Lexeme) : Prop :=
  ∃ span rest, text = span ++ rest ∧ span.length = lexeme.width ∧ IsLexeme span lexeme.kind lexeme.text

private theorem beginsWith_verbatim {text span : List Char} {kind : TokenKind} (h : span <+: text)
    (hspan : IsLexeme span kind (String.ofList span)) : BeginsWith text (verbatim kind span) := by
  obtain ⟨rest, rfl⟩ := h
  exact ⟨span, rest, rfl, rfl, hspan⟩

private theorem isLexeme_word {c : Char} {cs : List Char} (hc : c.isAlpha) (hcs : ∀ d ∈ cs, isWordChar d) :
    IsLexeme (c :: cs) (wordKind (c :: cs)) (String.ofList (c :: cs)) := by
  have htext : (String.ofList (c :: cs)).toList = c :: cs := String.toList_ofList
  by_cases hreserved : (wordKind (c :: cs), String.ofList (c :: cs)) ∈ reservedWords
  · exact .reserved hreserved
  -- each reserved word has a kind of its own, so this one is none of them
  have hne {word : String} (hword : (wordKind word.toList, word) ∈ reservedWords) : String.ofList (c :: cs) ≠ word := by
    rintro rfl
    rw [htext] at hword
    exact hreserved hword
  have htrue : String.ofList (c :: cs) ≠ "true" := hne (by decide)
  have hfalse : String.ofList (c :: cs) ≠ "false" := hne (by decide)
  have hnull : String.ofList (c :: cs) ≠ "null" := hne (by decide)
  have hkind := wordKind_eq_identifier htrue hfalse hnull
  rw [htext] at hkind
  rw [hkind]
  exact .identifier ⟨c, cs, htext, hc, hcs, htrue, hfalse, hnull⟩

private theorem beginsWith_ofWord {c : Char} (hc : c.isAlpha) (rest : List Char) :
    BeginsWith (c :: rest) (ofWord (c :: rest.takeWhile isWordChar)) := by
  refine beginsWith_verbatim ?_ (isLexeme_word hc fun d hd => List.mem_takeWhile_imp hd)
  exact (List.prefix_cons_inj c).2 (List.takeWhile_prefix _)

private theorem beginsWith_readDecimal {c : Char} (hc : c.isDigit) (rest : List Char) :
    BeginsWith (c :: rest) (readNumber.readDecimal (c :: rest)) := by
  have hne : (c :: rest).takeWhile Char.isDigit ≠ [] := by simp [hc]
  have hds : ∀ d ∈ (c :: rest).takeWhile Char.isDigit, d.isDigit := fun d hd => List.mem_takeWhile_imp hd
  have hwhole := List.takeWhile_append_dropWhile (p := Char.isDigit) (l := c :: rest)
  unfold readNumber.readDecimal
  split
  · rename_i fraction hfraction
    refine beginsWith_verbatim ?_ (.decimal hne hds fun d hd => List.mem_takeWhile_imp hd)
    conv => rhs; rw [← hwhole, hfraction]
    rw [List.prefix_append_right_inj, List.prefix_cons_inj]
    exact List.takeWhile_prefix _
  · exact beginsWith_verbatim (List.takeWhile_prefix _) (.digits hne hds)

private theorem beginsWith_readNumber {c : Char} (hc : c.isDigit) (rest : List Char) :
    BeginsWith (c :: rest) (readNumber (c :: rest)) := by
  unfold readNumber
  split
  · rename_i mark ds heq
    obtain ⟨rfl, rfl⟩ := List.cons.inj heq
    split
    · rename_i radix hmark
      refine beginsWith_verbatim ?_ (.marked hmark fun d hd => List.mem_takeWhile_imp hd)
      rw [List.prefix_cons_inj, List.prefix_cons_inj]
      exact List.takeWhile_prefix _
    · exact beginsWith_readDecimal hc _
  · exact beginsWith_readDecimal hc rest

private theorem isLexeme_double {c d : Char} {kind : TokenKind} (h : doubleKind? c d = some kind) :
    IsLexeme [c, d] kind (String.ofList [c, d]) := by
  refine .operator ?_
  unfold doubleKind? at h
  split at h <;> cases h <;> decide

private theorem isLexeme_single {c : Char} {kind : TokenKind} (h : singleKind? c = some kind) :
    IsLexeme [c] kind (String.ofList [c]) := by
  refine .operator ?_
  unfold singleKind? at h
  split at h <;> cases h <;> decide

private theorem beginsWith_readOperator? {c : Char} {rest : List Char} {lexeme : Lexeme}
    (h : readOperator? c rest = some lexeme) : BeginsWith (c :: rest) lexeme := by
  have hsingle {kind : TokenKind} (hkind : singleKind? c = some kind) : BeginsWith (c :: rest) (verbatim kind [c]) :=
    beginsWith_verbatim ⟨rest, rfl⟩ (isLexeme_single hkind)
  unfold readOperator? at h
  split at h
  · obtain ⟨kind, hkind, rfl⟩ := Option.map_eq_some_iff.1 h
    exact hsingle hkind
  · rename_i d more
    split at h
    · rename_i kind hkind
      obtain rfl := Option.some.inj h
      exact beginsWith_verbatim ⟨more, rfl⟩ (isLexeme_double hkind)
    · obtain ⟨kind, hkind, rfl⟩ := Option.map_eq_some_iff.1 h
      exact hsingle hkind

/-- What is read at the head of a text is a lexeme with which the text begins. -/
theorem exists_isLexeme_of_read {c : Char} {rest : List Char} {lexeme : Lexeme} (h : read c rest = .ok lexeme) :
    ∃ span more, c :: rest = span ++ more ∧ span.length = lexeme.width ∧ IsLexeme span lexeme.kind lexeme.text := by
  change BeginsWith (c :: rest) lexeme
  by_cases hquote : c = '\''
  · subst hquote
    obtain ⟨body, content, more, hbody, rfl, rfl⟩ := exists_denotes_of_read h
    exact ⟨'\'' :: (body ++ ['\'']), more, by simp, by simp, .string hbody⟩
  rw [read, if_neg hquote] at h
  by_cases halpha : c.isAlpha
  · rw [if_pos halpha] at h
    obtain rfl := Except.ok.inj h
    exact beginsWith_ofWord halpha rest
  rw [if_neg halpha] at h
  by_cases hdigit : c.isDigit
  · rw [if_pos hdigit] at h
    obtain rfl := Except.ok.inj h
    exact beginsWith_readNumber hdigit rest
  rw [if_neg hdigit] at h
  split at h
  · rename_i found hfound
    obtain rfl := Except.ok.inj h
    exact beginsWith_readOperator? hfound
  · cases h

/-! ### How lexemes are read -/

private theorem length_takeWhile_append {p : Char → Bool} {span : List Char} (h : ∀ d ∈ span, p d) (more : List Char) :
    span.length ≤ ((span ++ more).takeWhile p).length := by
  rw [List.takeWhile_append_of_pos h, List.length_append]
  exact Nat.le_add_right _ _

/-- A number whose second character is no mark of a radix is a decimal one. -/
private theorem readNumber_of_second {d e : Char} (he : radixOfMark? e = none) (tail : List Char) :
    readNumber (d :: e :: tail) = readNumber.readDecimal (d :: e :: tail) := by
  refine readNumber_eq_readDecimal fun mark cs heq => ?_
  obtain ⟨-, htail⟩ := List.cons.inj heq
  obtain ⟨rfl, -⟩ := List.cons.inj htail
  exact he

private theorem readNumber_marked {mark : Char} {radix : Nat} (h : radixOfMark? mark = some radix) (tail : List Char) :
    readNumber ('0' :: mark :: tail) = verbatim .integer ('0' :: mark :: tail.takeWhile (isDigitIn radix)) := by
  simp only [readNumber, h]

private theorem readNumber_decimal {ds : List Char} (hne : ds ≠ []) (hds : ∀ d ∈ ds, d.isDigit) (tail : List Char) :
    readNumber (ds ++ '.' :: tail) = verbatim .decimal (ds ++ '.' :: tail.takeWhile Char.isDigit) := by
  have hdecimal : readNumber.readDecimal (ds ++ '.' :: tail) =
      verbatim .decimal (ds ++ '.' :: tail.takeWhile Char.isDigit) := by
    obtain ⟨hwhole, hfraction⟩ := takeWhile_digits_point hds tail
    unfold readNumber.readDecimal
    simp only [hwhole, hfraction]
  rw [← hdecimal]
  match ds, hne with
  | [d], _ => exact readNumber_of_second rfl tail
  | d :: e :: ds, _ => exact readNumber_of_second (radixOfMark?_of_isDigit (hds e (by simp))) _

end Lexeme

namespace IsLexeme

open Lexeme

variable {span rest more : List Char} {c : Char} {kind : TokenKind} {text : String} {lexeme : Lexeme}

/-- The characters are a letter and word characters, and a word of the given kind. -/
private def IsWord (kind : TokenKind) (word : List Char) : Prop :=
  ∃ c cs, word = c :: cs ∧ c.isAlpha ∧ (∀ d ∈ cs, isWordChar d) ∧ wordKind word = kind

private theorem isWord_of_reserved (h : (kind, String.ofList span) ∈ reservedWords) : IsWord kind span := by
  have hword {word : String} (hword : String.ofList span = word) : span = word.toList := by
    rw [← hword, String.toList_ofList]
  simp only [reservedWords, List.mem_cons, Prod.mk.injEq, List.not_mem_nil, or_false] at h
  rcases h with ⟨rfl, h⟩ | ⟨rfl, h⟩ | ⟨rfl, h⟩
  · obtain rfl := hword h
    exact ⟨'t', ['r', 'u', 'e'], rfl, by decide, List.all_eq_true.1 (by decide), rfl⟩
  · obtain rfl := hword h
    exact ⟨'f', ['a', 'l', 's', 'e'], rfl, by decide, List.all_eq_true.1 (by decide), rfl⟩
  · obtain rfl := hword h
    exact ⟨'n', ['u', 'l', 'l'], rfl, by decide, List.all_eq_true.1 (by decide), rfl⟩

private theorem isWord_of_isIdentifier (h : IsIdentifier (String.ofList span)) : IsWord .identifier span := by
  obtain ⟨c, cs, hword, hc, hcs, htrue, hfalse, hnull⟩ := h
  have hkind := wordKind_eq_identifier htrue hfalse hnull
  rw [String.toList_ofList] at hword hkind
  exact ⟨c, cs, hword, hc, hcs, hkind⟩

/-- The kind of operator for which the reader looks. -/
private def operatorKind? : List Char → Option TokenKind
  | [c] => singleKind? c
  | [c, d] => doubleKind? c d
  | _ => none

private theorem exists_of_operator (h : (kind, String.ofList span) ∈ operators) :
    ∃ c cs, span = c :: cs ∧
      (∀ {rest lexeme}, readOperator? c rest = some lexeme → Lexeme.read c rest = .ok lexeme) ∧
      (cs = [] ∧ singleKind? c = some kind ∨ ∃ d, cs = [d] ∧ doubleKind? c d = some kind) := by
  have hkinds : ∀ p ∈ operators, operatorKind? p.2.toList = some p.1 := by
    decide
  have hheads : ∀ p ∈ operators, p.2.toList.head?.all (fun c => c ≠ '\'' && !c.isAlpha && !c.isDigit) := by
    decide
  have hkind := hkinds _ h
  have hhead := hheads _ h
  rw [String.toList_ofList] at hkind hhead
  have hread {c : Char} {cs rest : List Char} {lexeme : Lexeme} (hspan : span = c :: cs)
      (hlexeme : readOperator? c rest = some lexeme) : Lexeme.read c rest = .ok lexeme := by
    subst hspan
    simp only [List.head?_cons, Option.all_some, Bool.and_eq_true, decide_eq_true_eq, Bool.not_eq_true'] at hhead
    obtain ⟨⟨hquote, halpha⟩, hdigit⟩ := hhead
    rw [Lexeme.read, if_neg hquote, halpha, hdigit, hlexeme]
    rfl
  unfold operatorKind? at hkind
  split at hkind
  · exact ⟨_, [], rfl, hread rfl, .inl ⟨rfl, hkind⟩⟩
  · exact ⟨_, _, rfl, hread rfl, .inr ⟨_, rfl, hkind⟩⟩
  · cases hkind

private theorem readOperator?_single (h : singleKind? c = some kind) :
    readOperator? c [] = some (verbatim kind [c]) := by
  simp only [readOperator?, h, Option.map_some]

private theorem readOperator?_double {d : Char} (h : doubleKind? c d = some kind) (more : List Char) :
    readOperator? c (d :: more) = some (verbatim kind [c, d]) := by
  simp only [readOperator?, h]

/-! ### Kinds -/

/-- Only a text between quotes is a string. -/
theorem exists_denotes (h : IsLexeme span kind text) (hkind : kind = .string) :
    ∃ body, span = '\'' :: (body ++ ['\'']) ∧ Denotes body text.toList := by
  cases h with
  | reserved h =>
    subst hkind
    exact absurd h (by simp [reservedWords])
  | @string body content h =>
    refine ⟨body, rfl, ?_⟩
    rwa [String.toList_ofList]
  | operator h =>
    subst hkind
    exact absurd h (by simp [operators])
  | identifier | digits | marked | decimal => cases hkind

/-- Every other lexeme is its own text. -/
theorem text_eq (h : IsLexeme span kind text) (hkind : kind ≠ .string) : text = String.ofList span := by
  cases h with
  | string => exact absurd rfl hkind
  | _ => rfl

/-! ### A lexeme that stands alone -/

private theorem read_eq_word (h : IsWord kind (c :: rest)) :
    read c rest = .ok ⟨kind, String.ofList (c :: rest), rest.length + 1⟩ := by
  obtain ⟨c', cs, heq, hc, hcs, hkind⟩ := h
  obtain ⟨rfl, rfl⟩ := List.cons.inj heq
  rw [read_of_isAlpha hc, List.takeWhile_eq_self_iff.2 hcs, ofWord, hkind]
  rfl

private theorem read_eq_number (hc : c.isDigit) (h : readNumber (c :: rest) = verbatim kind (c :: rest)) :
    read c rest = .ok ⟨kind, String.ofList (c :: rest), rest.length + 1⟩ := by
  rw [read_of_isDigit hc, h]
  rfl

/-- A lexeme that stands alone is read as a whole. -/
theorem read_eq (h : IsLexeme span kind text) (hspan : span = c :: rest) :
    read c rest = .ok ⟨kind, text, rest.length + 1⟩ := by
  cases h with
  | reserved h =>
    subst hspan
    exact read_eq_word (isWord_of_reserved h)
  | identifier h =>
    subst hspan
    exact read_eq_word (isWord_of_isIdentifier h)
  | digits hne hds =>
    subst hspan
    exact read_eq_number (hds c (.head _)) (readNumber_of_digits hds)
  | marked hmark hds =>
    obtain ⟨rfl, rfl⟩ := List.cons.inj hspan
    refine read_eq_number (by decide) ?_
    rw [readNumber_marked hmark, List.takeWhile_eq_self_iff.2 hds]
  | @decimal ds es hne hds hes =>
    have hnumber := readNumber_decimal hne hds es
    rw [List.takeWhile_eq_self_iff.2 hes] at hnumber
    obtain ⟨d, ds, rfl⟩ := List.exists_cons_of_ne_nil hne
    rw [List.cons_append] at hspan hnumber
    obtain ⟨rfl, rfl⟩ := List.cons.inj hspan
    rw [List.cons_append]
    exact read_eq_number (hds d (.head _)) hnumber
  | string h =>
    obtain ⟨rfl, rfl⟩ := List.cons.inj hspan
    rw [read_closed h []]
    simp
  | operator h =>
    obtain ⟨c', cs, rfl, hread, hcases⟩ := exists_of_operator h
    obtain ⟨rfl, rfl⟩ := List.cons.inj hspan
    rcases hcases with ⟨rfl, hkind⟩ | ⟨d, rfl, hkind⟩
    · exact hread (readOperator?_single hkind)
    · exact hread (readOperator?_double hkind [])

/-- The characters are a lexeme exactly if they are read as a whole when they stand alone. -/
theorem iff_read_eq : IsLexeme (c :: rest) kind text ↔ read c rest = .ok ⟨kind, text, rest.length + 1⟩ := by
  constructor
  · intro h
    exact h.read_eq rfl
  · intro h
    obtain ⟨span, more, hsplit, hlength, hspan⟩ := exists_isLexeme_of_read h
    have hwhole : span = c :: rest := by
      refine List.IsPrefix.eq_of_length ⟨more, hsplit.symm⟩ ?_
      rw [hlength, List.length_cons]
    exact hwhole ▸ hspan

theorem ne_nil (h : IsLexeme span kind text) : span ≠ [] := by
  rintro rfl
  generalize hnil : ([] : List Char) = span at h
  cases h with
  | reserved h =>
    subst hnil
    obtain ⟨_, _, hword, -⟩ := isWord_of_reserved h
    cases hword
  | identifier h =>
    subst hnil
    obtain ⟨_, _, hword, -⟩ := isWord_of_isIdentifier h
    cases hword
  | digits hne => exact hne hnil.symm
  | marked => cases hnil
  | decimal => simp at hnil
  | string => cases hnil
  | operator h =>
    subst hnil
    obtain ⟨_, _, hsymbol, -⟩ := exists_of_operator h
    cases hsymbol

/-- The characters of a lexeme say what it is. -/
theorem unique {kind' : TokenKind} {text' : String} (h : IsLexeme span kind text) (h' : IsLexeme span kind' text') :
    kind = kind' ∧ text = text' := by
  obtain ⟨c, rest, rfl⟩ := List.exists_cons_of_ne_nil h.ne_nil
  have hread := iff_read_eq.1 h
  rw [iff_read_eq.1 h'] at hread
  obtain ⟨hkind, htext, -⟩ := Lexeme.mk.inj (Except.ok.inj hread)
  exact ⟨hkind.symm, htext.symm⟩

/-! ### The longest lexeme is read -/

private theorem length_le_width_word {cs : List Char} (h : IsWord kind (c :: cs))
    (hread : read c (cs ++ more) = .ok lexeme) : (c :: cs).length ≤ lexeme.width := by
  obtain ⟨c', cs', heq, hc, hcs, -⟩ := h
  obtain ⟨rfl, rfl⟩ := List.cons.inj heq
  rw [read_of_isAlpha hc] at hread
  obtain rfl := Except.ok.inj hread
  rw [ofWord, width_verbatim, List.length_cons, List.length_cons]
  exact Nat.succ_le_succ (length_takeWhile_append hcs more)

private theorem length_le_width_number {cs : List Char} (hc : c.isDigit) (hread : read c (cs ++ more) = .ok lexeme)
    (h : (c :: cs).length ≤ (readNumber (c :: (cs ++ more))).width) : (c :: cs).length ≤ lexeme.width := by
  rw [read_of_isDigit hc] at hread
  obtain rfl := Except.ok.inj hread
  exact h

private theorem length_le_width_cons {cs : List Char} (h : IsLexeme span kind text) (hspan : span = c :: cs)
    (hread : read c (cs ++ more) = .ok lexeme) : (c :: cs).length ≤ lexeme.width := by
  have hpos : 0 < lexeme.width := (width_bounds hread).1
  cases h with
  | reserved h =>
    subst hspan
    exact length_le_width_word (isWord_of_reserved h) hread
  | identifier h =>
    subst hspan
    exact length_le_width_word (isWord_of_isIdentifier h) hread
  | digits hne hds =>
    subst hspan
    match cs with
    | [] => exact hpos
    | e :: ds =>
      refine length_le_width_number (hds c (.head _)) hread ?_
      rw [List.cons_append, readNumber_of_second (radixOfMark?_of_isDigit (hds e (by simp)))]
      exact Nat.le_trans (length_takeWhile_append hds more) (le_width_readDecimal _)
  | marked hmark hds =>
    obtain ⟨rfl, rfl⟩ := List.cons.inj hspan
    refine length_le_width_number (by decide) hread ?_
    rw [List.cons_append, readNumber_marked hmark]
    exact Nat.succ_le_succ (Nat.succ_le_succ (length_takeWhile_append hds more))
  | @decimal ds es hne hds hes =>
    have hfraction := length_takeWhile_append hes more
    have hnumber := readNumber_decimal hne hds (es ++ more)
    obtain ⟨d, ds, rfl⟩ := List.exists_cons_of_ne_nil hne
    rw [List.cons_append] at hspan hnumber
    obtain ⟨rfl, rfl⟩ := List.cons.inj hspan
    refine length_le_width_number (hds d (.head _)) hread ?_
    rw [List.append_assoc, List.cons_append, hnumber, width_verbatim]
    simp only [List.length_append, List.length_cons]
    omega
  | string h =>
    obtain ⟨rfl, rfl⟩ := List.cons.inj hspan
    rw [List.append_assoc, List.singleton_append, read_closed h] at hread
    obtain rfl := Except.ok.inj hread
    simp
  | operator h =>
    obtain ⟨c', cs', rfl, hoperator, hcases⟩ := exists_of_operator h
    obtain ⟨rfl, rfl⟩ := List.cons.inj hspan
    rcases hcases with ⟨rfl, -⟩ | ⟨d, rfl, hkind⟩
    · exact hpos
    · rw [List.singleton_append, hoperator (readOperator?_double hkind more)] at hread
      obtain rfl := Except.ok.inj hread
      exact Nat.le_refl _

/-- No lexeme with which a text begins is longer than the one that is read. -/
theorem length_le_width (h : IsLexeme span kind text) (hspan : span <+: c :: rest)
    (hread : read c rest = .ok lexeme) : span.length ≤ lexeme.width := by
  obtain ⟨more, heq⟩ := hspan
  obtain ⟨d, cs, rfl⟩ := List.exists_cons_of_ne_nil h.ne_nil
  rw [List.cons_append] at heq
  obtain ⟨rfl, rfl⟩ := List.cons.inj heq
  exact length_le_width_cons h rfl hread

end IsLexeme

end DocFilter
