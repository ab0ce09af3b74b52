import DocFilter.Expr
import DocFilter.Numeral
import DocFilter.Proofs.Token.Delimiter
import DocFilter.Proofs.Token.Passage
import DocFilter.Proofs.Token.Quotation

/-!
# Spellings

How lexemes are written, and that they are read back.  What a text at the head of an input is read as depends on what
comes behind it: a word must not go on, a number must be closed, and an operator must not be the first half of
another one.  `Spells` says that a text is one lexeme before a given rest, and `Tokenizes` that it is certain tokens
of the stream.  Texts are put together by `Spells.tokenizes` and `Tokenizes.append`.
-/

namespace DocFilter

/-- Before `rest`, the text is one lexeme of the given kind that denotes `content`. -/
def Spells (text rest : List Char) (kind : TokenKind) (content : String) : Prop :=
  ∃ c cs, text = c :: cs ∧ isBlank c = false ∧ Lexeme.read c (cs ++ rest) = .ok ⟨kind, content, text.length⟩

/-- Before `rest`, the text is the tokens `ts` if its first character has the given offset. -/
def Tokenizes (offset : Nat) (text rest : List Char) (ts : List Token) : Prop :=
  (TokenStream.read offset (text ++ rest)).Passes ts (.read (offset + text.length) rest)

/-- Nothing comes any more, or a closing parenthesis. -/
def Ends (rest : List Char) : Prop :=
  ∀ c ∈ rest.head?, c = ')'

/-- The key is a letter and word characters, and no reserved word. -/
def IsIdentifier (key : String) : Prop :=
  ∃ c cs, key.toList = c :: cs ∧ c.isAlpha ∧ (∀ d ∈ cs, isWordChar d) ∧ key ≠ "true" ∧ key ≠ "false" ∧ key ≠ "null"

/-- The literal is one number with the given value. -/
inductive NumberLiteral : String → Float → Prop where
  | integer {c : Char} {cs : List Char} {n : Nat} (hc : c.isDigit)
      (hread : Lexeme.readNumber (c :: cs) = .verbatim .integer (c :: cs))
      (hn : Numeral.integer? (c :: cs) = some n) :
      NumberLiteral (String.ofList (c :: cs)) (Float.ofNat n)
  | decimal {c : Char} {cs : List Char} {x : Decimal} (hc : c.isDigit)
      (hread : Lexeme.readNumber (c :: cs) = .verbatim .decimal (c :: cs))
      (hx : Numeral.decimal? (c :: cs) = some x) :
      NumberLiteral (String.ofList (c :: cs)) x.toFloat

/-- The characters that stand for `c` inside a string: a quote and a backslash are escaped. -/
def escape (c : Char) : List Char :=
  if c = '\'' ∨ c = '\\' then ['\\', c] else [c]

/-- The string in quotes. -/
def quoted (s : String) : String :=
  "'" ++ String.ofList (s.toList.flatMap escape) ++ "'"

/-- A text that spells a lexeme is one token wherever reading began, and the stream goes on behind the text. -/
theorem Spells.passes {text rest : List Char} {kind : TokenKind} {content : String}
    (h : Spells text rest kind content) (start offset : Nat) :
    (TokenStream.readFrom start offset 0 (text ++ rest)).Passes [⟨kind, content, offset, offset + text.length⟩]
      (.read (offset + text.length) rest) := by
  obtain ⟨c, cs, rfl, hc, hread⟩ := h
  have hstream := TokenStream.readFrom_token start offset hc hread
  dsimp only at hstream
  rw [List.cons_append, hstream, ← List.cons_append, List.drop_left]
  exact .cons _ _ (.nil _)

theorem Spells.tokenizes {text rest : List Char} {kind : TokenKind} {content : String}
    (h : Spells text rest kind content) (offset : Nat) :
    Tokenizes offset text rest [⟨kind, content, offset, offset + text.length⟩] :=
  h.passes offset offset

theorem Tokenizes.append {offset : Nat} {text text' rest : List Char} {ts us : List Token}
    (h : Tokenizes offset text (text' ++ rest) ts) (h' : Tokenizes (offset + text.length) text' rest us) :
    Tokenizes offset (text ++ text') rest (ts ++ us) := by
  unfold Tokenizes at h h' ⊢
  rw [List.append_assoc, List.length_append, ← Nat.add_assoc]
  exact TokenStream.Passes.append h h'

/-- A text that is the tokens at the end of the input has these tokens. -/
theorem Tokenizes.tokenize_eq {text : String} {ts : List Token} (h : Tokenizes 0 text.toList [] ts) :
    tokenize text = .ok ts := by
  unfold Tokenizes at h
  rw [List.append_nil] at h
  exact tokenize_eq_ok_iff.2 ⟨_, _, h⟩

/-! ### Words -/

private theorem not_blank {p : Char → Bool} {c : Char} (h : p c) (hspace : p ' ' = false) (htab : p '\t' = false) :
    isBlank c = false := by
  have hs : c ≠ ' ' := by
    rintro rfl
    rw [hspace] at h
    cases h
  have ht : c ≠ '\t' := by
    rintro rfl
    rw [htab] at h
    cases h
  simp [isBlank, hs, ht]

/-- Behind a letter the word is read as far as it goes. -/
theorem Lexeme.read_of_isAlpha {c : Char} (hc : c.isAlpha) (rest : List Char) :
    read c rest = .ok (ofWord (c :: rest.takeWhile isWordChar)) := by
  have hquote : c ≠ '\'' := by
    rintro rfl
    revert hc
    decide
  rw [read, if_neg hquote, if_pos hc]

/-- A word is read to its end if no word character follows it. -/
theorem spells_word {c : Char} {cs rest : List Char} (hc : c.isAlpha) (hcs : ∀ d ∈ cs, isWordChar d)
    (hrest : ∀ d ∈ rest.head?, isWordChar d = false) :
    Spells (c :: cs) rest (Lexeme.wordKind (c :: cs)) (String.ofList (c :: cs)) := by
  refine ⟨c, cs, rfl, not_blank hc (by decide) (by decide), ?_⟩
  have hword : (cs ++ rest).takeWhile isWordChar = cs := by
    rw [List.takeWhile_append_of_pos hcs]
    cases rest with
    | nil => simp
    | cons d rest =>
      have hd := hrest d rfl
      simp [hd]
  rw [Lexeme.read_of_isAlpha hc, hword]
  rfl

theorem spells_true {rest : List Char} (hrest : ∀ d ∈ rest.head?, isWordChar d = false) :
    Spells ['t', 'r', 'u', 'e'] rest .trueWord "true" :=
  spells_word (by decide) (List.all_eq_true.1 (by decide)) hrest

theorem spells_false {rest : List Char} (hrest : ∀ d ∈ rest.head?, isWordChar d = false) :
    Spells ['f', 'a', 'l', 's', 'e'] rest .falseWord "false" :=
  spells_word (by decide) (List.all_eq_true.1 (by decide)) hrest

theorem spells_null {rest : List Char} (hrest : ∀ d ∈ rest.head?, isWordChar d = false) :
    Spells ['n', 'u', 'l', 'l'] rest .nullWord "null" :=
  spells_word (by decide) (List.all_eq_true.1 (by decide)) hrest

/-- A word is reserved only as a whole. -/
theorem wordKind_eq_identifier {key : String} (htrue : key ≠ "true") (hfalse : key ≠ "false") (hnull : key ≠ "null") :
    Lexeme.wordKind key.toList = .identifier := by
  unfold Lexeme.wordKind
  split
  · rename_i h
    exact absurd (String.toList_inj.1 h) htrue
  · rename_i h
    exact absurd (String.toList_inj.1 h) hfalse
  · rename_i h
    exact absurd (String.toList_inj.1 h) hnull
  · rfl

theorem IsIdentifier.spells {key : String} (h : IsIdentifier key) {rest : List Char}
    (hrest : ∀ d ∈ rest.head?, isWordChar d = false) : Spells key.toList rest .identifier key := by
  obtain ⟨c, cs, hkey, hc, hcs, htrue, hfalse, hnull⟩ := h
  have hspells := spells_word hc hcs hrest
  rw [← hkey, String.ofList_toList] at hspells
  rwa [wordKind_eq_identifier htrue hfalse hnull] at hspells

/-- A dot is in no identifier. -/
theorem IsIdentifier.dot_not_mem {key : String} (h : IsIdentifier key) : '.' ∉ key.toList := by
  obtain ⟨c, cs, hkey, hc, hcs, -⟩ := h
  intro hdot
  rw [hkey] at hdot
  rcases List.mem_cons.1 hdot with rfl | hdot
  · exact absurd hc (by decide)
  · exact absurd (hcs '.' hdot) (by decide)

theorem ends_nil : Ends [] :=
  fun _ hc => by cases hc

theorem ends_closing (rest : List Char) : Ends (')' :: rest) :=
  fun _ hc => (Option.some.inj hc).symm

/-- No lexeme goes on at the end. -/
theorem Ends.delimited {rest : List Char} (h : Ends rest) : Delimited rest := by
  intro d hd
  rw [h d hd]
  decide

/-! ### Numbers -/

private theorem not_isAlpha_of_isDigit {c : Char} (h : c.isDigit) : ¬c.isAlpha := by
  have hdigit : c.toNat ≤ 57 := (Char.isDigit_iff_toNat.1 h).2
  intro halpha
  rcases Bool.or_eq_true_iff.1 halpha with hupper | hlower
  · have hletter : 65 ≤ c.toNat := (of_decide_eq_true hupper).1
    omega
  · have hletter : 97 ≤ c.toNat := of_decide_eq_true (Bool.and_eq_true_iff.1 hlower).1
    omega

/-- Behind a digit a number is read. -/
theorem Lexeme.read_of_isDigit {c : Char} (hc : c.isDigit) (rest : List Char) :
    read c rest = .ok (readNumber (c :: rest)) := by
  have hquote : c ≠ '\'' := by
    rintro rfl
    revert hc
    decide
  rw [read, if_neg hquote, if_neg (not_isAlpha_of_isDigit hc), if_pos hc]

/-- A number before a delimiter is read as the lexeme that it is by itself. -/
theorem spells_number {c : Char} {cs rest : List Char} {kind : TokenKind} (hc : c.isDigit)
    (hread : Lexeme.readNumber (c :: cs) = .verbatim kind (c :: cs)) (hrest : Delimited rest) :
    Spells (c :: cs) rest kind (String.ofList (c :: cs)) := by
  refine ⟨c, cs, rfl, not_blank hc (by decide) (by decide), ?_⟩
  have hnumber : Lexeme.readNumber (c :: (cs ++ rest)) = .verbatim kind (c :: cs) := by
    rw [← List.cons_append, Lexeme.readNumber_append hrest, hread]
  rw [Lexeme.read_of_isDigit hc, hnumber]
  rfl

/-! ### Strings -/

private theorem denotes_escape (cs : List Char) : Denotes (cs.flatMap escape) cs := by
  induction cs with
  | nil => exact .nil
  | cons c cs ih =>
    rw [List.flatMap_cons, escape]
    by_cases hc : c = '\'' ∨ c = '\\'
    · have hescape : (c, c) ∈ escapes := by
        rcases hc with rfl | rfl <;> decide
      rw [if_pos hc]
      exact .escaped hescape ih
    · obtain ⟨hquote, hbackslash⟩ := not_or.1 hc
      rw [if_neg hc]
      exact .raw hquote hbackslash ih

theorem toList_quoted (s : String) : (quoted s).toList = '\'' :: (s.toList.flatMap escape ++ ['\'']) := by
  simp [quoted]

theorem length_quoted_pos (s : String) : 0 < (quoted s).length := by
  rw [← String.length_toList, toList_quoted]
  exact Nat.succ_pos _

/-- A quoted string is read as the string. -/
theorem spells_quoted (s : String) (rest : List Char) : Spells (quoted s).toList rest .string s := by
  rw [toList_quoted]
  refine ⟨'\'', _, rfl, rfl, ?_⟩
  rw [List.append_assoc, List.singleton_append, Lexeme.read_closed (denotes_escape s.toList), String.ofList_toList]
  simp

/-! ### Operators and parentheses -/

/-- The kind of token that the operator is written as. -/
def BinOp.kind : BinOp → TokenKind
  | equal => .equal
  | notEqual => .notEqual
  | less => .less
  | greater => .greater
  | lessEqual => .lessEqual
  | greaterEqual => .greaterEqual
  | add => .plus
  | subtract => .minus
  | multiply => .times
  | divide => .divide
  | and => .andOp
  | or => .orOp

/-- The kind of token that the sign is written as. -/
def Sign.kind : Sign → TokenKind
  | plus => .plus
  | minus => .minus

theorem spells_leftParen (rest : List Char) : Spells ['('] rest .leftParen "(" := by
  refine ⟨'(', [], rfl, rfl, ?_⟩
  cases rest <;> rfl

theorem spells_rightParen (rest : List Char) : Spells [')'] rest .rightParen ")" := by
  refine ⟨')', [], rfl, rfl, ?_⟩
  cases rest <;> rfl

theorem spells_dot (rest : List Char) : Spells ['.'] rest .dot "." := by
  refine ⟨'.', [], rfl, rfl, ?_⟩
  cases rest <;> rfl

section

variable {rest : List Char} (hrest : Delimited rest)
include hrest

theorem BinOp.spells (op : BinOp) : Spells op.symbol.toList rest op.kind op.symbol := by
  cases op <;> exact ⟨_, _, rfl, rfl, Lexeme.read_append hrest rfl⟩

end

/-- A sign is one token, whatever comes behind it. -/
theorem Sign.spells (sign : Sign) (rest : List Char) : Spells sign.symbol.toList rest sign.kind sign.symbol := by
  cases sign <;> cases rest <;> exact ⟨_, _, rfl, rfl, rfl⟩

/-- A `!` is one token unless a `=` comes behind it. -/
theorem spells_not {rest : List Char} (hrest : ∀ c ∈ rest.head?, c ≠ '=') : Spells "!".toList rest .notOp "!" := by
  refine ⟨'!', [], rfl, rfl, ?_⟩
  cases rest with
  | nil => rfl
  | cons c rest =>
    have hdouble : Lexeme.doubleKind? '!' c = none := by
      have hc := hrest c rfl
      unfold Lexeme.doubleKind?
      split <;> first | rfl | contradiction
    have hread : Lexeme.readOperator? '!' (c :: rest) = some ⟨.notOp, "!", 1⟩ := by
      rw [Lexeme.readOperator?, hdouble]
      rfl
    rw [List.nil_append, Lexeme.read, hread]
    rfl

end DocFilter
