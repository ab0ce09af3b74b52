import DocFilter.Digit
import DocFilter.Token

/-!
# Lexemes

The lexical grammar at the head of a text: `Lexeme.read` takes the longest lexeme that starts there.  Positions are
counted from that head.  A lexeme is a word, a number, a quoted string or an operator; what starts none of them is
a `LexError`.  The main fact is that a lexeme takes at least one character and no more than there are
(`Lexeme.width_bounds`).
-/

namespace DocFilter

/-- What is wrong with a text that has no lexeme at its head. -/
inductive LexFault where
  | unterminatedString
  | invalidEscape (escape : Char)
  | unexpectedChar (char : Char)
  deriving DecidableEq, Repr

/-- A fault and where it is: at the opening quote of an unterminated string, at the backslash of an invalid escape,
at the unexpected character. -/
structure LexError where
  fault : LexFault
  position : Nat
  deriving DecidableEq, Repr

namespace LexError

/-- The same error in a text that has `n` more characters in front. -/
def shift (n : Nat) (e : LexError) : LexError :=
  { e with position := e.position + n }

/-- Where scanning goes on after the error in an input of `length` characters: behind the backslash of an invalid
escape; after any other fault nothing is left. -/
def resume (length : Nat) (e : LexError) : Nat :=
  match e.fault with
  | .invalidEscape _ => e.position + 1
  | _ => length

/-- Whether no further token follows the error. -/
def isFinal (e : LexError) : Bool :=
  match e.fault with
  | .invalidEscape _ => false
  | _ => true

def message (e : LexError) : String :=
  match e.fault with
  | .unterminatedString => s!"Unterminated string starting at position {e.position}"
  | .invalidEscape c => "Invalid escape sequence '\\" ++ c.toString ++ s!"' at position {e.position}"
  | .unexpectedChar c => s!"Unexpected character '{c}' at position {e.position}"

end LexError

/-! ### Lexemes and their characters -/

/-- A lexeme at the head of a text: its kind, its text and how many characters it takes. -/
structure Lexeme where
  kind : TokenKind
  text : String
  width : Nat
  deriving DecidableEq, Repr

/-- Blanks separate tokens and mean nothing else.  A line break is not a blank. -/
def isBlank (c : Char) : Bool :=
  c = ' ' || c = '\t'

/-- The characters of a word after its first letter. -/
def isWordChar (c : Char) : Bool :=
  c.isAlphanum || c = '_'

/-- The radix that a letter announces after a leading zero. -/
def radixOfMark? : Char → Option Nat
  | 'x' => some 16
  | 'o' => some 8
  | 'b' => some 2
  | _ => none

/-- The character that a backslash and the given letter stand for inside a string. -/
def unescape? : Char → Option Char
  | '\'' => some '\''
  | 't' => some '\t'
  | 'n' => some '\n'
  | 'r' => some '\r'
  | '\\' => some '\\'
  | '0' => some '\x00'
  | _ => none

namespace Lexeme

/-- A lexeme whose text is what it is spelled with. -/
def verbatim (kind : TokenKind) (spelling : List Char) : Lexeme :=
  ⟨kind, String.ofList spelling, spelling.length⟩

/-! ### Reading -/

/-- Reads the inside of a string and its closing quote.  `offset` counts the characters before the text, the opening
quote at 0 included; the answer is the string denoted and the offset behind the closing quote. -/
def readQuoted (offset : Nat) : List Char → Except LexError (List Char × Nat)
  | [] => .error ⟨.unterminatedString, 0⟩
  | '\'' :: _ => .ok ([], offset + 1)
  | '\\' :: [] => .error ⟨.unterminatedString, 0⟩
  | '\\' :: e :: rest =>
    match unescape? e with
    | none => .error ⟨.invalidEscape e, offset⟩
    | some c => (readQuoted (offset + 2) rest).map fun (cs, stop) => (c :: cs, stop)
  | c :: rest => (readQuoted (offset + 1) rest).map fun (cs, stop) => (c :: cs, stop)

/-- The kind of a word: a reserved word is reserved only as a whole. -/
def wordKind (word : List Char) : TokenKind :=
  match word with
  | ['t', 'r', 'u', 'e'] => .trueWord
  | ['f', 'a', 'l', 's', 'e'] => .falseWord
  | ['n', 'u', 'l', 'l'] => .nullWord
  | _ => .identifier

def ofWord (word : List Char) : Lexeme :=
  verbatim (wordKind word) word

/-- Reads a number whose first digit is known to stand at the head: digits of a radix after its mark, or decimal
digits with at most one point, after which no digit is needed. -/
def readNumber (text : List Char) : Lexeme :=
  match text with
  | '0' :: mark :: rest =>
    match radixOfMark? mark with
    | some radix => verbatim .integer ('0' :: mark :: rest.takeWhile (isDigitIn radix))
    | none => readDecimal text
  | _ => readDecimal text
where
  readDecimal (text : List Char) : Lexeme :=
    let whole := text.takeWhile Char.isDigit
    match text.dropWhile Char.isDigit with
    | '.' :: rest => verbatim .decimal (whole ++ '.' :: rest.takeWhile Char.isDigit)
    | _ => verbatim .integer whole

/-- The kind of an operator of two characters. -/
def doubleKind? : Char → Char → Option TokenKind
  | '=', '=' => some .equal
  | '!', '=' => some .notEqual
  | '>', '=' => some .greaterEqual
  | '<', '=' => some .lessEqual
  | '&', '&' => some .andOp
  | '|', '|' => some .orOp
  | _, _ => none

/-- The kind of an operator or delimiter of one character.  A lone `=` or `&` has no meaning, a lone `|` has that of
two. -/
def singleKind? : Char → Option TokenKind
  | '+' => some .plus
  | '-' => some .minus
  | '*' => some .times
  | '/' => some .divide
  | '(' => some .leftParen
  | ')' => some .rightParen
  | '.' => some .dot
  | '=' => some .unknown
  | '&' => some .unknown
  | '|' => some .orOp
  | '>' => some .greater
  | '<' => some .less
  | '!' => some .notOp
  | _ => none

/-- Reads an operator at the head of `c :: rest`, one of two characters if there is one. -/
def readOperator? (c : Char) (rest : List Char) : Option Lexeme :=
  match rest with
  | [] => (singleKind? c).map fun kind => verbatim kind [c]
  | d :: _ =>
    match doubleKind? c d with
    | some kind => some (verbatim kind [c, d])
    | none => (singleKind? c).map fun kind => verbatim kind [c]

/-- The longest lexeme at the head of the text `c :: rest`. -/
def read (c : Char) (rest : List Char) : Except LexError Lexeme :=
  if c = '\'' then
    (readQuoted 1 rest).map fun (cs, stop) => ⟨.string, String.ofList cs, stop⟩
  else if c.isAlpha then
    .ok (ofWord (c :: rest.takeWhile isWordChar))
  else if c.isDigit then
    .ok (readNumber (c :: rest))
  else
    match readOperator? c rest with
    | some lexeme => .ok lexeme
    | none => .error ⟨.unexpectedChar c, 0⟩

/-! ### Widths -/

/-- A string ends behind its start and within the text. -/
theorem readQuoted_bounds {offset : Nat} {text cs : List Char} {stop : Nat}
    (h : readQuoted offset text = .ok (cs, stop)) : offset < stop ∧ stop ≤ offset + text.length := by
  fun_induction readQuoted offset text generalizing cs stop with
  | case1 => simp at h
  | case2 => simp at h; simp; omega
  | case3 => simp at h
  | case4 => simp at h
  | case5 offset e rest c hc ih =>
    cases hr : readQuoted (offset + 2) rest with
    | error e => simp [hr, Except.map] at h
    | ok p =>
      have := ih hr
      simp [hr, Except.map] at h
      simp
      omega
  | case6 offset c rest _ _ _ ih =>
    cases hr : readQuoted (offset + 1) rest with
    | error e => simp [hr, Except.map] at h
    | ok p =>
      have := ih hr
      simp [hr, Except.map] at h
      simp
      omega

@[simp] theorem width_verbatim (kind : TokenKind) (spelling : List Char) :
    (verbatim kind spelling).width = spelling.length := rfl

private theorem length_takeWhile_le (p : Char → Bool) (text : List Char) :
    (text.takeWhile p).length ≤ text.length :=
  (List.takeWhile_prefix p).length_le

private theorem readDecimal_bounds (c : Char) (rest : List Char) (hc : c.isDigit) :
    0 < (readNumber.readDecimal (c :: rest)).width ∧
      (readNumber.readDecimal (c :: rest)).width ≤ (c :: rest).length := by
  have split := congrArg List.length (List.takeWhile_append_dropWhile (p := Char.isDigit) (l := c :: rest))
  rw [List.length_append] at split
  have pos : 0 < ((c :: rest).takeWhile Char.isDigit).length := by simp [hc]
  unfold readNumber.readDecimal
  split
  · rename_i fraction h
    rw [h] at split
    have := length_takeWhile_le Char.isDigit fraction
    simp only [width_verbatim, List.length_append, List.length_cons] at *
    omega
  · simp only [width_verbatim] at *
    omega

private theorem readNumber_bounds (c : Char) (rest : List Char) (hc : c.isDigit) :
    0 < (readNumber (c :: rest)).width ∧ (readNumber (c :: rest)).width ≤ (c :: rest).length := by
  unfold readNumber
  split
  · rename_i mark tail h
    obtain ⟨rfl, rfl⟩ := List.cons.inj h
    split
    · rename_i radix _
      have := length_takeWhile_le (isDigitIn radix) tail
      simp only [width_verbatim, List.length_cons]
      omega
    · exact readDecimal_bounds _ _ hc
  · exact readDecimal_bounds c rest hc

private theorem readOperator?_bounds {c : Char} {rest : List Char} {l : Lexeme}
    (h : readOperator? c rest = some l) : 0 < l.width ∧ l.width ≤ rest.length + 1 := by
  unfold readOperator? at h
  split at h
  · obtain ⟨kind, -, rfl⟩ := Option.map_eq_some_iff.1 h
    simp
  · split at h
    · obtain rfl := Option.some.inj h
      simp
    · obtain ⟨kind, -, rfl⟩ := Option.map_eq_some_iff.1 h
      simp

/-- A lexeme takes at least one character and no more than there are. -/
theorem width_bounds {c : Char} {rest : List Char} {l : Lexeme} (h : read c rest = .ok l) :
    0 < l.width ∧ l.width ≤ rest.length + 1 := by
  unfold read at h
  split at h
  · cases hq : readQuoted 1 rest with
    | error e => simp [hq, Except.map] at h
    | ok p =>
      have := readQuoted_bounds hq
      simp only [hq, Except.map, Except.ok.injEq] at h
      subst h
      simp only
      omega
  · split at h
    · obtain rfl := Except.ok.inj h
      have := length_takeWhile_le isWordChar rest
      simp only [ofWord, width_verbatim, List.length_cons]
      omega
    · split at h
      · rename_i hd
        obtain rfl := Except.ok.inj h
        exact readNumber_bounds c rest hd
      · split at h
        · rename_i l' ho
          obtain rfl := Except.ok.inj h
          exact readOperator?_bounds ho
        · simp at h

end Lexeme

end DocFilter
