import DocFilter.Token.Lexeme

/-!
# Token streams

A text as the sequence of its tokens, with the reason why the sequence stops.  `TokenStream.read` walks the
characters once; every node remembers where scanning for it began, so that the position of a stream is the cursor
of a reader that has taken everything before it (`position_read`).  A stream goes on behind each of its tokens as the
stream that is read there (`readFrom_token`).  `tokenize` lists the tokens of a text that is well formed to its end.
-/

namespace DocFilter

/-- Why no further token is there. -/
inductive Stop where
  | endOfInput (position : Nat)
  | malformed (error : LexError)
  deriving DecidableEq, Repr

namespace Stop

/-- The position that the stop names. -/
def position : Stop → Nat
  | endOfInput p => p
  | malformed e => e.position

/-- Whether every later attempt to read finds the end of the input. -/
def isFinal : Stop → Bool
  | endOfInput _ => true
  | malformed e => e.isFinal

def message : Stop → String
  | endOfInput p => s!"Unexpected end of input at position {p}"
  | malformed e => e.message

end Stop

/-- Tokens in order, ended by a stop.  `start` is where scanning for the node began, blanks not yet passed. -/
inductive TokenStream where
  | token (start : Nat) (head : Token) (rest : TokenStream)
  | stop (start : Nat) (reason : Stop)
  deriving DecidableEq, Repr

namespace TokenStream

/-- The cursor in front of the stream. -/
def position : TokenStream → Nat
  | token start _ _ => start
  | stop start _ => start

/-- The tokens of a stream, without the reason why it stops. -/
def tokens : TokenStream → List Token
  | token _ head rest => head :: rest.tokens
  | stop _ _ => []

/-- The reason why a stream stops. -/
def reason : TokenStream → Stop
  | token _ _ rest => rest.reason
  | stop _ reason => reason

/-- The stream of a text whose first character has the given `offset`.  The next `skip` characters belong to the
token read last; `start` is where that token ended. -/
def readFrom (start offset : Nat) : (skip : Nat) → List Char → TokenStream
  | _, [] => stop start (.endOfInput offset)
  | skip + 1, _ :: rest => readFrom start (offset + 1) skip rest
  | 0, c :: rest =>
    if isBlank c then
      readFrom start (offset + 1) 0 rest
    else
      match Lexeme.read c rest with
      | .error e => stop start (.malformed (e.shift offset))
      | .ok lexeme =>
        let behind := offset + lexeme.width
        token start ⟨lexeme.kind, lexeme.text, offset, behind⟩
          (readFrom behind (offset + 1) (lexeme.width - 1) rest)

/-- The stream of a text that starts at the cursor `position`. -/
def read (position : Nat) (text : List Char) : TokenStream :=
  readFrom position position 0 text

/-- The characters of a token that was read are passed over. -/
theorem readFrom_skip (start offset : Nat) {skip : Nat} {text : List Char} (h : skip ≤ text.length) :
    readFrom start offset skip text = readFrom start (offset + skip) 0 (text.drop skip) := by
  induction text generalizing offset skip with
  | nil =>
    obtain rfl : skip = 0 := by simpa using h
    rfl
  | cons c rest ih =>
    cases skip with
    | zero => rfl
    | succ skip =>
      have h' : skip ≤ rest.length := by simpa using h
      rw [readFrom, ih (offset + 1) h', List.drop_succ_cons]
      congr 1
      omega

/-- Blanks are passed over. -/
theorem readFrom_blanks (start offset : Nat) (text : List Char) :
    readFrom start offset 0 text =
      readFrom start (offset + (text.takeWhile isBlank).length) 0 (text.dropWhile isBlank) := by
  induction text generalizing offset with
  | nil => rfl
  | cons c rest ih =>
    by_cases h : isBlank c
    · rw [readFrom, if_pos h, ih, List.takeWhile_cons_of_pos h, List.dropWhile_cons_of_pos h, List.length_cons]
      congr 1
      omega
    · rw [List.takeWhile_cons_of_neg h, List.dropWhile_cons_of_neg h]
      rfl

/-- A lexeme at the head becomes a token, and the stream goes on behind it. -/
theorem readFrom_token {c : Char} {rest : List Char} {lexeme : Lexeme} (start offset : Nat) (hc : isBlank c = false)
    (h : Lexeme.read c rest = .ok lexeme) :
    readFrom start offset 0 (c :: rest) =
      token start ⟨lexeme.kind, lexeme.text, offset, offset + lexeme.width⟩
        (read (offset + lexeme.width) ((c :: rest).drop lexeme.width)) := by
  have bounds := Lexeme.width_bounds h
  obtain ⟨w, hw⟩ : ∃ w, lexeme.width = w + 1 := ⟨lexeme.width - 1, by omega⟩
  rw [readFrom, hc, h]
  simp only [Bool.false_eq_true, if_false, hw, Nat.add_sub_cancel, List.drop_succ_cons]
  rw [readFrom_skip _ _ (by omega), read]
  congr 2
  omega

theorem position_readFrom (start offset skip : Nat) (text : List Char) :
    (readFrom start offset skip text).position = start := by
  fun_induction readFrom start offset skip text with
  | case1 => rfl
  | case2 => assumption
  | case3 => assumption
  | case4 => rfl
  | case5 => rfl

@[simp] theorem position_read (position : Nat) (text : List Char) : (read position text).position = position :=
  position_readFrom ..

end TokenStream

/-- All tokens of a text, or the error that keeps it from being read to its end. -/
def tokenize (input : String) : Except LexError (List Token) :=
  let stream := TokenStream.read 0 input.toList
  match stream.reason with
  | .endOfInput _ => .ok stream.tokens
  | .malformed e => .error e

end DocFilter
