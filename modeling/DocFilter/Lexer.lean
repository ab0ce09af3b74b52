import DocFilter.Token.Stream

/-!
# Lexers

A lexer is an input and a cursor.  It gives one token at a time; a checkpoint is a saved cursor, and going back to
it gives the same tokens again.  A cursor may lie past the end, when a checkpoint of a longer input is restored.
Scanning again and again gives the tokens of the lexer's stream (`stream_eq_scan`).
-/

namespace DocFilter

structure Lexer where
  input : List Char
  position : Nat
  deriving DecidableEq, Repr

/-- A saved cursor. -/
structure Checkpoint where
  position : Nat
  deriving DecidableEq, Repr

/-- Why the next token was not taken. -/
inductive ExpectError where
  | mismatch (expected : TokenKind) (found : Token)
  | stopped (reason : Stop)
  deriving DecidableEq, Repr

namespace ExpectError

/-- The position that the error names. -/
def position : ExpectError → Nat
  | mismatch _ found => found.position
  | stopped reason => reason.position

/-- Whether every later attempt to read finds the end of the input. -/
def isFinal : ExpectError → Bool
  | mismatch _ _ => false
  | stopped reason => reason.isFinal

def message : ExpectError → String
  | mismatch expected found =>
    s!"Expected {expected.describe}, found {found.kind.describe} '{found.text}' at position {found.position}"
  | stopped reason => reason.message

end ExpectError

namespace Lexer

/-- A lexer in front of the first character. -/
def ofString (input : String) : Lexer :=
  ⟨input.toList, 0⟩

/-- Exchanges the input and goes to its start. -/
def setInput (_ : Lexer) (input : String) : Lexer :=
  ofString input

def checkpoint (l : Lexer) : Checkpoint :=
  ⟨l.position⟩

def restore (l : Lexer) (c : Checkpoint) : Lexer :=
  { l with position := c.position }

/-- The text from the cursor on. -/
def ahead (l : Lexer) : List Char :=
  l.input.drop l.position

/-- The next character, blank or not. -/
def peek? (l : Lexer) : Option Char :=
  l.ahead.head?

/-- Everything that is still to be read, as tokens. -/
def stream (l : Lexer) : TokenStream :=
  .read l.position l.ahead

/-- Reads the next token and goes behind it, or to where scanning goes on after an error. -/
def scan (l : Lexer) : Except Stop Token × Lexer :=
  let position := l.position + (l.ahead.takeWhile isBlank).length
  match l.ahead.dropWhile isBlank with
  | [] => (.error (.endOfInput position), { l with position })
  | c :: rest =>
    match Lexeme.read c rest with
    | .error e =>
      let e := e.shift position
      (.error (.malformed e), { l with position := e.resume l.input.length })
    | .ok lexeme =>
      let stop := position + lexeme.width
      (.ok ⟨lexeme.kind, lexeme.text, position, stop⟩, { l with position := stop })

/-- Takes the next token if it is of the expected kind; otherwise the lexer stays as it was. -/
def expect (expected : TokenKind) (l : Lexer) : Except ExpectError Token × Lexer :=
  match l.scan with
  | (.ok token, next) =>
    if token.kind = expected then (.ok token, next) else (.error (.mismatch expected token), l)
  | (.error reason, _) => (.error (.stopped reason), l)

/-- The stream of a lexer is what scanning again and again gives. -/
theorem stream_eq_scan (l : Lexer) :
    l.stream =
      match l.scan with
      | (.ok token, next) => .token l.position token next.stream
      | (.error reason, _) => .stop l.position reason := by
  unfold stream scan TokenStream.read
  rw [TokenStream.readFrom_blanks]
  have split : l.ahead.drop (l.ahead.takeWhile isBlank).length = l.ahead.dropWhile isBlank := by
    conv => lhs; arg 2; rw [← List.takeWhile_append_dropWhile (p := isBlank) (l := l.ahead)]
    rw [List.drop_left]
  cases hd : l.ahead.dropWhile isBlank with
  | nil => rfl
  | cons c rest =>
    have hc : isBlank c = false := by
      have := List.head?_dropWhile_not isBlank l.ahead
      rw [hd] at this
      simpa using this
    cases hr : Lexeme.read c rest with
    | error e => simp [TokenStream.readFrom, hc, hr]
    | ok lexeme =>
      have behind : (c :: rest).drop lexeme.width =
          l.input.drop (l.position + (l.ahead.takeWhile isBlank).length + lexeme.width) := by
        rw [← hd, ← split, ahead, List.drop_drop, List.drop_drop, Nat.add_assoc]
      simp only [TokenStream.readFrom_token _ _ hc hr, hr, ahead, TokenStream.read, behind]

end Lexer

end DocFilter
