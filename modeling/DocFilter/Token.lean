/-!
# Tokens of the filter language

A token is a kind, a text and the span of characters that it was read from.  Positions count characters from
the start of the input.  `TokenKind.describe` is how an error names a kind.
-/

namespace DocFilter

/-- What a token is. -/
inductive TokenKind where
  | plus
  | minus
  | times
  | divide
  | leftParen
  | rightParen
  | dot
  | identifier
  | trueWord
  | falseWord
  | nullWord
  | andOp
  | orOp
  | notOp
  | equal
  | greater
  | less
  | greaterEqual
  | lessEqual
  | notEqual
  | string
  | integer
  | decimal
  | unknown
  deriving DecidableEq, Repr

namespace TokenKind

/-- Every kind once, operators and delimiters first. -/
def all : List TokenKind :=
  [plus, minus, times, divide, leftParen, rightParen, dot, identifier, trueWord, falseWord, nullWord, andOp, orOp,
    notOp, equal, greater, less, greaterEqual, lessEqual, notEqual, string, integer, decimal, unknown]

/-- The name of a kind in error messages: its spelling in quotes if it has only one, else a noun. -/
def describe : TokenKind → String
  | plus => "'+'"
  | minus => "'-'"
  | times => "'*'"
  | divide => "'/'"
  | leftParen => "'('"
  | rightParen => "')'"
  | dot => "'.'"
  | identifier => "identifier"
  | trueWord => "'true'"
  | falseWord => "'false'"
  | nullWord => "'null'"
  | andOp => "'&&'"
  | orOp => "'||'"
  | notOp => "'!'"
  | equal => "'=='"
  | greater => "'>'"
  | less => "'<'"
  | greaterEqual => "'>='"
  | lessEqual => "'<='"
  | notEqual => "'!='"
  | string => "string"
  | integer => "integer"
  | decimal => "float"
  | unknown => "unknown token"

theorem mem_all (k : TokenKind) : k ∈ all := by
  cases k <;> decide

end TokenKind

/-- A token covers the characters from `position` up to, not including, `stop`.  The text of a string token is the
string it denotes; the text of any other token is what stands in its span. -/
structure Token where
  kind : TokenKind
  text : String
  position : Nat
  stop : Nat
  deriving DecidableEq, Repr

end DocFilter
