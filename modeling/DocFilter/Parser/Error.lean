import DocFilter.Token.Stream

/-!
# Parse errors

Why a text is no expression.  The errors that another alternative may repair are the backtrackable ones: the text
ended too early, or a token is not the expected one.  Malformed text, bad numbers and exceeded limits are final.
-/

namespace DocFilter

inductive ParseError where
  | endOfStream (position : Nat)
  | unexpectedToken (expected : TokenKind) (found : Token)
  | scan (error : LexError)
  | noAlternative (position : Nat) (source : ParseError)
  | invalidNumber (literal : Token)
  | trailingInput (found : Token)
  | tooDeep (maxDepth : Nat)
  | chainTooLong (maxChain : Nat)
  deriving DecidableEq, Repr

namespace ParseError

/-- The error of a token that is required where the stream stops. -/
def ofStop : Stop → ParseError
  | .endOfInput position => endOfStream position
  | .malformed error => scan error

/-- Whether another alternative may still match at the same place. -/
def isBacktrackable : ParseError → Bool
  | endOfStream _ => true
  | unexpectedToken _ _ => true
  | noAlternative _ _ => true
  | _ => false

/-- Whether the text ended where a token was required. -/
def isEndOfStream : ParseError → Bool
  | endOfStream _ => true
  | _ => false

/-- The reason at the bottom of nested alternatives. -/
def innermost : ParseError → ParseError
  | noAlternative _ source => source.innermost
  | e => e

def message : ParseError → String
  | endOfStream p => s!"Unexpected end of expression at position {p}"
  | unexpectedToken expected found =>
    s!"Expected {expected.describe}, found {found.kind.describe} '{found.text}' at position {found.position}"
  | scan e => s!"Scan error: {e.message}"
  | noAlternative p source => s!"No expression matches at position {p}: {source.message}"
  | invalidNumber literal => s!"Invalid number literal '{literal.text}' at position {literal.position}"
  | trailingInput found => s!"Unexpected trailing input '{found.text}' at position {found.position}"
  | tooDeep maxDepth => s!"Expression nesting exceeds the maximum depth of {maxDepth}"
  | chainTooLong maxChain => s!"Operator chain exceeds the maximum length of {maxChain}"

end ParseError

end DocFilter
