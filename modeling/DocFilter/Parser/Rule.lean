import DocFilter.Expr
import DocFilter.Numeral
import DocFilter.Parser.Error

/-!
# Grammar rules

A rule takes tokens from the head of a stream and gives what it read and the rest of the stream, or an error.  A
rule that fails has taken nothing, so alternatives see the same stream.  The rules here are the building blocks of
the grammar: one token, left-folded chains of operators, dotted paths, and the three kinds of operand, each given
the rules for what may stand inside it.
-/

namespace DocFilter

/-- Bounds on what is accepted: how many groups, negations and signs may enclose a point, and how many operators a
chain and how many dots a path may have. -/
structure Limits where
  maxDepth : Nat
  maxChain : Nat
  deriving DecidableEq, Repr

/-- The limits that hold if nothing else is said. -/
def Limits.standard : Limits :=
  ⟨128, 4096⟩

/-- A rule of the grammar. -/
abbrev Rule (α : Type) :=
  TokenStream → Except ParseError (α × TokenStream)

/-! ### Operators by token -/

namespace BinOp

def logical? : TokenKind → Option BinOp
  | .andOp => some .and
  | .orOp => some .or
  | _ => none

def relational? : TokenKind → Option BinOp
  | .equal => some equal
  | .notEqual => some notEqual
  | .greater => some greater
  | .less => some less
  | .greaterEqual => some greaterEqual
  | .lessEqual => some lessEqual
  | _ => none

def additive? : TokenKind → Option BinOp
  | .plus => some add
  | .minus => some subtract
  | _ => none

def multiplicative? : TokenKind → Option BinOp
  | .times => some multiply
  | .divide => some divide
  | _ => none

end BinOp

def Sign.ofKind? : TokenKind → Option Sign
  | .plus => some plus
  | .minus => some minus
  | _ => none

/-! ### Chains and paths -/

namespace Rule

/-- One token of the expected kind. -/
def expect (expected : TokenKind) : Rule Token
  | .stop _ reason => .error (.ofStop reason)
  | .token _ head rest =>
    if head.kind = expected then .ok (head, rest) else .error (.unexpectedToken expected head)

/-- The operator at the head of a stream and the rest behind it, if one stands there. -/
def operatorAhead? (operator? : TokenKind → Option BinOp) : TokenStream → Option (BinOp × TokenStream)
  | .stop _ _ => none
  | .token _ head rest => (operator? head.kind).map fun op => (op, rest)

/-- Goes on with a chain whose operands up to now are `left`, for at most `budget` more operators. -/
def chainFrom (limits : Limits) (operator? : TokenKind → Option BinOp) (operand : Rule Expr) (budget : Nat)
    (left : Expr) : Rule Expr := fun stream =>
  match operatorAhead? operator? stream with
  | none => .ok (left, stream)
  | some (op, rest) =>
    match budget with
    | 0 => .error (.chainTooLong limits.maxChain)
    | budget + 1 => do
      let (right, rest) ← operand rest
      chainFrom limits operator? operand budget (.binary op left right) rest

/-- Operands with operators of one level between them, grouped from the left. -/
def chain (limits : Limits) (operator? : TokenKind → Option BinOp) (operand : Rule Expr) : Rule Expr :=
  fun stream => do
    let (left, rest) ← operand stream
    chainFrom limits operator? operand limits.maxChain left rest

/-- What stands behind a dot at the head of a stream. -/
def behindDot? : TokenStream → Option TokenStream
  | .stop _ _ => none
  | .token _ head rest => if head.kind = .dot then some rest else none

/-- Goes on with a path whose latest key is `key`, for at most `budget` more dots. -/
def pathFrom (limits : Limits) (budget : Nat) (key : String) : Rule FieldPath := fun stream =>
  match behindDot? stream with
  | none => .ok (.last key, stream)
  | some rest =>
    match budget with
    | 0 => .error (.chainTooLong limits.maxChain)
    | budget + 1 => do
      let (next, rest) ← expect .identifier rest
      let (path, rest) ← pathFrom limits budget next.text rest
      return (.step key path, rest)

/-- Identifiers joined by dots. -/
def path (limits : Limits) : Rule FieldPath := fun stream => do
  let (first, rest) ← expect .identifier stream
  pathFrom limits limits.maxChain first.text rest

/-! ### Operands -/

/-- The expression of a number token with the given value. -/
def number (literal : Token) (value? : Option Float) : Except ParseError Expr :=
  match value? with
  | some value => .ok (.number value)
  | none => .error (.invalidNumber literal)

def integer (literal : Token) : Except ParseError Expr :=
  number literal ((Numeral.integer? literal.text.toList).map Float.ofNat)

def decimal (literal : Token) : Except ParseError Expr :=
  number literal ((Numeral.decimal? literal.text.toList).map Decimal.toFloat)

/-- A string, a path, `null`, a number or a group in parentheses.  A path that breaks off is reported as if no path
had been tried: a group would have been the last alternative. -/
def primary (limits : Limits) (group : Rule Expr) : Rule Expr
  | .stop _ reason => .error (.ofStop reason)
  | .token start head rest =>
    match head.kind with
    | .string => .ok (.string head.text, rest)
    | .identifier =>
      match path limits (.token start head rest) with
      | .ok (path, rest) => .ok (.field path, rest)
      | .error e => .error (if e.isBacktrackable then .unexpectedToken .leftParen head else e)
    | .nullWord => .ok (.null, rest)
    | .decimal => (decimal head).map fun e => (e, rest)
    | .integer => (integer head).map fun e => (e, rest)
    | .leftParen => do
      let (inner, rest) ← group rest
      let (_, rest) ← expect .rightParen rest
      return (inner, rest)
    | _ => .error (.unexpectedToken .leftParen head)

/-- An operand with at most one sign in front; what follows a sign is one level deeper. -/
def signed (operand deeper : Rule Expr) : Rule Expr := fun stream =>
  match stream with
  | .stop _ reason => .error (.ofStop reason)
  | .token _ head rest =>
    match Sign.ofKind? head.kind with
    | some sign => do
      let (operand, rest) ← deeper rest
      return (.signed sign operand, rest)
    | none => operand stream

/-! ### Levels -/

def product (limits : Limits) (operand : Rule Expr) : Rule Expr :=
  chain limits BinOp.multiplicative? operand

def sum (limits : Limits) (operand : Rule Expr) : Rule Expr :=
  chain limits BinOp.additive? (product limits operand)

/-- A truth value, a negation or arithmetic.  Where arithmetic does not match, the error says that nothing does; a
parenthesis is an exception, because a group has then already been tried and its own error tells more. -/
def boolean (arithmetic deeper : Rule Expr) : Rule Expr := fun stream =>
  match stream with
  | .stop _ reason => .error (.ofStop reason)
  | .token _ head rest =>
    match head.kind with
    | .trueWord => .ok (.bool true, rest)
    | .falseWord => .ok (.bool false, rest)
    | .notOp => do
      let (operand, rest) ← deeper rest
      return (.not operand, rest)
    | .leftParen => arithmetic stream
    | _ =>
      match arithmetic stream with
      | .ok result => .ok result
      | .error e => .error (if e.isBacktrackable then .noAlternative head.position e else e)

def comparison (limits : Limits) (operand : Rule Expr) : Rule Expr :=
  chain limits BinOp.relational? operand

def logical (limits : Limits) (operand : Rule Expr) : Rule Expr :=
  chain limits BinOp.logical? (comparison limits operand)

end Rule

end DocFilter
