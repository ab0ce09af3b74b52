import DocFilter.Lexer
import DocFilter.Parser.Grammar

/-!
# Parsers

A parser is a lexer and the limits it works under.  `Parser.parse` reads one complete expression from the cursor to
the end of the input and may be called again; `Expr.parse` does so for a text of its own.
-/

namespace DocFilter

structure Parser where
  lexer : Lexer
  limits : Limits
  deriving DecidableEq, Repr

namespace Parser

/-- Runs a rule at the cursor: success takes the cursor behind what was read, failure leaves it. -/
def run {α : Type} (rule : Rule α) (p : Parser) : Except ParseError α × Parser :=
  match rule p.lexer.stream with
  | .error e => (.error e, p)
  | .ok (result, rest) => (.ok result, { p with lexer := p.lexer.restore ⟨rest.position⟩ })

/-- Reads an expression that reaches to the end of the input. -/
def parse (p : Parser) : Except ParseError Expr × Parser :=
  match p.run (Grammar.expression p.limits (p.limits.maxDepth + 1)) with
  | (.error e, p) => (.error e, p)
  | (.ok expr, p) =>
    let (next, lexer) := p.lexer.scan
    let result :=
      match next with
      | .error (.endOfInput _) => .ok expr
      | .error (.malformed e) => .error (.scan e)
      | .ok token => .error (.trailingInput token)
    (result, { p with lexer })

end Parser

/-- The expression that a text is, under the given limits. -/
def Expr.parseWith (limits : Limits) (text : String) : Except ParseError Expr :=
  (Parser.parse ⟨.ofString text, limits⟩).1

/-- The expression that a text is, under the standard limits. -/
def Expr.parse (text : String) : Except ParseError Expr :=
  Expr.parseWith .standard text

end DocFilter
