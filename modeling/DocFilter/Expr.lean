import DocFilter.FieldPath

/-!
# Expressions

The trees of the filter language.  Parentheses leave no node, and every number is a binary64 number.
-/

namespace DocFilter

/-- Operators between two operands. -/
inductive BinOp where
  | equal
  | notEqual
  | less
  | greater
  | lessEqual
  | greaterEqual
  | add
  | subtract
  | multiply
  | divide
  | and
  | or
  deriving DecidableEq, Repr

namespace BinOp

/-- Every operator once, by level from comparison to logic. -/
def all : List BinOp :=
  [equal, notEqual, less, greater, lessEqual, greaterEqual, add, subtract, multiply, divide, .and, .or]

def symbol : BinOp → String
  | equal => "=="
  | notEqual => "!="
  | less => "<"
  | greater => ">"
  | lessEqual => "<="
  | greaterEqual => ">="
  | add => "+"
  | subtract => "-"
  | multiply => "*"
  | divide => "/"
  | and => "&&"
  | or => "||"

theorem mem_all (op : BinOp) : op ∈ all := by
  cases op <;> decide

theorem symbol_injective {a b : BinOp} (h : a.symbol = b.symbol) : a = b := by
  revert h
  cases a <;> cases b <;> decide

end BinOp

/-- Signs in front of a number. -/
inductive Sign where
  | plus
  | minus
  deriving DecidableEq, Repr

def Sign.symbol : Sign → String
  | plus => "+"
  | minus => "-"

/-- An expression of the filter language. -/
inductive Expr where
  | binary (op : BinOp) (left right : Expr)
  | signed (sign : Sign) (operand : Expr)
  | not (operand : Expr)
  | bool (value : Bool)
  | number (value : Float)
  | string (value : String)
  | null
  | field (path : FieldPath)
  deriving DecidableEq

end DocFilter
