import DocFilter.Expr
import DocFilter.Value

/-!
# Evaluation errors

An operand can have the wrong kind, or a field path can lead through something that is no document.
-/

namespace DocFilter

/-- Why a key before the last one of a path leads nowhere. -/
inductive PathFault where
  | missing (key : String)
  | notAnObject (key : String) (found : Value.Kind)
  deriving DecidableEq, Repr

def PathFault.message : PathFault → String
  | missing key => s!"'{key}' is missing"
  | notAnObject key found => s!"'{key}' is {found.name}, not an object"

inductive EvalError where
  | logicOperand (op : BinOp) (found : Value.Kind)
  | negatedOperand (found : Value.Kind)
  | result (found : Value.Kind)
  | path (path : FieldPath) (fault : PathFault)
  deriving DecidableEq, Repr

namespace EvalError

def message : EvalError → String
  | logicOperand op found => s!"Type error: '{op.symbol}' requires boolean operands, got {found.name}"
  | negatedOperand found => s!"Type error: '!' requires a boolean operand, got {found.name}"
  | result found => s!"Type error: expression must evaluate to a boolean, got {found.name}"
  | path p fault => s!"Path error: cannot resolve '{p.display}': {fault.message}"

/-- Whether the error is about a field path; the others are about the kind of a value. -/
def isPathError : EvalError → Bool
  | path _ _ => true
  | _ => false

end EvalError

end DocFilter
