import DocFilter.Eval.Error

/-!
# Evaluation

The value of an expression over a document.  `Expr.evalThen` walks down the left operands and keeps for each of them
the step that waits for its value; nested activations happen only for right operands, signs and negations, so long
chains cost no depth.  `&&` and `||` do not evaluate a right operand if the left one decides.
-/

namespace DocFilter

namespace FieldPath

/-- Follows `path` from a document; `whole` is the path that errors name. -/
def resolveFrom (whole : FieldPath) (doc : Document) : FieldPath → Except EvalError Value
  | last key => .ok ((doc.lookup key).getD .null)
  | step key rest =>
    match doc.lookup key with
    | some (.object inner) => resolveFrom whole inner rest
    | some v => .error (.path whole (.notAnObject key v.kind))
    | none => .error (.path whole (.missing key))

/-- The value that a path leads to.  The last key may be absent, which reads as null; every other key must lead to a
document. -/
def resolve (doc : Document) (path : FieldPath) : Except EvalError Value :=
  resolveFrom path doc path

end FieldPath

namespace BinOp

/-- An operand of a logical operator. -/
def requireBool (op : BinOp) (v : Value) : Except EvalError Bool :=
  match v.asBool? with
  | some b => .ok b
  | none => .error (.logicOperand op v.kind)

/-- The result, if the left operand alone decides it. -/
def decide? (op : BinOp) (left : Value) : Except EvalError (Option Value) :=
  match op with
  | .and => do
    let b ← op.requireBool left
    return if b then none else some (.bool false)
  | .or => do
    let b ← op.requireBool left
    return if b then some (.bool true) else none
  | _ => .ok none

/-- The result for two operands of which the left one does not decide it.  Ordering and arithmetic see a number in
every value. -/
def combine (op : BinOp) (left right : Value) : Except EvalError Value :=
  match op with
  | .equal => .ok (.bool (left.looseEq right))
  | .notEqual => .ok (.bool (!left.looseEq right))
  | .less => .ok (.bool (left.toNumber < right.toNumber))
  | .greater => .ok (.bool (left.toNumber > right.toNumber))
  | .lessEqual => .ok (.bool (left.toNumber ≤ right.toNumber))
  | .greaterEqual => .ok (.bool (left.toNumber ≥ right.toNumber))
  | .add => .ok (.float (left.toNumber + right.toNumber))
  | .subtract => .ok (.float (left.toNumber - right.toNumber))
  | .multiply => .ok (.float (left.toNumber * right.toNumber))
  | .divide => .ok (.float (left.toNumber / right.toNumber))
  | .and | .or => (op.requireBool right).map .bool

end BinOp

def Sign.apply : Sign → Float → Float
  | plus, x => x
  | minus, x => -x

/-- The negation of a boolean. -/
def Value.negate : Value → Except EvalError Value
  | bool b => .ok (.bool !b)
  | v => .error (.negatedOperand v.kind)

/-- An operation that waits for its left operand. -/
structure Pending where
  op : BinOp
  right : Unit → Except EvalError Value

namespace Pending

def apply (left : Value) (p : Pending) : Except EvalError Value := do
  match ← p.op.decide? left with
  | some result => return result
  | none => p.op.combine left (← p.right ())

/-- Applies the pending operations to a value, the first one first. -/
def applyAll (pending : List Pending) (value : Value) : Except EvalError Value :=
  pending.foldlM apply value

end Pending

namespace Expr

/-- Evaluates an expression and then applies the operations that wait for its value. -/
def evalThen (doc : Document) : Expr → List Pending → Except EvalError Value
  | binary op left right, pending =>
    evalThen doc left (⟨op, fun _ => evalThen doc right []⟩ :: pending)
  | signed sign operand, pending => do
    let v ← evalThen doc operand []
    Pending.applyAll pending (.float (sign.apply v.toNumber))
  | not operand, pending => do
    let v ← evalThen doc operand []
    Pending.applyAll pending (← v.negate)
  | bool b, pending => Pending.applyAll pending (.bool b)
  | number x, pending => Pending.applyAll pending (.float x)
  | string s, pending => Pending.applyAll pending (.string s)
  | null, pending => Pending.applyAll pending .null
  | field path, pending => do
    Pending.applyAll pending (← path.resolve doc)

/-- The value of an expression over a document. -/
def eval (doc : Document) (e : Expr) : Except EvalError Value :=
  e.evalThen doc []

/-- Whether a document satisfies an expression, whose value must be a boolean. -/
def test (doc : Document) (e : Expr) : Except EvalError Bool := do
  let v ← e.eval doc
  match v.asBool? with
  | some b => .ok b
  | none => .error (.result v.kind)

end Expr

end DocFilter
