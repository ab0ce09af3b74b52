import DocFilter.Eval

/-!
# The meaning of an expression

The value of an expression by plain recursion on its tree, and the proof that evaluation computes it
(`eval_eq_meaning`).  Evaluation walks down the left operands with a stack of operations that wait; the stack is
accounted for by `evalThen_eq`: evaluating under pending operations is taking the meaning and then applying them.
-/

namespace DocFilter

namespace Expr

/-- The meaning of an expression.  The left operand comes first; `&&` and `||` need a boolean there and look at the
right operand only if the left one leaves it open; every other operator needs both operands. -/
def meaning (doc : Document) : Expr → Except EvalError Value
  | binary .and left right => do
    let a ← BinOp.and.requireBool (← meaning doc left)
    if a then return .bool (← BinOp.and.requireBool (← meaning doc right)) else return .bool false
  | binary .or left right => do
    let a ← BinOp.or.requireBool (← meaning doc left)
    if a then return .bool true else return .bool (← BinOp.or.requireBool (← meaning doc right))
  | binary op left right => do
    let u ← meaning doc left
    let v ← meaning doc right
    op.combine u v
  | signed sign operand => do
    let v ← meaning doc operand
    return .float (sign.apply v.toNumber)
  | not operand => do
    let v ← meaning doc operand
    v.negate
  | bool b => return .bool b
  | number x => return .float x
  | string s => return .string s
  | null => return .null
  | field path => path.resolve doc

end Expr

namespace Pending

/-- Nothing changes when no operation waits. -/
@[simp] theorem applyAll_nil (v : Value) : applyAll [] v = pure v := rfl

private theorem apply_and (u : Value) (right : Except EvalError Value) :
    apply u ⟨.and, fun _ => right⟩ = do
      let a ← BinOp.and.requireBool u
      if a then return .bool (← BinOp.and.requireBool (← right)) else return .bool false := by
  cases hu : BinOp.and.requireBool u with
  | error e =>
    have hdecide : BinOp.and.decide? u = .error e := by rw [BinOp.decide?, hu]; rfl
    rw [apply, hdecide]
    rfl
  | ok a =>
    have hdecide : BinOp.and.decide? u = .ok (if a then none else some (.bool false)) := by
      rw [BinOp.decide?, hu]
      rfl
    rw [apply, hdecide]
    cases a with
    | true => cases right <;> rfl
    | false => rfl

private theorem apply_or (u : Value) (right : Except EvalError Value) :
    apply u ⟨.or, fun _ => right⟩ = do
      let a ← BinOp.or.requireBool u
      if a then return .bool true else return .bool (← BinOp.or.requireBool (← right)) := by
  cases hu : BinOp.or.requireBool u with
  | error e =>
    have hdecide : BinOp.or.decide? u = .error e := by rw [BinOp.decide?, hu]; rfl
    rw [apply, hdecide]
    rfl
  | ok a =>
    have hdecide : BinOp.or.decide? u = .ok (if a then some (.bool true) else none) := by
      rw [BinOp.decide?, hu]
      rfl
    rw [apply, hdecide]
    cases a with
    | true => rfl
    | false => cases right <;> rfl

end Pending

namespace Expr

/-- A binary operation means the operation that waits for its left operand, applied to the meaning of that. -/
private theorem meaning_binary (doc : Document) (op : BinOp) (left right : Expr) :
    meaning doc (binary op left right) =
      meaning doc left >>= fun u => Pending.apply u ⟨op, fun _ => meaning doc right⟩ := by
  cases op with
  | and => simp only [meaning, Pending.apply_and]
  | or => simp only [meaning, Pending.apply_or]
  | _ => rfl

/-- Evaluating an expression under pending operations is taking its meaning and then applying them. -/
theorem evalThen_eq (doc : Document) (e : Expr) (pending : List Pending) :
    e.evalThen doc pending = e.meaning doc >>= Pending.applyAll pending := by
  induction e generalizing pending with
  | binary op left right ihl ihr =>
    -- the operation joins the stack above the left operand, and its right operand starts a stack of its own
    have hright : evalThen doc right [] = meaning doc right := by
      rw [ihr]
      exact bind_pure _
    rw [evalThen, ihl, meaning_binary, bind_assoc, hright]
    rfl
  | signed sign operand ih =>
    rw [evalThen, meaning, ih]
    simp
  | not operand ih =>
    rw [evalThen, meaning, ih]
    simp
  | bool b => rfl
  | number x => rfl
  | string s => rfl
  | null => rfl
  | field path => rfl

/-- The value of a binary operation is the operation that waits for the left operand, applied to the value of that. -/
theorem eval_binary (doc : Document) (op : BinOp) (left right : Expr) :
    (binary op left right).eval doc = left.eval doc >>= fun u => Pending.apply u ⟨op, fun _ => right.eval doc⟩ := by
  have hmeaning (e : Expr) : e.evalThen doc [] = e.meaning doc := by
    rw [evalThen_eq]
    exact bind_pure _
  rw [eval, eval, eval, hmeaning, hmeaning, hmeaning, meaning_binary]

/-- The value of a signed operand is the number in its value, with the sign. -/
theorem eval_signed (doc : Document) (sign : Sign) (operand : Expr) :
    (signed sign operand).eval doc = operand.eval doc >>= fun v => .ok (.float (sign.apply v.toNumber)) := rfl

/-- The value of a negation is the negated value of its operand. -/
theorem eval_not (doc : Document) (operand : Expr) :
    (not operand).eval doc = operand.eval doc >>= Value.negate := by
  rw [eval, evalThen, eval]
  exact congrArg _ (funext fun v => bind_pure _)

/-- The value of a field is what its path leads to. -/
theorem eval_field (doc : Document) (path : FieldPath) : (field path).eval doc = path.resolve doc :=
  bind_pure _

/-- Evaluation gives the meaning of an expression, whatever operators are mixed in it: the same value, or the same
error of the first operand that fails. -/
theorem eval_eq_meaning (doc : Document) (e : Expr) : e.eval doc = e.meaning doc := by
  rw [eval, evalThen_eq]
  exact bind_pure _

/-- A right operand that fails is not evaluated if the left one decides. -/
example : (binary .and (bool false) (not null)).eval [] = .ok (.bool false) := rfl

end Expr

end DocFilter
