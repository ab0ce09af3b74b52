import DocFilter.Parser.Rule

/-!
# The grammar

From the loosest to the tightest level an expression is

* a chain of comparisons joined by `&&` and `||`, which share one level;
* a chain of truth values and sums joined by `==`, `!=`, `<`, `>`, `<=` and `>=`;
* `true`, `false`, a negated operand of the level above, or a sum;
* a chain of products, these chains of operands with at most one sign each;
* a string, a field path, `null`, a number, or an expression in parentheses.

The levels refer back to each other only through a group, a negation or a sign.  Each of these enters a level of
nesting, and every rule is told how many levels there are for it, its own included; with none everything is too deep.
The equations of the rules are `boolean_succ` and `operand_succ`.
-/

namespace DocFilter
namespace Grammar

mutual

/-- An operand of a comparison. -/
def boolean (limits : Limits) : (levels : Nat) → Rule Expr
  | 0, _ => .error (.tooDeep limits.maxDepth)
  | levels + 1, stream =>
    let operandHere := Rule.primary limits (Rule.logical limits (boolean limits levels))
    let arithmetic := Rule.sum limits (Rule.signed operandHere (operand limits levels))
    Rule.boolean arithmetic (boolean limits levels) stream

/-- An operand of a product without its sign. -/
def operand (limits : Limits) : (levels : Nat) → Rule Expr
  | 0, _ => .error (.tooDeep limits.maxDepth)
  | levels + 1, stream => Rule.primary limits (Rule.logical limits (boolean limits levels)) stream

end

/-- An operand of a product with its sign. -/
def signed (limits : Limits) (levels : Nat) : Rule Expr :=
  Rule.signed (operand limits levels) (operand limits (levels - 1))

/-- Operands joined by `*` and `/`. -/
def product (limits : Limits) (levels : Nat) : Rule Expr :=
  Rule.product limits (signed limits levels)

/-- Products joined by `+` and `-`. -/
def sum (limits : Limits) (levels : Nat) : Rule Expr :=
  Rule.sum limits (signed limits levels)

/-- Truth values and sums joined by relations. -/
def comparison (limits : Limits) (levels : Nat) : Rule Expr :=
  Rule.comparison limits (boolean limits levels)

/-- A complete expression. -/
def expression (limits : Limits) (levels : Nat) : Rule Expr :=
  Rule.logical limits (boolean limits levels)

theorem boolean_succ (limits : Limits) (levels : Nat) :
    boolean limits (levels + 1) = Rule.boolean (sum limits (levels + 1)) (boolean limits levels) := rfl

theorem operand_succ (limits : Limits) (levels : Nat) :
    operand limits (levels + 1) = Rule.primary limits (expression limits levels) := rfl

end Grammar
end DocFilter
