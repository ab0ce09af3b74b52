import DocFilter.Parser
import DocFilter.Proofs.Grammar.Soundness
import DocFilter.Proofs.Parser.Production

/-!
# The backtracking parser

The parser as a machine with a cursor.  Its productions know how deep they are nested, try one alternative after the
other and put the cursor back when they fail, so the next alternative scans the same tokens again.  Each of them
implements the rule of the grammar for the levels that are left (`boolean_implements`, `operand_implements` and what is
put together of them), and the whole machine does what `Parser.parse` does (`parse_eq`).
-/

namespace DocFilter
namespace Backtracking

open Procedure

mutual

/-- Comparisons joined by `&&` and `||`. -/
def expression (limits : Limits) (depth : Nat) : Procedure Expr :=
  chain limits BinOp.logical? (comparison limits depth)
termination_by (limits.maxDepth - depth, 6)

/-- Truth values and sums joined by relations. -/
def comparison (limits : Limits) (depth : Nat) : Procedure Expr :=
  chain limits BinOp.relational? (boolean limits depth)
termination_by (limits.maxDepth - depth, 5)

/-- A truth value, a sum or a negation. -/
def boolean (limits : Limits) (depth : Nat) : Procedure Expr :=
  Procedure.boolean (sum limits depth)
    (if depth < limits.maxDepth then boolean limits (depth + 1) else fail (.tooDeep limits.maxDepth))
termination_by (limits.maxDepth - depth, 4)

/-- Products joined by `+` and `-`. -/
def sum (limits : Limits) (depth : Nat) : Procedure Expr :=
  chain limits BinOp.additive? (product limits depth)
termination_by (limits.maxDepth - depth, 3)

/-- Operands joined by `*` and `/`. -/
def product (limits : Limits) (depth : Nat) : Procedure Expr :=
  chain limits BinOp.multiplicative? (signed limits depth)
termination_by (limits.maxDepth - depth, 2)

/-- An operand with at most one sign in front. -/
def signed (limits : Limits) (depth : Nat) : Procedure Expr :=
  Procedure.signed (operand limits depth)
    (if depth < limits.maxDepth then operand limits (depth + 1) else fail (.tooDeep limits.maxDepth))
termination_by (limits.maxDepth - depth, 1)

/-- A string, a path, `null`, a number or a group in parentheses. -/
def operand (limits : Limits) (depth : Nat) : Procedure Expr :=
  primary limits
    (if depth < limits.maxDepth then expression limits (depth + 1) else fail (.tooDeep limits.maxDepth))
termination_by (limits.maxDepth - depth, 0)

end

/-- Reads the end of the input behind the expression `e`. -/
def conclude (e : Expr) : Procedure Expr := fun l =>
  match l.scan with
  | (.error (.endOfInput _), next) => (.ok e, next)
  | (.error (.malformed fault), next) => (.error (.scan fault), next)
  | (.ok token, next) => (.error (.trailingInput token), next)

/-- Reads an expression that reaches to the end of the input.  A cursor behind an expression that does not is left
where the next scan takes it. -/
def parse (limits : Limits) : Procedure Expr := do
  let e ← expression limits 0
  conclude e

/-! ### Productions and rules -/

/-- How many levels of nesting are left at the given depth, the one of the depth included. -/
def levelsAt (limits : Limits) (depth : Nat) : Nat :=
  limits.maxDepth - depth + 1

variable {limits : Limits} {depth : Nat}

/-- One level deeper, a procedure implements the rule for one level less, if there is another level. -/
private theorem deeper_implements {α : Type} {p : Nat → Procedure α} {rule : Nat → Rule α}
    (hzero : rule 0 = fun _ => .error (.tooDeep limits.maxDepth))
    (h : depth < limits.maxDepth → Implements (p (depth + 1)) (rule (levelsAt limits (depth + 1)))) :
    Implements (if depth < limits.maxDepth then p (depth + 1) else fail (.tooDeep limits.maxDepth))
      (rule (limits.maxDepth - depth)) := by
  by_cases hdepth : depth < limits.maxDepth
  · have hlevels : levelsAt limits (depth + 1) = limits.maxDepth - depth := by
      unfold levelsAt
      omega
    rw [if_pos hdepth, ← hlevels]
    exact h hdepth
  · rw [if_neg hdepth, Nat.sub_eq_zero_of_le (Nat.le_of_not_lt hdepth), hzero]
    exact fun _ => .error _ rfl

private theorem sum_not (levels start : Nat) {t : Token} (rest : TokenStream) (hk : t.kind = .notOp) :
    Grammar.sum limits (levels + 1) (.token start t rest) = .error (.unexpectedToken .leftParen t) := by
  have hsigned : Grammar.signed limits (levels + 1) (.token start t rest) = .error (.unexpectedToken .leftParen t) := by
    rw [Grammar.signed, Rule.signed, hk]
    dsimp only [Sign.ofKind?]
    rw [Grammar.operand_succ, Rule.primary, hk]
  rw [Grammar.sum, Rule.sum, Rule.chain, Rule.product, Rule.chain, hsigned]
  rfl

section

variable (hoperand : Implements (operand limits depth) (Grammar.operand limits (levelsAt limits depth)))
  (hdeeper : depth < limits.maxDepth →
    Implements (operand limits (depth + 1)) (Grammar.operand limits (levelsAt limits (depth + 1))))
include hoperand hdeeper

private theorem signed_of_operand :
    Implements (signed limits depth) (Grammar.signed limits (levelsAt limits depth)) := by
  rw [signed]
  exact Procedure.signed_implements hoperand (deeper_implements rfl hdeeper)

private theorem product_of_operand :
    Implements (product limits depth) (Grammar.product limits (levelsAt limits depth)) := by
  rw [product]
  exact chain_implements (signed_of_operand hoperand hdeeper)

private theorem sum_of_operand : Implements (sum limits depth) (Grammar.sum limits (levelsAt limits depth)) := by
  rw [sum]
  exact chain_implements (product_of_operand hoperand hdeeper)

end

section

variable (hboolean : Implements (boolean limits depth) (Grammar.boolean limits (levelsAt limits depth)))
include hboolean

private theorem comparison_of_boolean :
    Implements (comparison limits depth) (Grammar.comparison limits (levelsAt limits depth)) := by
  rw [comparison]
  exact chain_implements hboolean

private theorem expression_of_boolean :
    Implements (expression limits depth) (Grammar.expression limits (levelsAt limits depth)) := by
  rw [expression]
  exact chain_implements (comparison_of_boolean hboolean)

end

private theorem boolean_and_operand_implement (limits : Limits) (depth : Nat) :
    Implements (boolean limits depth) (Grammar.boolean limits (levelsAt limits depth)) ∧
      Implements (operand limits depth) (Grammar.operand limits (levelsAt limits depth)) := by
  -- whatever is nested in them is one level deeper
  have ih (_ : depth < limits.maxDepth) := boolean_and_operand_implement limits (depth + 1)
  have hoperand : Implements (operand limits depth) (Grammar.operand limits (levelsAt limits depth)) := by
    rw [operand]
    exact primary_implements (deeper_implements rfl fun hdepth => expression_of_boolean (ih hdepth).1)
  have hsum := sum_of_operand hoperand fun hdepth => (ih hdepth).2
  have hboolean : Implements (boolean limits depth) (Grammar.boolean limits (levelsAt limits depth)) := by
    rw [boolean]
    refine Procedure.boolean_implements hsum (deeper_implements rfl fun hdepth => (ih hdepth).1) ?_ ?_
    · intro start position
      exact ⟨.endOfStream position, rfl, rfl⟩
    · intro start head rest hk
      exact ⟨_, sum_not _ start rest hk, rfl⟩
  exact ⟨hboolean, hoperand⟩
termination_by limits.maxDepth - depth

section

variable (limits : Limits) (depth : Nat)

theorem boolean_implements : Implements (boolean limits depth) (Grammar.boolean limits (levelsAt limits depth)) :=
  (boolean_and_operand_implement limits depth).1

theorem operand_implements : Implements (operand limits depth) (Grammar.operand limits (levelsAt limits depth)) :=
  (boolean_and_operand_implement limits depth).2

theorem signed_implements : Implements (signed limits depth) (Grammar.signed limits (levelsAt limits depth)) :=
  signed_of_operand (operand_implements limits depth) fun _ => operand_implements limits (depth + 1)

theorem product_implements : Implements (product limits depth) (Grammar.product limits (levelsAt limits depth)) :=
  product_of_operand (operand_implements limits depth) fun _ => operand_implements limits (depth + 1)

theorem sum_implements : Implements (sum limits depth) (Grammar.sum limits (levelsAt limits depth)) :=
  sum_of_operand (operand_implements limits depth) fun _ => operand_implements limits (depth + 1)

theorem comparison_implements :
    Implements (comparison limits depth) (Grammar.comparison limits (levelsAt limits depth)) :=
  comparison_of_boolean (boolean_implements limits depth)

theorem expression_implements :
    Implements (expression limits depth) (Grammar.expression limits (levelsAt limits depth)) :=
  expression_of_boolean (boolean_implements limits depth)

end

/-! ### The whole machine -/

/-- Running a rule is running a procedure that implements it. -/
theorem run_eq_of_implements {α : Type} {p : Procedure α} {rule : Rule α} (h : Implements p rule) (q : Parser) :
    q.run rule = ((p q.lexer).1, { q with lexer := (p q.lexer).2 }) := by
  unfold Parser.run
  cases hread : rule q.lexer.stream with
  | error e => rw [h.of_error hread]
  | ok r =>
    obtain ⟨a, rest⟩ := r
    obtain ⟨next, ts, hnext, rfl, -, hinput⟩ := h.of_ok hread
    have hcursor : q.lexer.restore ⟨next.stream.position⟩ = next := by
      rw [Lexer.restore, next.position_stream, ← hinput]
    simp only [hnext, hcursor]

/-- The machine gives the answer of the parser and leaves the cursor where the parser does. -/
theorem parse_eq (q : Parser) :
    q.parse = ((parse q.limits q.lexer).1, { q with lexer := (parse q.limits q.lexer).2 }) := by
  have hrun := run_eq_of_implements (expression_implements q.limits 0) q
  rw [levelsAt, Nat.sub_zero] at hrun
  rw [Parser.parse, hrun]
  rcases hread : expression q.limits 0 q.lexer with ⟨e | e, next⟩
  · rw [parse, bind_error hread]
  · rw [parse, bind_ok hread]
    dsimp only
    rw [conclude]
    rcases hscan : next.scan with ⟨(position | fault) | token, last⟩ <;> rfl

end Backtracking
end DocFilter
