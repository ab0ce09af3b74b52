import DocFilter.Proofs.Eval.Activations
import DocFilter.Proofs.Grammar.Language

/-!
# Nesting

How deeply the evaluation of an expression is nested is bounded by how deeply its text is, however long the chains
and paths in it are (`parseWith_activations`).  Each of the four levels of operators adds one activation to the ones of
the operands that stand between its operators.  A group starts again from the loosest level, and a negation and a sign
add one activation; each of them is a level of the depth, which counts four.
-/

namespace DocFilter
namespace Grammar

/-- The activations of an operand of the level, if nothing in it has any depth. -/
def Level.height : Level → Nat
  | logical => 4
  | relational => 3
  | additive => 2
  | multiplicative => 1

namespace Part

/-- The activations of a part, if nothing in it has any depth. -/
def height : Part → Nat
  | chain level => level.height + 1
  | links level _ => level.height
  | boolean => 3
  | signed => 1
  | operand => 1

/-- The activations that evaluation needs for the tree of a part.  For links these are the ones within the activation
of their chain. -/
def activations (e : Expr) : Part → Nat
  | links _ _ => e.spineActivations
  | _ => e.activations

end Part

theorem Level.height_operand (level : Level) : level.operand.height = level.height := by
  cases level <;> rfl

theorem Level.activations_operand (level : Level) (e : Expr) : level.operand.activations e = e.activations := by
  cases level <;> rfl

/-- A part needs no more activations than its height and four for each level of its depth. -/
theorem Derives.activations_le {part : Part} {ts : List Token} {e : Expr} {d w : Nat} (h : Derives part ts e d w) :
    part.activations e ≤ 4 * d + part.height := by
  induction h with
  | @one level _ e _ _ _ ih =>
    rw [level.activations_operand, level.height_operand] at ih
    exact Nat.le_trans (Expr.spineActivations_le e) ih
  | @link level _ _ _ _ _ left right d _ d' _ _ _ _ ihl ihr =>
    -- what is behind the operator has an activation of its own, and the operands in front share the one of the chain
    rw [level.activations_operand, level.height_operand] at ihr
    have hleft : left.spineActivations ≤ 4 * max d d' + level.height :=
      Nat.le_trans ihl (Nat.add_le_add_right (Nat.mul_le_mul_left 4 (Nat.le_max_left d d')) _)
    have hright : right.activations ≤ 4 * max d d' + level.height :=
      Nat.le_trans ihr (Nat.add_le_add_right (Nat.mul_le_mul_left 4 (Nat.le_max_right d d')) _)
    exact Nat.max_le.2 ⟨hleft, hright⟩
  | @chain _ _ _ e _ _ _ ih => exact Nat.le_trans (Expr.activations_le e) (Nat.succ_le_succ ih)
  | arithmetic _ ih => exact ih
  | unsigned _ ih => exact ih
  | @negation _ _ e d _ _ _ ih =>
    have hoperand : e.activations ≤ 4 * d + 3 := ih
    show e.activations + 1 ≤ 4 * (d + 1) + 3
    omega
  | @booleanGroup _ _ _ e d _ _ _ _ ih =>
    have hinner : e.activations ≤ 4 * d + 5 := ih
    show e.activations ≤ 4 * (d + 1) + 3
    omega
  | @sign _ _ _ e d _ _ _ ih =>
    have hoperand : e.activations ≤ 4 * d + 1 := ih
    show e.activations + 1 ≤ 4 * (d + 1) + 1
    omega
  | group _ _ _ _ _ ih => exact ih
  | trueWord | falseWord => exact Nat.le_add_left 1 2
  | string | path | nullWord | decimal | integer => exact Nat.le_refl 1

/-- The evaluation of what has been parsed never has more activations open than four for each level of the depth that
the limits admit and five, whatever the lengths of chains that they admit and whatever the document is. -/
theorem parseWith_activations {limits : Limits} {text : String} {e : Expr} (h : Expr.parseWith limits text = .ok e) :
    e.activations ≤ 4 * limits.maxDepth + 5 ∧
      ∀ doc : Document, (e.metered doc).result = e.eval doc ∧ (e.metered doc).peak ≤ 4 * limits.maxDepth + 5 := by
  obtain ⟨ts, d, w, -, he, hd, -⟩ := sentence_of_parseWith h
  have hbound : e.activations ≤ 4 * limits.maxDepth + 5 :=
    Nat.le_trans he.activations_le (Nat.add_le_add_right (Nat.mul_le_mul_left 4 hd) 5)
  exact ⟨hbound, fun doc => ⟨e.result_metered doc, Nat.le_trans (e.peak_metered_le doc) hbound⟩⟩

/-- The bound is reached by one group, with an operand behind an operator of every level outside and inside of it. -/
theorem parseWith_activations_reached :
    ∃ e, Expr.parseWith ⟨1, 1⟩ "a && b == c + d * (a && b == c + d * e)" = .ok e ∧
      (e.metered [("a", .bool true)]).peak = 4 * 1 + 5 ∧ e.activations ≤ 4 * 1 + 5 ∧
      ∀ doc : Document, (e.metered doc).result = e.eval doc ∧ (e.metered doc).peak ≤ 4 * 1 + 5 :=
  ⟨_, rfl, rfl, @parseWith_activations ⟨1, 1⟩ "a && b == c + d * (a && b == c + d * e)" _ rfl⟩

end Grammar
end DocFilter
