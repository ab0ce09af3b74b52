import DocFilter.Proofs.Eval.Meaning

/-!
# Conjunctions

Whether a document satisfies `left && right`: not if it does not satisfy `left`, and if it does, the same as for
`right`.  A `right` that is no boolean is an error in both, though it is told in different words.
-/

namespace DocFilter

/-- The same truth value, or two errors of the same kind. -/
inductive TestsAlike : Except EvalError Bool → Except EvalError Bool → Prop where
  | ok (b : Bool) : TestsAlike (.ok b) (.ok b)
  | error {e e' : EvalError} (h : e.isPathError = e'.isPathError) : TestsAlike (.error e) (.error e')

namespace Expr

variable {doc : Document} {left : Expr}

theorem test_eq_ok_iff {e : Expr} {b : Bool} : e.test doc = .ok b ↔ e.eval doc = .ok (.bool b) := by
  rw [test]
  rcases e.eval doc with error | v
  · constructor <;> intro h <;> cases h
  · cases v with
    | bool a =>
      constructor
      · intro h
        obtain rfl := Except.ok.inj h
        rfl
      · intro h
        obtain rfl := Value.bool.inj (Except.ok.inj h)
        rfl
    | null | integer | float | string | object => constructor <;> intro h <;> cases h

theorem test_and_of_false (h : left.test doc = .ok false) (right : Expr) :
    (binary .and left right).test doc = .ok false := by
  rw [test_eq_ok_iff] at h ⊢
  rw [eval_binary, h]
  rfl

theorem test_and_of_true (h : left.test doc = .ok true) (right : Expr) :
    TestsAlike ((binary .and left right).test doc) (right.test doc) := by
  rw [test_eq_ok_iff] at h
  rw [test, eval_binary, h, test]
  rcases right.eval doc with error | v
  · exact .error rfl
  · cases v with
    | bool b => exact .ok b
    | null | integer | float | string | object => exact .error rfl

end Expr

end DocFilter
