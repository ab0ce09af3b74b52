import DocFilter.Proofs.Eval.Conjunction

/-!
# How wide a number is stored

A document may hold the same number as a whole number or as a float.  To an expression this makes no difference
(`test_of_alike`): whatever it does with a number it does with its binary64 value, and a number is never equal to
anything else, however it is stored.  So two evaluations stay alike along the tree if they are alike on its paths, from
operands to results (`Pending.apply_alike`), up to the width of the numbers that they carry.
-/

namespace DocFilter

namespace Value

/-- The same value, or two numbers with the same binary64 value. -/
inductive SameUpToWidth : Value → Value → Prop where
  | refl (v : Value) : SameUpToWidth v v
  | number {u v : Value} {x : Float} (hu : u.asFloat? = some x) (hv : v.asFloat? = some x) : SameUpToWidth u v

namespace SameUpToWidth

variable {u u' v v' : Value}

theorem asFloat?_eq (h : SameUpToWidth u v) : u.asFloat? = v.asFloat? := by
  cases h with
  | refl => rfl
  | number hu hv => rw [hu, hv]

theorem toNumber_eq (h : SameUpToWidth u v) : u.toNumber = v.toNumber :=
  congrArg (·.getD 0.0) h.asFloat?_eq

/-- What is no number is the same value. -/
theorem eq_of_asFloat?_eq_none (h : SameUpToWidth u v) (hu : u.asFloat? = none) : u = v := by
  cases h with
  | refl => rfl
  | number hnumber _ =>
    rw [hu] at hnumber
    cases hnumber

end SameUpToWidth

/-- Numbers are no booleans. -/
theorem asBool?_of_asFloat? {v : Value} {x : Float} (h : v.asFloat? = some x) : v.asBool? = none := by
  cases v with
  | integer | float => rfl
  | null | bool | string | object => cases h

private theorem beq_of_number {u v : Value} {x : Float} (hu : u.asFloat? = some x) (hv : v.asFloat? = none) :
    (u == v) = false ∧ (v == u) = false := by
  cases u with
  | integer | float =>
    cases v with
    | integer | float => cases hv
    | null | bool | string | object => exact ⟨rfl, rfl⟩
  | null | bool | string | object => cases hu

theorem SameUpToWidth.asBool?_eq {u v : Value} (h : SameUpToWidth u v) : u.asBool? = v.asBool? := by
  cases h with
  | refl => rfl
  | number hu hv => rw [asBool?_of_asFloat? hu, asBool?_of_asFloat? hv]

/-- Equality does not see how wide numbers are stored. -/
theorem SameUpToWidth.looseEq_eq {u u' v v' : Value} (hu : SameUpToWidth u u') (hv : SameUpToWidth v v') :
    u.looseEq v = u'.looseEq v' := by
  rw [looseEq, looseEq, ← hu.asFloat?_eq, ← hv.asFloat?_eq]
  cases hx : u.asFloat? with
  | none =>
    obtain rfl := hu.eq_of_asFloat?_eq_none hx
    cases hy : v.asFloat? with
    | none => rw [hv.eq_of_asFloat?_eq_none hy]
    | some y =>
      have hy' : v'.asFloat? = some y := hv.asFloat?_eq ▸ hy
      exact (beq_of_number hy hx).2.trans (beq_of_number hy' hx).2.symm
  | some x =>
    cases hy : v.asFloat? with
    | none =>
      have hx' : u'.asFloat? = some x := hu.asFloat?_eq ▸ hx
      obtain rfl := hv.eq_of_asFloat?_eq_none hy
      exact (beq_of_number hx hy).1.trans (beq_of_number hx' hy).1.symm
    | some y => rfl

end Value

open Value (SameUpToWidth)

/-! ### Results -/

/-- Two results that correspond by `R`, or two errors of the same kind. -/
inductive Alike {α β : Type} (R : α → β → Prop) : Except EvalError α → Except EvalError β → Prop where
  | ok {a : α} {b : β} (h : R a b) : Alike R (.ok a) (.ok b)
  | error {e e' : EvalError} (h : e.isPathError = e'.isPathError) : Alike R (.error e) (.error e')

namespace Alike

variable {α β γ δ : Type} {R : α → β → Prop} {S : γ → δ → Prop}

theorem bind {x : Except EvalError α} {y : Except EvalError β} {f : α → Except EvalError γ}
    {g : β → Except EvalError δ} (h : Alike R x y) (hfg : ∀ a b, R a b → Alike S (f a) (g b)) :
    Alike S (x >>= f) (y >>= g) := by
  cases h with
  | ok h => exact hfg _ _ h
  | error h => exact .error h

theorem map {x : Except EvalError α} {y : Except EvalError β} {f : α → γ} {g : β → δ} (h : Alike R x y)
    (hfg : ∀ a b, R a b → S (f a) (g b)) : Alike S (x.map f) (y.map g) := by
  cases h with
  | ok h => exact .ok (hfg _ _ h)
  | error h => exact .error h

end Alike

/-- The same value up to the width of numbers, or two errors of the same kind. -/
abbrev AlikeUpToWidth : Except EvalError Value → Except EvalError Value → Prop :=
  Alike SameUpToWidth

variable {u u' v v' : Value} {x y : Except EvalError Value}

theorem BinOp.requireBool_alike (op : BinOp) (h : SameUpToWidth u v) :
    Alike (· = ·) (op.requireBool u) (op.requireBool v) := by
  rw [requireBool, requireBool, ← h.asBool?_eq]
  cases u.asBool? with
  | none => exact .error rfl
  | some b => exact .ok rfl

theorem BinOp.decide?_alike (op : BinOp) (h : SameUpToWidth u v) :
    Alike (· = ·) (op.decide? u) (op.decide? v) := by
  have hbool := op.requireBool_alike h
  cases op with
  | and | or => exact hbool.bind fun a b hab => .ok (by rw [hab])
  | _ => exact .ok rfl

theorem BinOp.combine_alike (op : BinOp) (hu : SameUpToWidth u u') (hv : SameUpToWidth v v') :
    AlikeUpToWidth (op.combine u v) (op.combine u' v') := by
  have hsame {w w' : Value} (h : w = w') : AlikeUpToWidth (.ok w) (.ok w') := h ▸ .ok (.refl w)
  have hbool := op.requireBool_alike hv
  cases op with
  | equal | notEqual => exact hsame (by rw [hu.looseEq_eq hv])
  | and | or => exact hbool.map fun a b hab => hab ▸ .refl (.bool a)
  | less | greater | lessEqual | greaterEqual | add | subtract | multiply | divide =>
    exact hsame (by rw [hu.toNumber_eq, hv.toNumber_eq])

/-- A waiting operation does the same on both sides if its operands are alike. -/
theorem Pending.apply_alike (op : BinOp) (h : SameUpToWidth u v) (hright : AlikeUpToWidth x y) :
    AlikeUpToWidth (apply u ⟨op, fun _ => x⟩) (apply v ⟨op, fun _ => y⟩) := by
  refine (op.decide?_alike h).bind fun result _ hresult => ?_
  subst hresult
  cases result with
  | some w => exact .ok (.refl w)
  | none => exact hright.bind fun a b hab => op.combine_alike h hab

theorem Value.negate_alike (h : SameUpToWidth u v) : AlikeUpToWidth u.negate v.negate := by
  cases h with
  | refl =>
    cases u.negate with
    | ok w => exact .ok (.refl w)
    | error e => exact .error rfl
  | number hu hv =>
    have hnegate {w : Value} {z : Float} (hw : w.asFloat? = some z) : w.negate = .error (.negatedOperand w.kind) := by
      cases w with
      | bool => cases hw
      | _ => rfl
    rw [hnegate hu, hnegate hv]
    exact .error rfl

/-! ### Expressions -/

namespace Expr

/-- The paths of all fields in the expression. -/
def paths : Expr → List FieldPath
  | binary _ left right => left.paths ++ right.paths
  | signed _ operand | not operand => operand.paths
  | field path => [path]
  | _ => []

variable {e : Expr} {d d' : Document}

/-- Values are alike if those of all paths are. -/
theorem eval_alike (h : ∀ path ∈ e.paths, AlikeUpToWidth (path.resolve d) (path.resolve d')) :
    AlikeUpToWidth (e.eval d) (e.eval d') := by
  induction e with
  | binary op left right ihl ihr =>
    rw [paths, List.forall_mem_append] at h
    rw [eval_binary, eval_binary]
    exact (ihl h.1).bind fun u v huv => Pending.apply_alike op huv (ihr h.2)
  | signed sign operand ih =>
    rw [eval_signed, eval_signed]
    refine (ih h).bind fun u v huv => ?_
    rw [huv.toNumber_eq]
    exact .ok (.refl _)
  | not operand ih =>
    rw [eval_not, eval_not]
    exact (ih h).bind fun u v huv => Value.negate_alike huv
  | bool | number | string | null => exact .ok (.refl _)
  | field path =>
    rw [eval_field, eval_field]
    exact h path (List.mem_singleton_self path)

/-- How wide a number is stored makes no difference to a query.  If every path of an expression leads to the same value
in two documents, or to numbers with the same binary64 value, or fails in both, then both documents satisfy the
expression, or none does, or evaluation fails over both with errors of the same kind. -/
theorem test_of_alike (e : Expr) (d d' : Document)
    (h : ∀ path ∈ e.paths, AlikeUpToWidth (path.resolve d) (path.resolve d')) :
    TestsAlike (e.test d) (e.test d') := by
  have hvalue := eval_alike h
  rw [test, test]
  revert hvalue
  generalize e.eval d = x
  generalize e.eval d' = y
  rintro (h | h)
  · rename_i u v
    have hbool : u.asBool? = v.asBool? := h.asBool?_eq
    cases hv : v.asBool? with
    | none =>
      rw [hv] at hbool
      simp only [bind, Except.bind, hbool, hv]
      exact .error rfl
    | some b =>
      rw [hv] at hbool
      simp only [bind, Except.bind, hbool, hv]
      exact .ok b
  · exact .error h

/-- A number that is stored in two ways is divided and compared with a nested float, and used as an object. -/
theorem test_of_alike_mixed :
    let e : Expr := .binary .or
      (.binary .equal (.binary .divide (.field (.last "n")) (.number 4.0)) (.field (.step "o" (.last "k"))))
      (.field (.step "n" (.last "k")))
    let d : Document := [("n", .integer 2), ("o", .object [("k", .float 0.5)])]
    let d' : Document := [("n", .float 2.0), ("o", .object [("k", .float 0.5)])]
    (∀ path ∈ e.paths, AlikeUpToWidth (path.resolve d) (path.resolve d')) ∧ TestsAlike (e.test d) (e.test d') := by
  intro e d d'
  have hpaths : ∀ path ∈ e.paths, AlikeUpToWidth (path.resolve d) (path.resolve d') := by
    have hnumber : SameUpToWidth (.integer 2) (.float 2.0) := .number (x := 2.0) rfl rfl
    simp only [e, paths, List.cons_append, List.nil_append, List.forall_mem_cons]
    exact ⟨.ok hnumber, .ok (.refl _), .error rfl, nofun⟩
  exact ⟨hpaths, e.test_of_alike d d' hpaths⟩

end Expr

end DocFilter
