import DocFilter.Proofs.Eval.Meaning

/-!
# Safe expressions

Evaluation fails for two reasons: a path leads through something that is no document, and `&&`, `||` or `!` meets
something that is no boolean.  An expression is safe if its tree excludes both: all its paths have one key, and the
operands of logic have booleans at their roots.  A safe expression has a value over every document, and it is a boolean
if there is one at the root (`eval_of_isSafe`), because every other operator takes any values that there are
(`BinOp.combine_eq_ok`).
-/

namespace DocFilter

namespace BinOp

/-- Whether the operator demands booleans. -/
def isLogical : BinOp → Bool
  | and | or => true
  | _ => false

/-- Whether the operator gives numbers; all others give booleans. -/
def isArithmetic : BinOp → Bool
  | add | subtract | multiply | divide => true
  | _ => false

/-- Operators other than the logical ones take any two values. -/
theorem combine_eq_ok {op : BinOp} (hop : op.isLogical = false) (u v : Value) :
    ∃ w, op.combine u v = .ok w ∧ (op.isArithmetic = false → ∃ b, w = .bool b) := by
  cases op with
  | and | or => cases hop
  | equal | notEqual | less | greater | lessEqual | greaterEqual => exact ⟨_, rfl, fun _ => ⟨_, rfl⟩⟩
  | add | subtract | multiply | divide => exact ⟨_, rfl, nofun⟩

end BinOp

namespace Pending

private theorem apply_of_not_isLogical {op : BinOp} (hop : op.isLogical = false) (u v : Value) :
    apply u ⟨op, fun _ => .ok v⟩ = op.combine u v := by
  cases op with
  | and | or => cases hop
  | _ => rfl

/-- An operation has a result if its operands have values, and booleans where it demands them. -/
theorem apply_eq_ok {op : BinOp} {u v : Value}
    (hbool : op.isLogical → (∃ a, u = .bool a) ∧ ∃ b, v = .bool b) :
    ∃ w, apply u ⟨op, fun _ => .ok v⟩ = .ok w ∧ (op.isArithmetic = false → ∃ b, w = .bool b) := by
  by_cases hop : op.isLogical
  · obtain ⟨⟨a, rfl⟩, b, rfl⟩ := hbool hop
    -- the left operand decides or leaves the result to the right one
    cases op with
    | and | or => cases a <;> exact ⟨_, rfl, fun _ => ⟨_, rfl⟩⟩
    | _ => cases hop
  · rw [Bool.not_eq_true] at hop
    rw [apply_of_not_isLogical hop]
    exact BinOp.combine_eq_ok hop u v

end Pending

namespace Expr

/-- Whether the root of the tree gives a boolean: a truth value, a comparison, `!`, `&&` or `||`. -/
def isBooleanRooted : Expr → Bool
  | bool _ | not _ => true
  | binary op _ _ => !op.isArithmetic
  | _ => false

/-- Whether all paths have one key, and all operands of `&&`, `||` and `!` have booleans at their roots. -/
def isSafe : Expr → Bool
  | binary op left right =>
    left.isSafe && right.isSafe && (!op.isLogical || left.isBooleanRooted && right.isBooleanRooted)
  | signed _ operand => operand.isSafe
  | not operand => operand.isSafe && operand.isBooleanRooted
  | field path => path.segments.length = 1
  | _ => true

private theorem isSafe_binary {op : BinOp} {left right : Expr} (h : (binary op left right).isSafe) :
    left.isSafe ∧ right.isSafe ∧ (op.isLogical → left.isBooleanRooted ∧ right.isBooleanRooted) := by
  rw [isSafe, Bool.and_eq_true, Bool.and_eq_true] at h
  obtain ⟨⟨hleft, hright⟩, hroots⟩ := h
  refine ⟨hleft, hright, fun hop => ?_⟩
  rw [hop] at hroots
  exact Bool.and_eq_true_iff.1 hroots

private theorem resolve_of_length {path : FieldPath} (h : path.segments.length = 1) (doc : Document) :
    path.resolve doc = .ok ((doc.lookup path.first).getD .null) := by
  cases path with
  | last key => rfl
  | step key rest => cases h

/-- A safe expression has a value, and a boolean if there is one at the root. -/
theorem eval_eq_ok_of_isSafe {e : Expr} (h : e.isSafe) (doc : Document) :
    ∃ v, e.eval doc = .ok v ∧ (e.isBooleanRooted → ∃ b, v = .bool b) := by
  induction e with
  | binary op left right ihl ihr =>
    obtain ⟨hleft, hright, hroots⟩ := isSafe_binary h
    obtain ⟨u, hu, hubool⟩ := ihl hleft
    obtain ⟨v, hv, hvbool⟩ := ihr hright
    have hbools (hop : op.isLogical) : (∃ b, u = .bool b) ∧ ∃ b, v = .bool b :=
      ⟨hubool (hroots hop).1, hvbool (hroots hop).2⟩
    obtain ⟨w, hw, hwbool⟩ := Pending.apply_eq_ok hbools
    refine ⟨w, ?_, fun hroot => hwbool (by simpa [isBooleanRooted] using hroot)⟩
    rw [eval_binary, hu, hv]
    exact hw
  | signed sign operand ih =>
    obtain ⟨v, hv, -⟩ := ih h
    refine ⟨.float (sign.apply v.toNumber), ?_, fun hroot => absurd hroot Bool.false_ne_true⟩
    rw [eval_signed, hv]
    rfl
  | not operand ih =>
    obtain ⟨hoperand, hroot⟩ := Bool.and_eq_true_iff.1 h
    obtain ⟨v, hv, hbool⟩ := ih hoperand
    obtain ⟨b, rfl⟩ := hbool hroot
    refine ⟨.bool !b, ?_, fun _ => ⟨_, rfl⟩⟩
    rw [eval_not, hv]
    rfl
  | bool b => exact ⟨_, rfl, fun _ => ⟨b, rfl⟩⟩
  | number | string | null => exact ⟨_, rfl, fun hroot => absurd hroot Bool.false_ne_true⟩
  | field path =>
    refine ⟨(doc.lookup path.first).getD .null, ?_, fun hroot => absurd hroot Bool.false_ne_true⟩
    rw [eval_field, resolve_of_length (of_decide_eq_true h)]

/-- Over every document a safe expression has a value, and if there is a boolean at its root the document satisfies it
or does not. -/
theorem eval_of_isSafe (e : Expr) (h : e.isSafe) (doc : Document) :
    (∃ v, e.eval doc = .ok v) ∧ (e.isBooleanRooted → ∃ b, e.test doc = .ok b) := by
  obtain ⟨v, hv, hbool⟩ := eval_eq_ok_of_isSafe h doc
  refine ⟨⟨v, hv⟩, fun hroot => ?_⟩
  obtain ⟨b, rfl⟩ := hbool hroot
  refine ⟨b, ?_⟩
  rw [test, hv]
  rfl

/-- A string divided by an absent field, an object where a number is compared, and a negated equality. -/
theorem eval_of_isSafe_mixed :
    let e : Expr := .binary .or
      (.binary .lessEqual (.binary .divide (.string "x") (.field (.last "absent"))) (.signed .minus (.field (.last "o"))))
      (.not (.binary .equal .null (.binary .add (.bool true) (.field (.last "o")))))
    let doc : Document := [("o", .object [("k", .null)])]
    e.isSafe ∧ e.isBooleanRooted ∧ (∃ v, e.eval doc = .ok v) ∧ ∃ b, e.test doc = .ok b := by
  intro e doc
  have hsafe : e.isSafe := by decide
  have hroot : e.isBooleanRooted := rfl
  obtain ⟨hvalue, htest⟩ := eval_of_isSafe e hsafe doc
  exact ⟨hsafe, hroot, hvalue, htest hroot⟩

end Expr

end DocFilter
