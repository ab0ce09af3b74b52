import DocFilter.Proofs.Eval.Safety
import Mathlib.Logic.ExistsUnique

/-!
# Grouping of logical chains

Operands that are joined by `&&` alone, or by `||` alone, can be grouped in any way: all trees over them have the same
value or the same error, and it is the same operand that raises it (`eval_of_grouping`).  The reason is that logic sees
a truth value in each operand, on the left of an operator as on its right, and is associative on truth values that may
be errors (`BinOp.logic_assoc`).  A tree has the truth value of its leaves in their order (`Grouping.truth_eq`).
-/

namespace DocFilter

namespace BinOp

/-- The truth value of a left operand that leaves the result to the right one. -/
def neutral : BinOp → Bool
  | .and => true
  | _ => false

/-- A logical operation on the truth values of its operands: the left one decides if it is not neutral. -/
def logic (op : BinOp) (left right : Except EvalError Bool) : Except EvalError Bool := do
  let b ← left
  if b = op.neutral then right else return b

variable (op : BinOp) (x y z : Except EvalError Bool)

theorem logic_neutral : op.logic (.ok op.neutral) x = x :=
  if_pos rfl

theorem logic_of_ne {b : Bool} (hb : b ≠ op.neutral) : op.logic (.ok b) x = .ok b :=
  if_neg hb

private theorem logic_neutral_right : op.logic x (.ok op.neutral) = x := by
  cases x with
  | error error => rfl
  | ok b =>
    by_cases hb : b = op.neutral
    · rw [hb, logic_neutral]
    · rw [logic_of_ne op _ hb]

private theorem logic_assoc : op.logic (op.logic x y) z = op.logic x (op.logic y z) := by
  cases x with
  | error error => rfl
  | ok b =>
    by_cases hb : b = op.neutral
    · rw [hb, logic_neutral, logic_neutral]
    · rw [logic_of_ne op _ hb, logic_of_ne op _ hb, logic_of_ne op _ hb]

end BinOp

namespace Expr

/-- The trees whose leaves are the given expressions in their order, and whose nodes are the operator alone. -/
inductive Grouping (op : BinOp) : List Expr → Expr → Prop where
  | single (e : Expr) : Grouping op [e] e
  | join {es es' : List Expr} {left right : Expr} (hl : Grouping op es left) (hr : Grouping op es' right) :
      Grouping op (es ++ es') (.binary op left right)

/-- The operand at the place `i` raises the error: all operands before it leave the result open, and it fails with the
error itself, or else it is no boolean, which is an error for all but a single operand. -/
structure RaisedAt (doc : Document) (op : BinOp) (es : List Expr) (i : Nat) (error : EvalError) : Prop where
  leftOpen : ∀ e ∈ es.take i, e.eval doc = .ok (.bool op.neutral)
  raised : ∃ e, es[i]? = some e ∧ (e.eval doc = .error error ∨
    1 < es.length ∧ ∃ v, e.eval doc = .ok v ∧ v.asBool? = none ∧ error = .logicOperand op v.kind)

/-- What a logical operator takes an operand for. -/
def truth (doc : Document) (op : BinOp) (e : Expr) : Except EvalError Bool :=
  e.eval doc >>= op.requireBool

/-- The truth value of operands that are joined by a logical operator, in their order. -/
def chainTruth (doc : Document) (op : BinOp) (es : List Expr) : Except EvalError Bool :=
  es.foldr (fun e rest => op.logic (e.truth doc op) rest) (.ok op.neutral)

variable {doc : Document} {op : BinOp} {e t t' left right : Expr} {es es' : List Expr} {error : EvalError}

/-! ### Truth values -/

theorem truth_eq_ok_iff {b : Bool} : e.truth doc op = .ok b ↔ e.eval doc = .ok (.bool b) := by
  rw [truth]
  cases e.eval doc with
  | error error => constructor <;> intro h <;> cases h
  | ok v =>
    cases v with
    | bool a =>
      constructor <;> intro h
      · obtain rfl := Except.ok.inj h
        rfl
      · obtain rfl := Value.bool.inj (Except.ok.inj h)
        rfl
    | null | integer | float | string | object => constructor <;> intro h <;> cases h

theorem truth_eq_error_iff : e.truth doc op = .error error ↔
    e.eval doc = .error error ∨ ∃ v, e.eval doc = .ok v ∧ v.asBool? = none ∧ error = .logicOperand op v.kind := by
  rw [truth]
  cases heval : e.eval doc with
  | error error' =>
    constructor
    · intro h
      exact .inl (congrArg _ (Except.error.inj h))
    · rintro (h | ⟨v, hv, -⟩)
      · obtain rfl := Except.error.inj h
        rfl
      · cases hv
  | ok v =>
    have htruth : (Except.ok v >>= op.requireBool) = op.requireBool v := rfl
    rw [htruth, BinOp.requireBool]
    cases hbool : v.asBool? with
    | some b =>
      constructor
      · intro h
        cases h
      · rintro (h | ⟨u, hu, hnone, -⟩)
        · cases h
        · obtain rfl := Except.ok.inj hu
          rw [hbool] at hnone
          cases hnone
    | none =>
      constructor
      · intro h
        exact .inr ⟨v, rfl, hbool, (Except.error.inj h).symm⟩
      · rintro (h | ⟨u, hu, -, rfl⟩)
        · cases h
        · obtain rfl := Except.ok.inj hu
          rfl

/-- A logical operation is on the truth values of its operands, the right one's included. -/
private theorem eval_logical (hop : op.isLogical) :
    (binary op left right).eval doc = (op.logic (left.truth doc op) (right.truth doc op)).map .bool := by
  rw [eval_binary, truth, truth]
  cases left.eval doc with
  | error error => rfl
  | ok u =>
    cases op with
    | and | or =>
      cases u with
      | bool b => cases b <;> cases right.eval doc <;> rfl
      | null | integer | float | string | object => rfl
    | _ => cases hop

private theorem truth_logical (hop : op.isLogical) :
    (binary op left right).truth doc op = op.logic (left.truth doc op) (right.truth doc op) := by
  rw [truth, eval_logical hop]
  cases op.logic (left.truth doc op) (right.truth doc op) <;> rfl

private theorem chainTruth_append (es es' : List Expr) :
    chainTruth doc op (es ++ es') = op.logic (chainTruth doc op es) (chainTruth doc op es') := by
  induction es with
  | nil => exact (op.logic_neutral _).symm
  | cons e es ih =>
    show op.logic (e.truth doc op) (chainTruth doc op (es ++ es')) = _
    rw [ih, ← BinOp.logic_assoc]
    rfl

/-! ### Trees -/

theorem Grouping.length_pos (h : Grouping op es t) : 0 < es.length := by
  induction h with
  | single e => exact Nat.one_pos
  | join hl hr ihl ihr =>
    rw [List.length_append]
    omega

/-- Grouping to the left is one way. -/
theorem grouping_foldl (op : BinOp) (e : Expr) (es : List Expr) :
    Grouping op (e :: es) (es.foldl (.binary op) e) := by
  have hfrom (front : List Expr) (left : Expr) (h : Grouping op front left) :
      Grouping op (front ++ es) (es.foldl (.binary op) left) := by
    induction es generalizing front left with
    | nil => rwa [List.append_nil]
    | cons next es ih =>
      rw [List.append_cons]
      exact ih _ _ (.join h (.single next))
  exact hfrom [e] e (.single e)

private theorem Grouping.truth_eq (hop : op.isLogical) (h : Grouping op es t) :
    t.truth doc op = chainTruth doc op es := by
  induction h with
  | single e => exact (op.logic_neutral_right _).symm
  | join hl hr ihl ihr => rw [truth_logical hop, ihl, ihr, chainTruth_append]

/-- A tree over one leaf is the leaf, and a tree over more leaves evaluates to their truth value. -/
private theorem Grouping.eval_cases (hop : op.isLogical) (h : Grouping op es t) (doc : Document) :
    es = [t] ∨ 1 < es.length ∧ t.eval doc = (chainTruth doc op es).map .bool := by
  cases h with
  | single => exact .inl rfl
  | join hl hr =>
    have hleft := hl.length_pos
    have hright := hr.length_pos
    right
    constructor
    · rw [List.length_append]
      omega
    · rw [eval_logical hop, hl.truth_eq hop, hr.truth_eq hop, chainTruth_append]

private theorem Grouping.eval_eq (hop : op.isLogical) (h : Grouping op es t) (h' : Grouping op es t') :
    t.eval doc = t'.eval doc := by
  rcases h.eval_cases hop doc with rfl | ⟨hlength, heval⟩
  · rcases h'.eval_cases hop doc with hsame | ⟨hlength, -⟩
    · rw [List.singleton_inj.1 hsame]
    · cases Nat.lt_irrefl 1 hlength
  · rcases h'.eval_cases hop doc with rfl | ⟨-, heval'⟩
    · cases Nat.lt_irrefl 1 hlength
    · rw [heval, heval']

/-! ### Errors -/

private theorem logic_eq_error_iff {x y : Except EvalError Bool} :
    op.logic x y = .error error ↔ x = .error error ∨ x = .ok op.neutral ∧ y = .error error := by
  cases x with
  | error error' =>
    constructor
    · exact .inl
    · rintro (h | ⟨h, -⟩)
      · exact h
      · cases h
  | ok b =>
    by_cases hb : b = op.neutral
    · rw [hb, op.logic_neutral]
      constructor
      · exact fun h => .inr ⟨rfl, h⟩
      · rintro (h | ⟨-, h⟩)
        · cases h
        · exact h
    · rw [op.logic_of_ne _ hb]
      constructor
      · intro h
        cases h
      · rintro (h | ⟨h, -⟩)
        · cases h
        · exact absurd (Except.ok.inj h) hb

/-- A chain fails with the error of an operand before which all operands are neutral. -/
private theorem chainTruth_eq_error_iff : chainTruth doc op es = .error error ↔
    ∃ i, (∀ e ∈ es.take i, e.truth doc op = .ok op.neutral) ∧
      ∃ e, es[i]? = some e ∧ e.truth doc op = .error error := by
  induction es with
  | nil =>
    constructor
    · intro h
      cases h
    · rintro ⟨i, -, e, he, -⟩
      cases he
  | cons first es ih =>
    have hchain : chainTruth doc op (first :: es) = op.logic (first.truth doc op) (chainTruth doc op es) := rfl
    rw [hchain, logic_eq_error_iff, ih]
    constructor
    · rintro (h | ⟨hneutral, i, hopen, hraised⟩)
      · exact ⟨0, fun e he => (by cases he), first, rfl, h⟩
      · refine ⟨i + 1, fun e he => ?_, hraised⟩
        rcases List.mem_cons.1 he with rfl | he
        · exact hneutral
        · exact hopen e he
    · rintro ⟨_ | i, hopen, hraised⟩
      · obtain ⟨e, he, h⟩ := hraised
        obtain rfl := Option.some.inj he
        exact .inl h
      · exact .inr ⟨hopen first (.head _), i, fun e he => hopen e (.tail _ he), hraised⟩

private theorem RaisedAt.truth {i : Nat} (h : RaisedAt doc op es i error) :
    (∀ e ∈ es.take i, e.truth doc op = .ok op.neutral) ∧ ∃ e, es[i]? = some e ∧ e.truth doc op = .error error := by
  obtain ⟨e, he, hraised⟩ := h.raised
  refine ⟨fun e he => truth_eq_ok_iff.2 (h.leftOpen e he), e, he, truth_eq_error_iff.2 ?_⟩
  exact hraised.imp_right fun hkind => hkind.2

private theorem RaisedAt.unique {i j : Nat} {error' : EvalError} (h : RaisedAt doc op es i error)
    (h' : RaisedAt doc op es j error') : i = j := by
  have hnot {i j : Nat} {error error' : EvalError} (h : RaisedAt doc op es i error)
      (h' : RaisedAt doc op es j error') : ¬i < j := by
    intro hlt
    obtain ⟨-, e, he, herror⟩ := h.truth
    have hmem : e ∈ es.take j := List.mem_of_getElem? (List.getElem?_take_of_lt hlt ▸ he)
    rw [h'.truth.1 e hmem] at herror
    cases herror
  exact Nat.le_antisymm (Nat.le_of_not_lt (hnot h' h)) (Nat.le_of_not_lt (hnot h h'))

/-- A tree fails with the error that one of its leaves raises. -/
private theorem Grouping.eval_eq_error_iff (hop : op.isLogical) (h : Grouping op es t) :
    t.eval doc = .error error ↔ ∃ i, RaisedAt doc op es i error := by
  rcases h.eval_cases hop doc with rfl | ⟨hlength, heval⟩
  · constructor
    · intro herror
      exact ⟨0, fun e he => (by cases he), t, rfl, .inl herror⟩
    · rintro ⟨i, -, e, he, hraised⟩
      obtain rfl : e = t := List.mem_singleton.1 (List.mem_of_getElem? he)
      rcases hraised with herror | ⟨hlength, -⟩
      · exact herror
      · cases Nat.lt_irrefl 1 hlength
  · have herror : t.eval doc = .error error ↔ chainTruth doc op es = .error error := by
      rw [heval]
      cases chainTruth doc op es with
      | ok b => constructor <;> intro h <;> cases h
      | error error' => constructor <;> intro h <;> cases h <;> rfl
    rw [herror, chainTruth_eq_error_iff]
    constructor
    · rintro ⟨i, hopen, e, he, hraised⟩
      refine ⟨i, fun e he => truth_eq_ok_iff.1 (hopen e he), e, he, ?_⟩
      exact (truth_eq_error_iff.1 hraised).imp_right fun hkind => ⟨hlength, hkind⟩
    · rintro ⟨i, hraised⟩
      exact ⟨i, hraised.truth⟩

/-- All trees over the same operands with the same logical operator, the one that is grouped to the left among them,
have the same value or the same error, and an error is raised by the same operand in all of them. -/
theorem eval_of_grouping (doc : Document) (hop : op.isLogical) (h : Grouping op es t) (h' : Grouping op es t') :
    t.eval doc = t'.eval doc ∧
      (∀ first rest, es = first :: rest → t.eval doc = (rest.foldl (.binary op) first).eval doc) ∧
      ∀ error, t.eval doc = .error error ↔ ∃! i, RaisedAt doc op es i error := by
  refine ⟨h.eval_eq hop h', ?_, fun error => ?_⟩
  · rintro first rest rfl
    exact h.eval_eq hop (grouping_foldl op first rest)
  · rw [h.eval_eq_error_iff hop]
    constructor
    · rintro ⟨i, hraised⟩
      exact ⟨i, hraised, fun j hj => hj.unique hraised⟩
    · rintro ⟨i, hraised, -⟩
      exact ⟨i, hraised⟩

end Expr

end DocFilter
