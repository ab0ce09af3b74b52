import DocFilter.Eval

/-!
# Activations

How deeply evaluation is nested.  One activation of the evaluator runs a whole chain of operations: it walks down the
left spine and then applies the operations one after the other, so that within it only the operand at the end of the
spine and the right operands have activations of their own.

`Expr.activations` reads off the tree how many activations are open at the same time at most.  `Expr.metered` is
evaluation with a count of them: it gives the result of evaluation (`result_metered`), and its peak is no higher than
the number read off the tree (`peak_metered_le`).
-/

namespace DocFilter

namespace Expr

/-! ### Activations of a tree -/

/-- The operands on the left spine: the one at its end, which is no binary operation, and then the right ones. -/
def spine : Expr → List Expr
  | binary _ left right => left.spine ++ [right]
  | e => [e]

mutual

/-- How many activations are open at the same time at most while an expression is evaluated, its own included. -/
def activations : Expr → Nat
  | binary _ left right => max (spineActivations left) (activations right) + 1
  | signed _ operand => activations operand + 1
  | not operand => activations operand + 1
  | _ => 1

/-- How many they are at most for an operand on the left spine. -/
def spineActivations : Expr → Nat
  | binary _ left right => max (spineActivations left) (activations right)
  | signed _ operand => activations operand + 1
  | not operand => activations operand + 1
  | _ => 1

end

private theorem spineActivations_eq (e : Expr) : e.spineActivations = (e.spine.map activations).foldl max 0 := by
  induction e with
  | binary op left right ihl _ =>
    rw [spineActivations, spine, List.map_append, List.foldl_append, ← ihl]
    rfl
  | _ => exact (Nat.zero_max _).symm

/-- A chain of operations is one activation, and within it there is one operand of the spine after the other. -/
theorem activations_binary (op : BinOp) (left right : Expr) :
    (binary op left right).activations = 1 + ((binary op left right).spine.map activations).foldl max 0 := by
  rw [← spineActivations_eq, Nat.add_comm]
  rfl

theorem spineActivations_le (e : Expr) : e.spineActivations ≤ e.activations := by
  cases e with
  | binary op left right => exact Nat.le_succ _
  | _ => exact Nat.le_refl _

theorem activations_le (e : Expr) : e.activations ≤ e.spineActivations + 1 := by
  cases e with
  | binary op left right => exact Nat.le_refl _
  | _ => exact Nat.le_succ _

end Expr

/-! ### Evaluation with a count -/

/-- What an evaluation gives, and how many activations were open at the same time at most on the way. -/
structure Metered where
  result : Except EvalError Value
  peak : Nat

namespace Metered

/-- An activation in which there is no other one. -/
def leaf (result : Except EvalError Value) : Metered :=
  ⟨result, 1⟩

/-- An activation that works on the value of the one in it. -/
def around (inner : Metered) (f : Value → Except EvalError Value) : Metered :=
  ⟨inner.result >>= f, inner.peak + 1⟩

end Metered

/-- An operation that waits for its left operand, and the count of its right one. -/
structure MeteredPending where
  op : BinOp
  right : Unit → Metered

namespace MeteredPending

/-- The operation without the count. -/
def pending (p : MeteredPending) : Pending :=
  ⟨p.op, fun u => (p.right u).result⟩

/-- Applies the operation to its left operand, which has been evaluated before.  The right operand has no activation if
the left one fails or decides. -/
def apply (left : Metered) (p : MeteredPending) : Metered :=
  match left.result >>= p.op.decide? with
  | .ok none => ⟨left.result >>= fun v => (p.right ()).result >>= p.op.combine v, max left.peak (p.right ()).peak⟩
  | .ok (some result) => ⟨.ok result, left.peak⟩
  | .error e => ⟨.error e, left.peak⟩

/-- Applies the pending operations to the operand at the end of their spine, all in one activation. -/
def applyAll (pending : List MeteredPending) (operand : Metered) : Metered :=
  match pending with
  | [] => operand
  | p :: rest => (rest.foldl apply (apply operand p)).around pure

end MeteredPending

namespace Expr

/-- `Expr.evalThen` with a count. -/
def meteredThen (doc : Document) : Expr → List MeteredPending → Metered
  | binary op left right, pending =>
    meteredThen doc left (⟨op, fun _ => meteredThen doc right []⟩ :: pending)
  | signed sign operand, pending =>
    MeteredPending.applyAll pending
      ((meteredThen doc operand []).around fun v => pure (.float (sign.apply v.toNumber)))
  | not operand, pending =>
    MeteredPending.applyAll pending ((meteredThen doc operand []).around Value.negate)
  | bool b, pending => MeteredPending.applyAll pending (.leaf (.ok (.bool b)))
  | number x, pending => MeteredPending.applyAll pending (.leaf (.ok (.float x)))
  | string s, pending => MeteredPending.applyAll pending (.leaf (.ok (.string s)))
  | null, pending => MeteredPending.applyAll pending (.leaf (.ok .null))
  | field path, pending => MeteredPending.applyAll pending (.leaf (path.resolve doc))

/-- The value of an expression over a document and the count of its activations. -/
def metered (doc : Document) (e : Expr) : Metered :=
  e.meteredThen doc []

end Expr

/-! ### The result -/

namespace MeteredPending

theorem result_apply (left : Metered) (p : MeteredPending) :
    (apply left p).result = left.result >>= fun v => Pending.apply v p.pending := by
  obtain ⟨result, peak⟩ := left
  cases result with
  | error e => rfl
  | ok v =>
    have hdecide : (Except.ok v >>= p.op.decide?) = p.op.decide? v := rfl
    rw [apply, hdecide]
    show _ = p.op.decide? v >>= _
    rcases p.op.decide? v with e | _ | result <;> rfl

private theorem result_foldl (pending : List MeteredPending) (m : Metered) :
    (pending.foldl apply m).result = m.result >>= Pending.applyAll (pending.map MeteredPending.pending) := by
  induction pending generalizing m with
  | nil => exact (bind_pure _).symm
  | cons p rest ih =>
    rw [List.foldl_cons, ih, result_apply, bind_assoc]
    rfl

theorem result_applyAll (pending : List MeteredPending) (operand : Metered) :
    (applyAll pending operand).result =
      operand.result >>= Pending.applyAll (pending.map MeteredPending.pending) := by
  cases pending with
  | nil => exact (bind_pure _).symm
  | cons p rest =>
    rw [applyAll, Metered.around, bind_pure, result_foldl, result_apply, bind_assoc]
    rfl

end MeteredPending

namespace Expr

theorem result_meteredThen (doc : Document) (e : Expr) (pending : List MeteredPending) :
    (e.meteredThen doc pending).result = e.evalThen doc (pending.map MeteredPending.pending) := by
  induction e generalizing pending with
  | binary op left right ihl ihr =>
    rw [meteredThen, ihl, evalThen, List.map_cons, MeteredPending.pending]
    simp only [ihr, List.map_nil]
  | signed sign operand ih =>
    rw [meteredThen, MeteredPending.result_applyAll, Metered.around, ih, evalThen, bind_assoc]
    rfl
  | not operand ih =>
    rw [meteredThen, MeteredPending.result_applyAll, Metered.around, ih, evalThen, bind_assoc]
    rfl
  | bool | number | string | null | field => exact MeteredPending.result_applyAll ..

/-- The count changes nothing about the result. -/
theorem result_metered (doc : Document) (e : Expr) : (e.metered doc).result = e.eval doc :=
  result_meteredThen doc e []

end Expr

/-! ### The peak -/

namespace MeteredPending

theorem peak_apply_le (left : Metered) (p : MeteredPending) :
    (apply left p).peak ≤ max left.peak (p.right ()).peak := by
  unfold apply
  split
  · exact Nat.le_refl _
  · exact Nat.le_max_left ..
  · exact Nat.le_max_left ..

private theorem peak_foldl_le {pending : List MeteredPending} {n : Nat}
    (hpending : ∀ p ∈ pending, (p.right ()).peak ≤ n) {m : Metered} (hm : m.peak ≤ n) :
    (pending.foldl apply m).peak ≤ n := by
  induction pending generalizing m with
  | nil => exact hm
  | cons p rest ih =>
    rw [List.forall_mem_cons] at hpending
    exact ih hpending.2 (Nat.le_trans (peak_apply_le m p) (Nat.max_le.2 ⟨hm, hpending.1⟩))

/-- Operations that wait take one activation more than what is evaluated for them. -/
theorem peak_applyAll_le {pending : List MeteredPending} {n : Nat} (hne : pending ≠ [])
    (hpending : ∀ p ∈ pending, (p.right ()).peak ≤ n) {operand : Metered} (hoperand : operand.peak ≤ n) :
    (applyAll pending operand).peak ≤ n + 1 := by
  cases pending with
  | nil => exact absurd rfl hne
  | cons p rest => exact Nat.succ_le_succ (peak_foldl_le hpending hoperand)

end MeteredPending

/-- The peaks of what runs under waiting operations: `alone` if none waits, and as an operand on their spine at most
`operand` if some do, which have an activation of their own around it. -/
structure PeaksAt (run : List MeteredPending → Metered) (alone operand : Nat) : Prop where
  peak_nil_le : (run []).peak ≤ alone
  peak_le {pending : List MeteredPending} {n : Nat} (hne : pending ≠ [])
    (hpending : ∀ p ∈ pending, (p.right ()).peak ≤ n) : (run pending).peak ≤ max operand n + 1

private theorem peaksAt_applyAll {operand : Metered} {k : Nat} (h : operand.peak ≤ k) :
    PeaksAt (fun pending => MeteredPending.applyAll pending operand) k k where
  peak_nil_le := h
  peak_le hne hpending :=
    MeteredPending.peak_applyAll_le hne (fun p hp => Nat.le_trans (hpending p hp) (Nat.le_max_right ..))
      (Nat.le_trans h (Nat.le_max_left ..))

namespace Expr

theorem peaksAt_meteredThen (doc : Document) (e : Expr) :
    PeaksAt (e.meteredThen doc) e.activations e.spineActivations := by
  induction e with
  | binary op left right ihl ihr =>
    constructor
    · exact ihl.peak_le (List.cons_ne_nil _ _) (List.forall_mem_singleton.2 ihr.peak_nil_le)
    · intro pending n _ hpending
      -- the right operand joins those that wait, which bounds all of them
      have hall : ∀ p ∈ (⟨op, fun _ => right.meteredThen doc []⟩ : MeteredPending) :: pending,
          (p.right ()).peak ≤ max right.activations n :=
        List.forall_mem_cons.2 ⟨Nat.le_trans ihr.peak_nil_le (Nat.le_max_left ..),
          fun p hp => Nat.le_trans (hpending p hp) (Nat.le_max_right ..)⟩
      have hleft := ihl.peak_le (List.cons_ne_nil _ _) hall
      rw [← Nat.max_assoc] at hleft
      exact hleft
  | signed sign operand ih => exact peaksAt_applyAll (Nat.succ_le_succ ih.peak_nil_le)
  | not operand ih => exact peaksAt_applyAll (Nat.succ_le_succ ih.peak_nil_le)
  | bool | number | string | null | field => exact peaksAt_applyAll (Nat.le_refl 1)

/-- No run of an expression has more activations open than its tree tells. -/
theorem peak_metered_le (doc : Document) (e : Expr) : (e.metered doc).peak ≤ e.activations :=
  (peaksAt_meteredThen doc e).peak_nil_le

end Expr

end DocFilter
