import DocFilter.Command
import DocFilter.Proofs.Batch.Finding

/-!
# Agreement of check and filter

Checking and filtering are separate runs over a batch, one to the first match and the other to the first error.  On
the same query and the same batch they agree (`filter_check_agree`): a check says whether a filter that succeeds keeps
anything; where a filter fails, a check finds a match before the failure or fails in the same way; and a check notes
no other items than a filter does.
-/

namespace DocFilter
namespace Command

/-- The documents of a batch that satisfy the expression, in order. -/
def satisfyingDocuments (e : Expr) (items : List Json) : List Document :=
  items.filterMap fun item => (Batch.finding e item).kept?

/-- How the outcomes of filtering and of checking the batch `items` by the expression `e` belong together. -/
structure Agreement (e : Expr) (items : List Json) (filtered : Outcome CommandError Json)
    (checked : Outcome CommandError Verdict) : Prop where
  /-- A filter that succeeds keeps the satisfying documents, and the check says whether there are any. -/
  success : ∀ out, filtered.result = .ok out →
    out = .array ((satisfyingDocuments e items).map Document.toJson) ∧
      checked.result = .ok (.matched !(satisfyingDocuments e items).isEmpty)
  /-- A filter fails with the error of the first failing item.  The check finds a match before that item, or fails
  with the same error. -/
  failure : ∀ error, filtered.result = .error error →
    ∃ before item after doc cause, items = before ++ item :: after ∧
      (∀ i ∈ before, (Batch.finding e i).error? = none) ∧
      Document.ofJson item = .ok doc ∧ e.test doc = .error cause ∧ error = .query (.eval cause) ∧
      checked.result =
        if (satisfyingDocuments e before).isEmpty then .error (.query (.eval cause)) else .ok (.matched true)
  /-- Both note what is no document among the items that they pass, under its place in the batch. -/
  filterNotes : filtered.skipped = Batch.skips 0 (Batch.passedByFilter e items)
  checkNotes : checked.skipped = Batch.skips 0 (Batch.passedBySearch e items)
  notesPrefix : checked.skipped <+: filtered.skipped
  noteIndex : ∀ s ∈ filtered.skipped,
    ∃ item, items[s.index]? = some item ∧ Document.ofJson item = .error s.cause

/-! ### The two runs -/

variable {e : Expr} {items : List Json}

private theorem answer_of_no_error (h : ∀ item ∈ items, (Batch.finding e item).error? = none) :
    (items.findSome? fun item => (Batch.finding e item).answer?) =
      if (satisfyingDocuments e items).isEmpty then none else some (.ok true) := by
  induction items with
  | nil => rfl
  | cons item rest ih =>
    have hrest := ih fun i hi => h i (List.mem_cons_of_mem _ hi)
    have hitem := h item List.mem_cons_self
    rw [List.findSome?_cons]
    unfold satisfyingDocuments at hrest ⊢
    rw [List.filterMap_cons]
    revert hitem
    cases Batch.finding e item with
    | undecodable cause => exact fun _ => hrest
    | failing error => exact fun hitem => by cases hitem
    | satisfying doc => exact fun _ => rfl
    | unsatisfying doc => exact fun _ => hrest

/-- If an item is the first one that fails, a search finds a match before it or fails with it. -/
private theorem answer_of_first_error {before after : List Json} {item : Json} {cause : EvalError}
    (hbefore : ∀ i ∈ before, (Batch.finding e i).error? = none) (hitem : (Batch.finding e item).error? = some cause) :
    ((before ++ item :: after).findSome? fun item => (Batch.finding e item).answer?) =
      some (if (satisfyingDocuments e before).isEmpty then .error cause else .ok true) := by
  have hanswer := answer_of_no_error hbefore
  have herror := Batch.Finding.answer?_of_error? hitem
  rw [List.findSome?_append, hanswer, List.findSome?_cons, herror]
  cases (satisfyingDocuments e before).isEmpty <;> rfl

/-- An item that fails is a document over which the expression cannot be evaluated. -/
theorem finding_eq_failing {item : Json} {cause : EvalError}
    (h : (Batch.finding e item).error? = some cause) :
    ∃ doc, Document.ofJson item = .ok doc ∧ e.test doc = .error cause := by
  unfold Batch.finding at h
  split at h
  · cases h
  · rename_i doc hdoc
    split at h
    · rename_i htest
      obtain rfl := Option.some.inj h
      exact ⟨doc, hdoc, htest⟩
    · cases h
    · cases h

private theorem runs_agree (e : Expr) (items : List Json) :
    Agreement e items
      ((Batch.filter e items).map (fun kept => .array (kept.map Document.toJson)) |>.mapError (.query ∘ .eval))
      (((Batch.anyMatch e items).mapError (.query ∘ .eval)).map .matched) := by
  have hnotes : Batch.skips 0 (Batch.passedBySearch e items) <+: Batch.skips 0 (Batch.passedByFilter e items) :=
    Batch.skips_prefix (Batch.passedBySearch_prefix e items) 0
  have hindex : ∀ s ∈ Batch.skips 0 (Batch.passedByFilter e items),
      ∃ item, items[s.index]? = some item ∧ Document.ofJson item = .error s.cause := by
    intro s hs
    have hall := Batch.skips_prefix (List.takeWhile_prefix _ : Batch.passedByFilter e items <+: items) 0
    exact Batch.mem_skips_iff.1 (hall.subset hs)
  unfold Batch.filter Batch.anyMatch
  rw [Batch.filterFrom_eq, Batch.anyMatchFrom_eq]
  refine ⟨?_, ?_, rfl, rfl, hnotes, hindex⟩
  · intro out hout
    cases hfirst : items.findSome? fun item => (Batch.finding e item).error? with
    | some error =>
      rw [hfirst] at hout
      cases hout
    | none =>
      rw [hfirst] at hout
      obtain rfl := Except.ok.inj hout
      refine ⟨rfl, ?_⟩
      have hanswer := answer_of_no_error (List.findSome?_eq_none_iff.1 hfirst)
      dsimp only [Outcome.map, Outcome.mapError]
      rw [hanswer]
      cases (satisfyingDocuments e items).isEmpty <;> rfl
  · intro error herror
    cases hfirst : items.findSome? fun item => (Batch.finding e item).error? with
    | none =>
      rw [hfirst] at herror
      cases herror
    | some cause =>
      rw [hfirst] at herror
      obtain rfl := Except.error.inj herror
      obtain ⟨before, item, after, hitems, hfail, hbefore⟩ := List.findSome?_eq_some_iff.1 hfirst
      obtain ⟨doc, hdoc, htest⟩ := finding_eq_failing hfail
      refine ⟨before, item, after, doc, cause, hitems, hbefore, hdoc, htest, rfl, ?_⟩
      dsimp only [Outcome.map, Outcome.mapError]
      rw [hitems, answer_of_first_error hbefore hfail]
      cases (satisfyingDocuments e before).isEmpty <;> rfl

/-- What a filter does with a query that is an expression and an input that is a batch. -/
theorem filter_eq {query input : String} {maxDepth : Nat}
    (hquery : Expr.parseWith { Limits.standard with maxDepth } query = .ok e)
    (hinput : Json.parse input = .ok (.array items)) :
    filter ⟨query, some input, maxDepth⟩ =
      ((Batch.filter e items).map (fun kept => .array (kept.map Document.toJson)) |>.mapError (.query ∘ .eval)) := by
  have hbatch : Document.parseBatch input = .ok items := by
    rw [Document.parseBatch, hinput]
    rfl
  rw [filter, Task.expr, hquery]
  simp only [Except.mapError, Task.input, Except.bind, hbatch]

/-- On the same query and the same batch, a check and a filter fail with the same error if the query is no
expression, and else their outcomes agree. -/
theorem filter_check_agree (query input : String) (maxDepth : Nat) (items : List Json)
    (hinput : Json.parse input = .ok (.array items)) :
    (∀ error, Expr.parseWith { Limits.standard with maxDepth } query = .error error →
      filter ⟨query, some input, maxDepth⟩ = .plain (.error (.query (.parse error))) ∧
        check ⟨query, some input, maxDepth⟩ false = .plain (.error (.query (.parse error)))) ∧
    (∀ e, Expr.parseWith { Limits.standard with maxDepth } query = .ok e →
      Agreement e items (filter ⟨query, some input, maxDepth⟩) (check ⟨query, some input, maxDepth⟩ false)) := by
  constructor
  · intro error h
    constructor
    · rw [filter, Task.expr, h]
      rfl
    · rw [check, Task.expr, h]
      rfl
  · intro e h
    have hcheck : check ⟨query, some input, maxDepth⟩ false =
        ((Batch.anyMatch e items).mapError (.query ∘ .eval)).map .matched := by
      rw [check, Task.expr, h]
      simp only [Except.mapError, Task.input, Except.bind, hinput, Bool.false_eq_true, if_false, testInput]
    rw [filter_eq h hinput, hcheck]
    exact runs_agree e items

/-- A batch in which the filter fails at its last item and the check finds a match before. -/
theorem filter_check_agree_done :
    Json.parse "[null, \x7b\"done\": true\x7d, \x7b\"done\": \"no\"\x7d]" =
        .ok (.array [.null, .object [("done", .bool true)], .object [("done", .string "no")]]) ∧
      Expr.parseWith { Limits.standard with maxDepth := 64 } "done" = .ok (.field (.last "done")) ∧
      Agreement (.field (.last "done")) [.null, .object [("done", .bool true)], .object [("done", .string "no")]]
        (filter ⟨"done", some "[null, \x7b\"done\": true\x7d, \x7b\"done\": \"no\"\x7d]", 64⟩)
        (check ⟨"done", some "[null, \x7b\"done\": true\x7d, \x7b\"done\": \"no\"\x7d]", 64⟩ false) := by
  have hinput : Json.parse "[null, \x7b\"done\": true\x7d, \x7b\"done\": \"no\"\x7d]" =
      .ok (.array [.null, .object [("done", .bool true)], .object [("done", .string "no")]]) := by rfl
  have hquery : Expr.parseWith { Limits.standard with maxDepth := 64 } "done" = .ok (.field (.last "done")) := by rfl
  exact ⟨hinput, hquery, (filter_check_agree "done" _ 64 _ hinput).2 _ hquery⟩

end Command
end DocFilter
