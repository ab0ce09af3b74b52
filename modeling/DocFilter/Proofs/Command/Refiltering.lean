import DocFilter.Proofs.Command.Conjunction
import DocFilter.Proofs.Value.Rounding

/-!
# Filtering again

A filter that is run once more on what it has put out puts out the same and skips nothing, and what it has put out are
items of its batch, unchanged but for large whole numbers (`filter_again`).  The reason is that a document which is
written and decoded again is the same document (`Document.ofJson_toJson`), so it satisfies the query again.
-/

namespace DocFilter

/-- A filter over written documents that come back and satisfy the expression keeps them all and skips nothing. -/
theorem Batch.filterFrom_satisfying {e : Expr} {docs : List Document}
    (h : ∀ doc ∈ docs, Document.ofJson doc.toJson = .ok doc ∧ e.test doc = .ok true) (index : Nat) :
    Batch.filterFrom e index (docs.map Document.toJson) = .plain (.ok docs) := by
  induction docs generalizing index with
  | nil => rfl
  | cons doc rest ih =>
    obtain ⟨hback, htest⟩ := h doc List.mem_cons_self
    have hrest := ih (fun d hd => h d (List.mem_cons_of_mem _ hd)) (index + 1)
    rw [List.map_cons, Batch.filterFrom, hback]
    dsimp only
    rw [htest, hrest]
    rfl

namespace Command

variable {e : Expr} {items : List Json}

/-- The kept documents come back when they are written, and satisfy the expression. -/
private theorem satisfyingDocuments_back {doc : Document} (h : doc ∈ satisfyingDocuments e items) :
    Document.ofJson doc.toJson = .ok doc ∧ e.test doc = .ok true := by
  obtain ⟨item, -, hkept⟩ := List.mem_filterMap.1 h
  obtain ⟨hdoc, htest⟩ := Batch.finding_kept hkept
  exact ⟨Document.ofJson_toJson hdoc, htest⟩

/-- What a filter keeps are the items that satisfy the expression, rounded. -/
theorem kept_eq_rounded (e : Expr) (items : List Json) :
    kept e items = (items.filter fun item => (Batch.finding e item).kept?.isSome).map Json.rounded := by
  induction items with
  | nil => rfl
  | cons item rest ih =>
    unfold kept satisfyingDocuments at ih ⊢
    rw [List.filterMap_cons, List.filter_cons]
    cases hkept : (Batch.finding e item).kept? with
    | none => simpa using ih
    | some doc =>
      have hrounded : doc.toJson = item.rounded := Document.toJson_of_ofJson (Batch.finding_kept hkept).1
      simp only [Option.isSome_some, if_true, List.map_cons, hrounded, ih]

private theorem exists_of_filter {task : Task} {out : Json} (h : (filter task).result = .ok out) :
    ∃ e input items, task.expr = .ok e ∧ task.input? = some input ∧ Json.parse input = .ok (.array items) := by
  unfold filter at h
  split at h
  · cases h
  · rename_i e hexpr
    split at h
    · cases h
    · rename_i items hitems
      obtain ⟨query, input?, maxDepth⟩ := task
      cases input? with
      | none => cases hitems
      | some input =>
        refine ⟨e, input, items, hexpr, rfl, ?_⟩
        have hbatch : (Document.parseBatch input).mapError (CommandError.query ∘ .decode) = .ok items := hitems
        unfold Document.parseBatch at hbatch
        cases hparse : Json.parse input with
        | error error =>
          rw [hparse] at hbatch
          cases hbatch
        | ok j =>
          rw [hparse] at hbatch
          cases j with
          | array items' =>
            obtain rfl := Except.ok.inj hbatch
            rfl
          | null | bool | number | string | object => cases hbatch

/-- A filter that has succeeded succeeds again on what it has put out, skips nothing and puts out the same.  What it
has put out are the items that satisfy the query, in their order and with their numbers rounded. -/
theorem filter_again (task : Task) {out : Json} (h : (filter task).result = .ok out)
    (hserialised : Json.parse out.compact = .ok out) :
    filter { task with input? := some out.compact } = .plain (.ok out) ∧
      ∃ e input items, task.expr = .ok e ∧ task.input? = some input ∧ Json.parse input = .ok (.array items) ∧
        out = .array ((items.filter fun item => (Batch.finding e item).kept?.isSome).map Json.rounded) := by
  obtain ⟨e, input, items, hexpr, hinput, hitems⟩ := exists_of_filter h
  obtain ⟨query, input?, maxDepth⟩ := task
  obtain rfl : input? = some input := hinput
  have hquery : Expr.parseWith { Limits.standard with maxDepth } query = .ok e := by
    cases hparse : Expr.parseWith { Limits.standard with maxDepth } query with
    | error error =>
      rw [Task.expr, hparse] at hexpr
      cases hexpr
    | ok e' =>
      rw [Task.expr, hparse] at hexpr
      exact congrArg _ (Except.ok.inj hexpr)
  rw [filter_result hquery hitems] at h
  obtain ⟨-, rfl⟩ := filtered_eq_ok h
  constructor
  · have hagain : Batch.filter e (kept e items) = .plain (.ok (satisfyingDocuments e items)) :=
      Batch.filterFrom_satisfying (fun doc hdoc => satisfyingDocuments_back hdoc) 0
    rw [filter_eq hquery hserialised, hagain]
    rfl
  · exact ⟨e, input, items, hexpr, rfl, hitems, by rw [kept_eq_rounded]⟩

/-- A batch with a number beyond 64 signed bits, an item that is no document and a document that is dropped. -/
theorem filter_again_large :
    ∃ out : Json,
      (filter ⟨"a != null", some "[\x7b\"a\":18446744073709551615\x7d,3,\x7b\"a\":null\x7d]", 64⟩).result = .ok out ∧
        out.compact = "[\x7b\"a\":1.8446744073709552e+19\x7d]" ∧ Json.parse out.compact = .ok out ∧
        filter ⟨"a != null", some out.compact, 64⟩ = .plain (.ok out) := by
  have hfinite : (Float.ofInt 18446744073709551615).isFinite := isFinite_ofInt (by decide) (by decide)
  have hquery : Expr.parseWith { Limits.standard with maxDepth := 64 } "a != null" =
      .ok (.binary .notEqual (.field (.last "a")) .null) := by rfl
  have hinput : Json.parse "[\x7b\"a\":18446744073709551615\x7d,3,\x7b\"a\":null\x7d]" =
      .ok (.array [.object [("a", .number (.integer 18446744073709551615 (by decide)))],
        .number (.integer 3 (by decide)), .object [("a", .null)]]) := by rfl
  have hfirst : (filter ⟨"a != null", some "[\x7b\"a\":18446744073709551615\x7d,3,\x7b\"a\":null\x7d]", 64⟩).result =
      .ok (.array [.object [("a", .number (.float _ hfinite))]]) := by
    rw [filter_result hquery hinput, filtered, kept_eq_rounded]
    rfl
  -- floats are evaluated here only: this one for its text, and the one that the text denotes
  have hwrite : Json.Number.layout.writeFloat (Float.ofInt 18446744073709551615) = "1.8446744073709552e+19" := by
    decide +kernel
  have hfloat : Json.Number.ofParts ['1'] "8446744073709552".toList 19 = Float.ofInt 18446744073709551615 := by
    decide +kernel
  have hcompact : (Json.array [.object [("a", .number (.float _ hfinite))]]).compact =
      "[\x7b\"a\":1.8446744073709552e+19\x7d]" := by
    simp only [Json.compact, Json.compactItems, Json.compactMembers, Json.Number.write, hwrite]
    rfl
  have hrest : Json.Number.readRest "1.8446744073709552e+19\x7d]".toList =
      .ok (.float _ hfinite, "\x7d]".toList) := by
    change (Json.Number.ofFloat? false (Json.Number.ofParts ['1'] "8446744073709552".toList 19)).bind
      (fun n => .ok (n, "\x7d]".toList)) = _
    rw [hfloat, Json.Number.ofFloat?_of_isFinite hfinite]
    rfl
  have hnumber : Json.Token.read "1.8446744073709552e+19\x7d]".toList =
      .ok (.scalar (.number (.float _ hfinite)), 22) := by
    change (Json.Number.read "1.8446744073709552e+19\x7d]".toList).map
      (fun r => (Json.Token.scalar (.number r.1), r.2)) = _
    rw [Json.Number.read_of_readRest hrest]
    rfl
  have htokens : Json.Token.readAll "[\x7b\"a\":1.8446744073709552e+19\x7d]".toList =
      .ok [.beginArray, .beginObject, .string "a", .nameSeparator, .scalar (.number (.float _ hfinite)), .endObject,
        .endArray] := by
    have hcolon : Json.Token.readAllFrom 0 ":1.8446744073709552e+19\x7d]".toList = _ :=
      Json.Token.readAllFrom_of_read rfl rfl (Json.Token.readAllFrom_of_read rfl hnumber rfl)
    have hkey : Json.Token.readAllFrom 0 "\"a\":1.8446744073709552e+19\x7d]".toList = _ :=
      Json.Token.readAllFrom_of_read rfl rfl hcolon
    exact Json.Token.readAllFrom_of_read rfl rfl (Json.Token.readAllFrom_of_read rfl rfl hkey)
  have hserialised : Json.parse (Json.array [.object [("a", .number (.float _ hfinite))]]).compact =
      .ok (.array [.object [("a", .number (.float _ hfinite))]]) := by
    rw [hcompact, Json.parse, Json.parseWithin, htokens]
    rfl
  exact ⟨_, hfirst, hcompact, hserialised, (filter_again _ hfirst hserialised).1⟩

end Command
end DocFilter
