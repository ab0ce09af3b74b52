import DocFilter.Json.Printer
import DocFilter.Proofs.Command.Agreement
import DocFilter.Proofs.Eval.Conjunction
import DocFilter.Proofs.Grammar.Composition
import DocFilter.Proofs.Value.Roundtrip

/-!
# Filtering twice

Filtering what a filter has kept by a second query is filtering by the conjunction of the two queries
(`filter_conjunction`).  The two runs go over different batches: what the first query drops, the conjunction drops
without looking at the second query; what the first query keeps is written and decoded again as the same document, and
is to the second query what it was to the conjunction (`finding_and`).
-/

namespace DocFilter
namespace Command

/-- What a filter puts out: the satisfying documents of the batch as JSON. -/
def kept (e : Expr) (items : List Json) : List Json :=
  (satisfyingDocuments e items).map Document.toJson

/-- How filtering a batch ends: with the error of the first failing item, or else with what is kept. -/
def filtered (e : Expr) (items : List Json) : Except CommandError Json :=
  match items.findSome? fun item => (Batch.finding e item).error? with
  | some cause => .error (.query (.eval cause))
  | none => .ok (.array (kept e items))

/-- Neither the conjunction of two expressions fails over the batch, nor the second expression over what the first one
keeps of it, and both keep the same documents. -/
structure NoFailure (e₁ e₂ : Expr) (items : List Json) : Prop where
  conjunction : ∀ item ∈ items, (Batch.finding (.binary .and e₁ e₂) item).error? = none
  second : ∀ item ∈ kept e₁ items, (Batch.finding e₂ item).error? = none
  same : satisfyingDocuments (.binary .and e₁ e₂) items = satisfyingDocuments e₂ (kept e₁ items)

/-- There is no failure in `before`, but behind it comes a document over which the conjunction fails.  The document
satisfies the first expression, and the second one fails over it with an error of the same kind. -/
structure FirstFailure (e₁ e₂ : Expr) (before : List Json) (item : Json) (doc : Document) (cause cause' : EvalError) :
    Prop where
  before : NoFailure e₁ e₂ before
  decoded : Document.ofJson item = .ok doc
  satisfies : e₁.test doc = .ok true
  conjunction : (Expr.binary .and e₁ e₂).test doc = .error cause
  second : e₂.test doc = .error cause'
  sameKind : cause.isPathError = cause'.isPathError

/-- How filtering a batch by a conjunction (`once`) and filtering what the first expression has kept of it, which is
`out`, by the second one (`twice`) belong together. -/
structure FilteredAlike (e₁ e₂ : Expr) (items : List Json) (out : Json) (once twice : Except CommandError Json) :
    Prop where
  /-- They succeed together and put out the same. -/
  success : ∀ result, once = .ok result ↔ twice = .ok result
  /-- They fail together, at the same document and with errors of the same kind. -/
  failure : ∀ error, once = .error error →
    ∃ before item after doc cause cause', FirstFailure e₁ e₂ before item doc cause cause' ∧
      items = before ++ item :: after ∧ out = .array (kept e₁ before ++ doc.toJson :: kept e₁ after) ∧
      error = .query (.eval cause) ∧ twice = .error (.query (.eval cause'))

/-! ### One item -/

variable {e e₁ e₂ : Expr} {items items' : List Json}

private theorem kept_append (e : Expr) (items items' : List Json) :
    kept e (items ++ items') = kept e items ++ kept e items' := by
  simp only [kept, satisfyingDocuments, List.filterMap_append, List.map_append]

theorem NoFailure.append (h : NoFailure e₁ e₂ items) (h' : NoFailure e₁ e₂ items') :
    NoFailure e₁ e₂ (items ++ items') := by
  refine ⟨?_, ?_, ?_⟩
  · intro item hitem
    exact (List.mem_append.1 hitem).elim (h.conjunction item) (h'.conjunction item)
  · intro item hitem
    rw [kept_append] at hitem
    exact (List.mem_append.1 hitem).elim (h.second item) (h'.second item)
  · have hsame := h.same
    have hsame' := h'.same
    rw [kept_append]
    unfold satisfyingDocuments at hsame hsame' ⊢
    rw [List.filterMap_append, List.filterMap_append, hsame, hsame']

private theorem noFailure_of_dropped {item : Json} (hfirst : (Batch.finding e₁ item).kept? = none)
    (herror : (Batch.finding (.binary .and e₁ e₂) item).error? = none)
    (hkept : (Batch.finding (.binary .and e₁ e₂) item).kept? = none) : NoFailure e₁ e₂ [item] := by
  have hnone : kept e₁ [item] = [] := by simp [kept, satisfyingDocuments, hfirst]
  refine ⟨by simpa using herror, by simp [hnone], ?_⟩
  simp [hnone, satisfyingDocuments, hkept]

/-- An item that the first expression keeps is no failure if it is the same to the conjunction as to the second
expression when it comes back. -/
private theorem noFailure_of_kept {item : Json} {doc : Document} (hfirst : (Batch.finding e₁ item).kept? = some doc)
    (herror : (Batch.finding (.binary .and e₁ e₂) item).error? = none)
    (hsame : Batch.finding e₂ doc.toJson = Batch.finding (.binary .and e₁ e₂) item) : NoFailure e₁ e₂ [item] := by
  have hone : kept e₁ [item] = [doc.toJson] := by simp [kept, satisfyingDocuments, hfirst]
  refine ⟨by simpa using herror, ?_, ?_⟩
  · simpa [hone, hsame] using herror
  · simp [hone, satisfyingDocuments, List.filterMap_cons, hsame]

/-- An item over which the first expression does not fail is no failure at all, or it is one in both runs. -/
private theorem item_cases {item : Json} (herror : (Batch.finding e₁ item).error? = none) (e₂ : Expr) :
    NoFailure e₁ e₂ [item] ∨ ∃ doc cause cause', FirstFailure e₁ e₂ [] item doc cause cause' := by
  cases hdoc : Document.ofJson item with
  | error cause =>
    have hfirst := Batch.finding_of_undecodable hdoc e₁
    have hand := Batch.finding_of_undecodable hdoc (.binary .and e₁ e₂)
    exact .inl (noFailure_of_dropped (by rw [hfirst]; rfl) (by rw [hand]; rfl) (by rw [hand]; rfl))
  | ok doc =>
    cases htest : e₁.test doc with
    | error error =>
      rw [Batch.finding_of_error hdoc htest] at herror
      cases herror
    | ok b =>
      cases b with
      | false =>
        have hfirst := Batch.finding_of_false hdoc htest
        have hand := Batch.finding_of_false hdoc (Expr.test_and_of_false htest e₂)
        exact .inl (noFailure_of_dropped (by rw [hfirst]; rfl) (by rw [hand]; rfl) (by rw [hand]; rfl))
      | true =>
        have hfirst : (Batch.finding e₁ item).kept? = some doc := by
          rw [Batch.finding_of_true hdoc htest]
          rfl
        have hback := Document.ofJson_toJson hdoc
        have halike := Expr.test_and_of_true htest e₂
        generalize hand : (Expr.binary .and e₁ e₂).test doc = conjunction at halike
        generalize hsecond : e₂.test doc = second at halike
        cases halike with
        | ok b =>
          left
          cases b with
          | true =>
            have hfound := Batch.finding_of_true hdoc hand
            exact noFailure_of_kept hfirst (by rw [hfound]; rfl) (by rw [hfound, Batch.finding_of_true hback hsecond])
          | false =>
            have hfound := Batch.finding_of_false hdoc hand
            exact noFailure_of_kept hfirst (by rw [hfound]; rfl) (by rw [hfound, Batch.finding_of_false hback hsecond])
        | error hkind =>
          have hnone : NoFailure e₁ e₂ [] := ⟨by simp, by simp [kept, satisfyingDocuments], rfl⟩
          exact .inr ⟨doc, _, _, hnone, hdoc, htest, hand, hsecond, hkind⟩

/-! ### One batch -/

/-- A batch over which the first expression does not fail has no failure at all, or a first one in both runs. -/
private theorem batch_cases (herror : ∀ item ∈ items, (Batch.finding e₁ item).error? = none) (e₂ : Expr) :
    NoFailure e₁ e₂ items ∨ ∃ before item after doc cause cause', items = before ++ item :: after ∧
      FirstFailure e₁ e₂ before item doc cause cause' := by
  induction items with
  | nil => exact .inl ⟨by simp, by simp [kept, satisfyingDocuments], rfl⟩
  | cons item rest ih =>
    rcases item_cases (herror item List.mem_cons_self) e₂ with hitem | ⟨doc, cause, cause', hfailure⟩
    · rcases ih fun i hi => herror i (List.mem_cons_of_mem item hi) with
        hrest | ⟨before, bad, after, doc, cause, cause', rfl, hfailure⟩
      · exact .inl (hitem.append hrest)
      · exact .inr ⟨item :: before, bad, after, doc, cause, cause', rfl,
          { hfailure with before := hitem.append hfailure.before }⟩
    · exact .inr ⟨[], item, rest, doc, cause, cause', rfl, hfailure⟩

theorem filter_result {query input : String} {maxDepth : Nat}
    (hquery : Expr.parseWith { Limits.standard with maxDepth } query = .ok e)
    (hinput : Json.parse input = .ok (.array items)) :
    (filter ⟨query, some input, maxDepth⟩).result = filtered e items := by
  rw [filter_eq hquery hinput]
  simp only [Batch.filter, Batch.filterFrom_eq, Outcome.map, Outcome.mapError, filtered]
  cases items.findSome? fun item => (Batch.finding e item).error? <;> rfl

private theorem filtered_of_noFailure (h : ∀ item ∈ items, (Batch.finding e item).error? = none) :
    filtered e items = .ok (.array (kept e items)) := by
  rw [filtered, List.findSome?_eq_none_iff.2 h]

private theorem filtered_of_firstFailure {before : List Json} {item : Json} {cause : EvalError}
    (hbefore : ∀ i ∈ before, (Batch.finding e i).error? = none) (hitem : Batch.finding e item = .failing cause)
    (after : List Json) :
    filtered e (before ++ item :: after) = .error (.query (.eval cause)) := by
  have hfirst : ((before ++ item :: after).findSome? fun item => (Batch.finding e item).error?) = some cause :=
    List.findSome?_eq_some_iff.2 ⟨before, item, after, rfl, by rw [hitem]; rfl, hbefore⟩
  rw [filtered, hfirst]

/-- If a filter succeeds, no item fails. -/
theorem filtered_eq_ok {out : Json} (h : filtered e items = .ok out) :
    (∀ item ∈ items, (Batch.finding e item).error? = none) ∧ out = .array (kept e items) := by
  unfold filtered at h
  split at h
  · cases h
  · rename_i hnone
    exact ⟨List.findSome?_eq_none_iff.1 hnone, (Except.ok.inj h).symm⟩

private theorem kept_middle (before after : List Json) {item : Json} {doc : Document}
    (hdoc : Document.ofJson item = .ok doc) (htest : e.test doc = .ok true) :
    kept e (before ++ item :: after) = kept e before ++ doc.toJson :: kept e after := by
  have hcons : kept e (item :: after) = doc.toJson :: kept e after := by
    simp [kept, satisfyingDocuments, Batch.finding_of_true hdoc htest, Batch.Finding.kept?]
  rw [kept_append, hcons]

/-! ### Both runs -/

private theorem parseWith_and {query₁ query₂ : String} {depth : Nat}
    (h₁ : Expr.parseWith { Limits.standard with maxDepth := depth } query₁ = .ok e₁)
    (h₂ : Expr.parseWith { Limits.standard with maxDepth := depth } query₂ = .ok e₂) :
    Expr.parseWith { Limits.standard with maxDepth := depth + 1 } ("(" ++ query₁ ++ ") && (" ++ query₂ ++ ")") =
      .ok (.binary .and e₁ e₂) := by
  have hboth := (Grammar.sentence_of_parseWith h₁).binary (Grammar.sentence_of_parseWith h₂) .and
  have htext : Expr.enclose query₁ ++ (" " ++ BinOp.and.symbol ++ " ") ++ Expr.enclose query₂ =
      "(" ++ query₁ ++ ") && (" ++ query₂ ++ ")" := by
    apply String.toList_inj.1
    simp [Expr.enclose, BinOp.symbol]
  rw [htext] at hboth
  exact Grammar.parseWith_of_sentence hboth

/-- If a filter succeeds, filtering what it puts out by a second query is filtering by the conjunction of the two. -/
theorem filter_conjunction (query₁ query₂ input : String) (depth : Nat) {items : List Json} {out : Json}
    (h₁ : Expr.parseWith { Limits.standard with maxDepth := depth } query₁ = .ok e₁)
    (h₂ : Expr.parseWith { Limits.standard with maxDepth := depth } query₂ = .ok e₂)
    (hinput : Json.parse input = .ok (.array items))
    (hfirst : (filter ⟨query₁, some input, depth⟩).result = .ok out)
    (hserialised : Json.parse out.compact = .ok out) :
    FilteredAlike e₁ e₂ items out
      (filter ⟨"(" ++ query₁ ++ ") && (" ++ query₂ ++ ")", some input, depth + 1⟩).result
      (filter ⟨query₂, some out.compact, depth⟩).result := by
  rw [filter_result h₁ hinput] at hfirst
  obtain ⟨herror, rfl⟩ := filtered_eq_ok hfirst
  rw [filter_result (parseWith_and h₁ h₂) hinput, filter_result h₂ hserialised]
  rcases batch_cases herror e₂ with hnone | ⟨before, item, after, doc, cause, cause', rfl, hfailure⟩
  · have hsame : kept (.binary .and e₁ e₂) items = kept e₂ (kept e₁ items) := by rw [kept, hnone.same, ← kept]
    rw [filtered_of_noFailure hnone.conjunction, filtered_of_noFailure hnone.second, hsame]
    exact { success := fun _ => Iff.rfl, failure := fun _ h => by cases h }
  · have hitem := Batch.finding_of_error hfailure.decoded hfailure.conjunction
    have hback := Batch.finding_of_error (Document.ofJson_toJson hfailure.decoded) hfailure.second
    have hkept := kept_middle before after hfailure.decoded hfailure.satisfies
    have honce := filtered_of_firstFailure hfailure.before.conjunction hitem after
    have htwice := filtered_of_firstFailure hfailure.before.second hback (kept e₁ after)
    rw [honce, hkept, htwice]
    constructor
    · intro result
      constructor
      · intro h
        cases h
      · intro h
        cases h
    · intro error h
      obtain rfl := Except.error.inj h
      exact ⟨before, item, after, doc, cause, cause', hfailure, rfl, rfl, rfl, rfl⟩

/-- The first query drops a document, and the second one fails over the other. -/
theorem filter_conjunction_flag :
    Json.parse "[\x7b\"a\":null\x7d,\x7b\"a\":\"x\"\x7d]" =
        .ok (.array [.object [("a", .null)], .object [("a", .string "x")]]) ∧
      FilteredAlike (.binary .notEqual (.field (.last "a")) .null) (.field (.last "a"))
        [.object [("a", .null)], .object [("a", .string "x")]] (.array [.object [("a", .string "x")]])
        (filter ⟨"(a != null) && (a)", some "[\x7b\"a\":null\x7d,\x7b\"a\":\"x\"\x7d]", 65⟩).result
        (filter ⟨"a", some (Json.array [.object [("a", .string "x")]]).compact, 64⟩).result := by
  have hfirst : Expr.parseWith { Limits.standard with maxDepth := 64 } "a != null" =
      .ok (.binary .notEqual (.field (.last "a")) .null) := by rfl
  have hsecond : Expr.parseWith { Limits.standard with maxDepth := 64 } "a" = .ok (.field (.last "a")) := by rfl
  have hinput : Json.parse "[\x7b\"a\":null\x7d,\x7b\"a\":\"x\"\x7d]" =
      .ok (.array [.object [("a", .null)], .object [("a", .string "x")]]) := by rfl
  have hout : (filter ⟨"a != null", some "[\x7b\"a\":null\x7d,\x7b\"a\":\"x\"\x7d]", 64⟩).result =
      .ok (.array [.object [("a", .string "x")]]) := by
    rw [filter_result hfirst hinput]
    rfl
  have hserialised : Json.parse (Json.array [.object [("a", .string "x")]]).compact =
      .ok (.array [.object [("a", .string "x")]]) := by rfl
  have hboth := filter_conjunction "a != null" "a" _ 64 hfirst hsecond hinput hout hserialised
  have htext : "(" ++ "a != null" ++ ") && (" ++ "a" ++ ")" = "(a != null) && (a)" := by rfl
  rw [htext] at hboth
  exact ⟨hinput, hboth⟩

end Command
end DocFilter
