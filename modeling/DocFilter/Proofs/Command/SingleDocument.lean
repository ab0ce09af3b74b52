import DocFilter.Command

/-!
# One document

A single object can be asked about in several ways: decoded, as a text, as the only item of a batch, and by a check of
either text.  They read the query, the text and the object in different orders and have errors of their own, but they
give one answer if the object is a document (`single_document_agree`): the one of `Query.test`.  If it is none, those
that take an object report why, and those that take a batch note it and find no match.
-/

namespace DocFilter

variable {item : Json} {doc : Document} {e : Expr}

/-! ### A batch of one item -/

namespace Batch

theorem anyMatch_singleton (e : Expr) (h : Document.ofJson item = .ok doc) :
    anyMatch e [item] = .plain (e.test doc) := by
  simp only [anyMatch, anyMatchFrom, h]
  rcases e.test doc with error | _ | _ <;> rfl

theorem anyMatch_singleton_of_error (e : Expr) {cause : DecodeError} (h : Document.ofJson item = .error cause) :
    anyMatch e [item] = ⟨[⟨0, cause⟩], .ok false⟩ := by
  simp only [anyMatch, anyMatchFrom, h]
  rfl

end Batch

/-! ### Queries -/

namespace Query

variable {query : String}

/-- A query over a document is answered, or is no expression, or cannot be evaluated. -/
theorem test_cases (doc : Document) (query : String) :
    (∃ b, test doc query = .ok b) ∨ (∃ error, test doc query = .error (.parse error)) ∨
      ∃ error, test doc query = .error (.eval error) := by
  cases hquery : Expr.parse query with
  | error error => exact .inr (.inl ⟨error, test_of_parse_error hquery doc⟩)
  | ok e =>
    rw [test_of_parse hquery]
    cases e.test doc with
    | error error => exact .inr (.inr ⟨error, rfl⟩)
    | ok b => exact .inl ⟨b, rfl⟩

theorem anyMatch_of_parse (h : Expr.parse query = .ok e) (items : List Json) :
    anyMatch items query = (Batch.anyMatch e items).mapError .eval := by
  rw [anyMatch, h]

theorem anyMatch_singleton (query : String) (h : Document.ofJson item = .ok doc) :
    anyMatch [item] query = .plain (test doc query) := by
  cases hquery : Expr.parse query with
  | error error =>
    rw [test_of_parse_error hquery, anyMatch, hquery]
  | ok e =>
    rw [test_of_parse hquery, anyMatch_of_parse hquery, Batch.anyMatch_singleton e h]
    rfl

theorem testJson_of_parse {text : String} {j : Json} (h : Json.parse text = .ok j) (query : String) :
    testJson text query = (Document.ofJson j).mapError .decode >>= fun doc => test doc query := by
  rw [testJson, Document.parse, h]
  rfl

theorem anyMatchJson_of_parse {text : String} {items : List Json} (h : Json.parse text = .ok (.array items))
    (query : String) : anyMatchJson text query = anyMatch items query := by
  rw [anyMatchJson, Document.parseBatch, h]
  rfl

end Query

namespace Command

theorem testInput_object (e : Expr) (members : List (String × Json)) :
    testInput e (.object members) =
      .plain ((Document.ofJson (.object members)).mapError (.query ∘ .decode) >>= fun doc =>
        (e.test doc).mapError (.query ∘ .eval)) :=
  rfl

theorem check_of_parse {query text : String} {j : Json} (hquery : Expr.parse query = .ok e)
    (htext : Json.parse text = .ok j) :
    check ⟨query, some text, Limits.standard.maxDepth⟩ false = (testInput e j).map .matched := by
  let task : Task := ⟨query, some text, Limits.standard.maxDepth⟩
  have hexpr : task.expr = .ok e := congrArg (Except.mapError _) hquery
  have hinput : (task.input.bind fun text => (Json.parse text).mapError .malformedInput) = .ok j :=
    congrArg (Except.mapError _) htext
  rw [check, hexpr]
  simp only [Bool.false_eq_true, if_false, task, hinput]

/-- If every expression has the same outcome over the input as over a document, a check of the input is a query of the
document. -/
theorem check_eq_test {text : String} {j : Json} (htext : Json.parse text = .ok j)
    (hinput : ∀ e, testInput e j = .plain ((e.test doc).mapError (.query ∘ .eval))) (query : String) :
    check ⟨query, some text, Limits.standard.maxDepth⟩ false =
      .plain (((Query.test doc query).mapError .query).map .matched) := by
  cases hquery : Expr.parse query with
  | error error =>
    have hexpr : Task.expr ⟨query, some text, Limits.standard.maxDepth⟩ = .error (.query (.parse error)) :=
      congrArg (Except.mapError _) hquery
    rw [Query.test_of_parse_error hquery, check, hexpr]
    rfl
  | ok e =>
    rw [Query.test_of_parse hquery, check_of_parse hquery htext, hinput]
    cases e.test doc <;> rfl

/-! ### The ways of asking -/

/-- All ways of asking about the document `doc` have the same answer.  It is the object with the given members, `object`
is a text of that object, and `batch` one of the array of it alone. -/
structure SameAnswer (query object batch : String) (members : List (String × Json)) (doc : Document)
    (answer : Except QueryError Bool) : Prop where
  test : Query.test doc query = answer
  testJson : Query.testJson object query = answer
  anyMatch : Query.anyMatch [.object members] query = .plain answer
  anyMatchJson : Query.anyMatchJson batch query = .plain answer
  checkObject : check ⟨query, some object, Limits.standard.maxDepth⟩ false =
    .plain ((answer.mapError .query).map .matched)
  checkBatch : check ⟨query, some batch, Limits.standard.maxDepth⟩ false =
    .plain ((answer.mapError .query).map .matched)

/-- What the ways of asking make of an object that is no document: an error if it is asked about by itself, and an item
that does not match if it is one of a batch. -/
structure NotADocument (query object batch : String) (members : List (String × Json)) (cause : DecodeError) : Prop where
  testJson : Query.testJson object query = .error (.decode cause)
  checkObject : check ⟨query, some object, Limits.standard.maxDepth⟩ false = .plain (.error (.query (.decode cause)))
  anyMatch : Query.anyMatch [.object members] query = ⟨[⟨0, cause⟩], .ok false⟩
  anyMatchJson : Query.anyMatchJson batch query = ⟨[⟨0, cause⟩], .ok false⟩
  checkBatch : check ⟨query, some batch, Limits.standard.maxDepth⟩ false = ⟨[⟨0, cause⟩], .ok (.matched false)⟩

variable {query object batch : String} {members : List (String × Json)}

theorem sameAnswer_test (hobject : Json.parse object = .ok (.object members))
    (hbatch : Json.parse batch = .ok (.array [.object members])) (hdoc : Document.ofJson (.object members) = .ok doc) :
    SameAnswer query object batch members doc (Query.test doc query) where
  test := rfl
  testJson := by
    rw [Query.testJson_of_parse hobject, hdoc]
    rfl
  anyMatch := Query.anyMatch_singleton query hdoc
  anyMatchJson := by rw [Query.anyMatchJson_of_parse hbatch, Query.anyMatch_singleton query hdoc]
  checkObject := by
    refine check_eq_test hobject (fun e => ?_) query
    rw [testInput_object, hdoc]
    rfl
  checkBatch := by
    refine check_eq_test hbatch (fun e => ?_) query
    rw [testInput, Batch.anyMatch_singleton e hdoc]
    rfl

theorem notADocument {cause : DecodeError} (hobject : Json.parse object = .ok (.object members))
    (hbatch : Json.parse batch = .ok (.array [.object members]))
    (hcause : Document.ofJson (.object members) = .error cause) (hquery : Expr.parse query = .ok e) :
    NotADocument query object batch members cause := by
  have hany : Query.anyMatch [.object members] query = ⟨[⟨0, cause⟩], .ok false⟩ := by
    rw [Query.anyMatch_of_parse hquery, Batch.anyMatch_singleton_of_error e hcause]
    rfl
  refine ⟨?_, ?_, hany, ?_, ?_⟩
  · rw [Query.testJson_of_parse hobject, hcause]
    rfl
  · rw [check_of_parse hquery hobject, testInput_object, hcause]
    rfl
  · rw [Query.anyMatchJson_of_parse hbatch, hany]
  · rw [check_of_parse hquery hbatch, testInput, Batch.anyMatch_singleton_of_error e hcause]
    rfl

/-- All ways of asking about one object agree.  If it is a document, all of them give the same boolean, or the same
error of the query, or the same error of the evaluation.  If it is none and the query is an expression, it is an error
by itself and no match in a batch. -/
theorem single_document_agree (query object batch : String) (members : List (String × Json))
    (hobject : Json.parse object = .ok (.object members))
    (hbatch : Json.parse batch = .ok (.array [.object members])) :
    (∀ doc, Document.ofJson (.object members) = .ok doc →
      (∃ b, SameAnswer query object batch members doc (.ok b)) ∨
        (∃ error, SameAnswer query object batch members doc (.error (.parse error))) ∨
        ∃ error, SameAnswer query object batch members doc (.error (.eval error))) ∧
      ∀ cause e, Document.ofJson (.object members) = .error cause → Expr.parse query = .ok e →
        NotADocument query object batch members cause := by
  constructor
  · intro doc hdoc
    have hsame : SameAnswer query object batch members doc (Query.test doc query) :=
      sameAnswer_test hobject hbatch hdoc
    obtain ⟨b, htest⟩ | ⟨error, htest⟩ | ⟨error, htest⟩ := Query.test_cases doc query
    · exact .inl ⟨b, htest ▸ hsame⟩
    · exact .inr (.inl ⟨error, htest ▸ hsame⟩)
    · exact .inr (.inr ⟨error, htest ▸ hsame⟩)
  · intro cause e hcause hquery
    exact notADocument hobject hbatch hcause hquery

/-- An object that satisfies a path, and one with an array at the end of the path. -/
theorem single_document_agree_path :
    SameAnswer "a.b" "\x7b\"a\": \x7b\"b\": true\x7d\x7d" "[\x7b\"a\": \x7b\"b\": true\x7d\x7d]"
        [("a", .object [("b", .bool true)])] [("a", .object [("b", .bool true)])] (.ok true) ∧
      NotADocument "a.b" "\x7b\"a\": \x7b\"b\": []\x7d\x7d" "[\x7b\"a\": \x7b\"b\": []\x7d\x7d]"
        [("a", .object [("b", .array [])])] (.unsupportedArray "b") := by
  have hquery : Expr.parse "a.b" = .ok (.field (.step "a" (.last "b"))) := rfl
  constructor
  · have hobject : Json.parse "\x7b\"a\": \x7b\"b\": true\x7d\x7d" =
        .ok (.object [("a", .object [("b", .bool true)])]) := rfl
    have hbatch : Json.parse "[\x7b\"a\": \x7b\"b\": true\x7d\x7d]" =
        .ok (.array [.object [("a", .object [("b", .bool true)])]]) := rfl
    have htest : Query.test [("a", .object [("b", .bool true)])] "a.b" = .ok true := rfl
    obtain ⟨b, h⟩ | ⟨error, h⟩ | ⟨error, h⟩ :=
      (single_document_agree "a.b" _ _ _ hobject hbatch).1 [("a", .object [("b", .bool true)])] rfl
    · obtain rfl : true = b := Except.ok.inj (htest.symm.trans h.test)
      exact h
    · cases htest.symm.trans h.test
    · cases htest.symm.trans h.test
  · have hobject : Json.parse "\x7b\"a\": \x7b\"b\": []\x7d\x7d" =
        .ok (.object [("a", .object [("b", .array [])])]) := rfl
    have hbatch : Json.parse "[\x7b\"a\": \x7b\"b\": []\x7d\x7d]" =
        .ok (.array [.object [("a", .object [("b", .array [])])]]) := rfl
    exact (single_document_agree "a.b" _ _ _ hobject hbatch).2 (.unsupportedArray "b") _ rfl hquery

end Command
end DocFilter
