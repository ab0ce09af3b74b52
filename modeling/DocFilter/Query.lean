import DocFilter.Batch
import DocFilter.Parser

/-!
# Queries

An expression given as text, over data given as values or as text.  When several things are wrong, the data is
reported before the expression if it is text, and the expression before the evaluation.
-/

namespace DocFilter

/-- What can be wrong with a query. -/
inductive QueryError where
  | parse (error : ParseError)
  | eval (error : EvalError)
  | decode (error : DecodeError)
  deriving DecidableEq, Repr

def QueryError.message : QueryError → String
  | parse e => s!"Parse error: {e.message}"
  | eval e => s!"Evaluation error: {e.message}"
  | decode e => s!"Decode error: {e.message}"

namespace Query

/-- Whether a document satisfies the expression that the text is. -/
def test (doc : Document) (text : String) : Except QueryError Bool := do
  let e ← (Expr.parse text).mapError .parse
  (e.test doc).mapError .eval

theorem test_of_parse {text : String} {e : Expr} (h : Expr.parse text = .ok e) (doc : Document) :
    test doc text = (e.test doc).mapError .eval := by
  rw [test, h]
  rfl

theorem test_of_parse_error {text : String} {error : ParseError} (h : Expr.parse text = .error error)
    (doc : Document) : test doc text = .error (.parse error) := by
  rw [test, h]
  rfl

/-- Whether the document that `json` denotes satisfies the expression. -/
def testJson (json text : String) : Except QueryError Bool := do
  let doc ← (Document.parse json).mapError .decode
  test doc text

/-- Whether any of the documents satisfies the expression. -/
def anyMatch (items : List Json) (text : String) : Outcome QueryError Bool :=
  match Expr.parse text with
  | .error e => .plain (.error (.parse e))
  | .ok e => (Batch.anyMatch e items).mapError .eval

/-- Whether any document of the array that `json` denotes satisfies the expression. -/
def anyMatchJson (json text : String) : Outcome QueryError Bool :=
  match Document.parseBatch json with
  | .error e => .plain (.error (.decode e))
  | .ok items => anyMatch items text

end Query

end DocFilter
