import DocFilter.Manual
import DocFilter.Query

/-!
# Commands

What the tool can be asked to do, apart from how it is asked: check an expression against a document or a batch,
filter a batch, show a page of the manual.  The expression is always read first, then the input.
-/

namespace DocFilter

/-- Why a command fails. -/
inductive CommandError where
  | query (error : QueryError)
  | malformedInput (error : Json.SyntaxError)
  | noInput
  | unknownCategory (name : String)
  deriving DecidableEq, Repr

def CommandError.message : CommandError → String
  | query e => e.message
  | malformedInput e => s!"Invalid JSON: {e.message}"
  | noInput => "No input provided. Use --input or pipe JSON to stdin."
  | unknownCategory name => s!"Unknown category: '{name}'\nRun 'mapq docs' to see available categories."

/-- An expression and the input that it is asked about. -/
structure Task where
  query : String
  input? : Option String
  maxDepth : Nat
  deriving DecidableEq, Repr

namespace Task

/-- The expression of a task. -/
def expr (task : Task) : Except CommandError Expr :=
  (Expr.parseWith { Limits.standard with maxDepth := task.maxDepth } task.query).mapError (.query ∘ .parse)

/-- The input of a task. -/
def input (task : Task) : Except CommandError String :=
  match task.input? with
  | some text => .ok text
  | none => .error .noInput

end Task

/-- What a check finds out. -/
inductive Verdict where
  | syntaxValid
  | matched (value : Bool)
  deriving DecidableEq, Repr

namespace Command

/-- Whether the input satisfies the expression: the document that it is, or any document of the batch that it is. -/
def testInput (e : Expr) (input : Json) : Outcome CommandError Bool :=
  match input with
  | .array items => (Batch.anyMatch e items).mapError (.query ∘ .eval)
  | j =>
    .plain do
      let doc ← (Document.ofJson j).mapError (.query ∘ .decode)
      (e.test doc).mapError (.query ∘ .eval)

/-- Checks an expression against the input, or only whether it is one. -/
def check (task : Task) (syntaxOnly : Bool) : Outcome CommandError Verdict :=
  match task.expr with
  | .error error => .plain (.error error)
  | .ok e =>
    if syntaxOnly then .plain (.ok .syntaxValid)
    else
      match task.input.bind fun text => (Json.parse text).mapError .malformedInput with
      | .error error => .plain (.error error)
      | .ok j => (testInput e j).map .matched

/-- The array of the documents that satisfy the expression, out of the batch that the input is. -/
def filter (task : Task) : Outcome CommandError Json :=
  match task.expr with
  | .error error => .plain (.error error)
  | .ok e =>
    match task.input.bind fun text => (Document.parseBatch text).mapError (.query ∘ .decode) with
    | .error error => .plain (.error error)
    | .ok items =>
      (Batch.filter e items).map (fun kept => .array (kept.map Document.toJson)) |>.mapError (.query ∘ .eval)

/-- The page of the manual with the given name. -/
def manualPage (name : String) : Except CommandError String :=
  match Manual.Category.ofName? name with
  | some category => .ok category.text
  | none => .error (.unknownCategory name)

end Command

end DocFilter
