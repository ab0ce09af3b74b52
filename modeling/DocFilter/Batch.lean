import DocFilter.Eval
import DocFilter.Value.Json

/-!
# Batches

An expression over a list of JSON values: does any of them satisfy it, and which ones do.  A value that is no
document is skipped and noted; an evaluation error ends the run.
-/

namespace DocFilter

/-- A value that was passed over: its place in the batch, from zero, and why it is no document. -/
structure Skip where
  index : Nat
  cause : DecodeError
  deriving DecidableEq, Repr

def Skip.message (s : Skip) : String :=
  s!"skipping element {s.index}: {s.cause.message}"

/-- The result of a run over a batch and what was skipped on the way, up to where the run ended. -/
structure Outcome (ε α : Type) where
  skipped : List Skip
  result : Except ε α

namespace Outcome

variable {ε α : Type}

/-- A run that skips nothing. -/
def plain (result : Except ε α) : Outcome ε α :=
  ⟨[], result⟩

def skip (s : Skip) (o : Outcome ε α) : Outcome ε α :=
  { o with skipped := s :: o.skipped }

def map {β : Type} (f : α → β) (o : Outcome ε α) : Outcome ε β :=
  ⟨o.skipped, o.result.map f⟩

def mapError {δ : Type} (f : ε → δ) (o : Outcome ε α) : Outcome δ α :=
  ⟨o.skipped, o.result.mapError f⟩

end Outcome

namespace Batch

/-- Whether a document of the batch satisfies the expression; the first item has the given index.  The run ends with
the first document that does. -/
def anyMatchFrom (e : Expr) (index : Nat) : List Json → Outcome EvalError Bool
  | [] => .plain (.ok false)
  | item :: rest =>
    match Document.ofJson item with
    | .error cause => (anyMatchFrom e (index + 1) rest).skip ⟨index, cause⟩
    | .ok doc =>
      match e.test doc with
      | .error error => .plain (.error error)
      | .ok true => .plain (.ok true)
      | .ok false => anyMatchFrom e (index + 1) rest

def anyMatch (e : Expr) (items : List Json) : Outcome EvalError Bool :=
  anyMatchFrom e 0 items

/-- The documents of the batch that satisfy the expression, in order; the first item has the given index. -/
def filterFrom (e : Expr) (index : Nat) : List Json → Outcome EvalError (List Document)
  | [] => .plain (.ok [])
  | item :: rest =>
    match Document.ofJson item with
    | .error cause => (filterFrom e (index + 1) rest).skip ⟨index, cause⟩
    | .ok doc =>
      match e.test doc with
      | .error error => .plain (.error error)
      | .ok true => (filterFrom e (index + 1) rest).map (doc :: ·)
      | .ok false => filterFrom e (index + 1) rest

def filter (e : Expr) (items : List Json) : Outcome EvalError (List Document) :=
  filterFrom e 0 items

end Batch

end DocFilter
