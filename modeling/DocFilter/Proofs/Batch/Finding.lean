import DocFilter.Batch
import Mathlib.Data.List.TakeWhile

/-!
# Findings

To an expression every item of a batch is one of four things: no document, a document that it cannot be evaluated
over, one that satisfies it, or one that does not.  Both runs over a batch are told by these findings: filtering goes
on to the first failing item and keeps what is satisfying before it (`filterFrom_eq`), and a search for a match goes
on to the first item that is failing or satisfying (`anyMatchFrom_eq`).  Each notes the items that it has passed and
that are no documents.
-/

namespace DocFilter
namespace Batch

/-- What an item of a batch is to an expression. -/
inductive Finding where
  | undecodable (cause : DecodeError)
  | failing (error : EvalError)
  | satisfying (doc : Document)
  | unsatisfying (doc : Document)

/-- What the item is to the expression. -/
def finding (e : Expr) (item : Json) : Finding :=
  match Document.ofJson item with
  | .error cause => .undecodable cause
  | .ok doc =>
    match e.test doc with
    | .error error => .failing error
    | .ok true => .satisfying doc
    | .ok false => .unsatisfying doc

namespace Finding

/-- The document that a filter keeps. -/
def kept? : Finding → Option Document
  | satisfying doc => some doc
  | _ => none

/-- The error that ends a filter. -/
def error? : Finding → Option EvalError
  | failing error => some error
  | _ => none

/-- The answer with which a search for a match ends. -/
def answer? : Finding → Option (Except EvalError Bool)
  | failing error => some (.error error)
  | satisfying _ => some (.ok true)
  | _ => none

/-- A search that comes to a failing item fails with its error. -/
theorem answer?_of_error? {f : Finding} {error : EvalError} (h : f.error? = some error) :
    f.answer? = some (.error error) := by
  cases f with
  | failing error' =>
    obtain rfl := Option.some.inj h
    rfl
  | undecodable _ | satisfying _ | unsatisfying _ => cases h

end Finding

/-- The items that a filter passes before it ends. -/
def passedByFilter (e : Expr) (items : List Json) : List Json :=
  items.takeWhile fun item => (finding e item).error?.isNone

/-- The items that a search for a match passes before it ends. -/
def passedBySearch (e : Expr) (items : List Json) : List Json :=
  items.takeWhile fun item => (finding e item).answer?.isNone

/-- The notes on those items that are no documents; the first item has the given index. -/
def skips (index : Nat) (items : List Json) : List Skip :=
  (items.zipIdx index).filterMap fun (item, i) =>
    match Document.ofJson item with
    | .error cause => some ⟨i, cause⟩
    | .ok _ => none

/-! ### Notes -/

theorem skips_cons_error {item : Json} {cause : DecodeError} (h : Document.ofJson item = .error cause) (index : Nat)
    (rest : List Json) : skips index (item :: rest) = ⟨index, cause⟩ :: skips (index + 1) rest := by
  simp [skips, h]

theorem skips_cons_ok {item : Json} {doc : Document} (h : Document.ofJson item = .ok doc) (index : Nat)
    (rest : List Json) : skips index (item :: rest) = skips (index + 1) rest := by
  simp [skips, h]

/-- A note is about an item that is no document, under the place that the item has. -/
theorem mem_skips_iff {items : List Json} {s : Skip} :
    s ∈ skips 0 items ↔ ∃ item, items[s.index]? = some item ∧ Document.ofJson item = .error s.cause := by
  unfold skips
  rw [List.mem_filterMap]
  constructor
  · rintro ⟨⟨item, i⟩, hmem, h⟩
    refine ⟨item, ?_⟩
    dsimp only at h
    split at h
    · rename_i cause hcause
      obtain rfl := Option.some.inj h
      exact ⟨List.mk_mem_zipIdx_iff_getElem?.1 hmem, hcause⟩
    · cases h
  · rintro ⟨item, hmem, hcause⟩
    refine ⟨(item, s.index), List.mk_mem_zipIdx_iff_getElem?.2 hmem, ?_⟩
    simp only [hcause]

theorem skips_append (index : Nat) (items others : List Json) :
    skips index (items ++ others) = skips index items ++ skips (index + items.length) others := by
  unfold skips
  rw [List.zipIdx_append, List.filterMap_append, Nat.add_comm]

/-- Who passes more items has the same notes on the first ones. -/
theorem skips_prefix {items others : List Json} (h : items <+: others) (index : Nat) :
    skips index items <+: skips index others := by
  obtain ⟨rest, rfl⟩ := h
  rw [skips_append]
  exact List.prefix_append _ _

/-! ### Runs -/

theorem finding_of_undecodable {item : Json} {cause : DecodeError} (h : Document.ofJson item = .error cause)
    (e : Expr) : finding e item = .undecodable cause := by
  rw [finding, h]

theorem finding_of_error {e : Expr} {item : Json} {doc : Document} {error : EvalError}
    (h : Document.ofJson item = .ok doc) (ht : e.test doc = .error error) : finding e item = .failing error := by
  simp only [finding, h, ht]

theorem finding_of_true {e : Expr} {item : Json} {doc : Document} (h : Document.ofJson item = .ok doc)
    (ht : e.test doc = .ok true) : finding e item = .satisfying doc := by
  simp only [finding, h, ht]

theorem finding_of_false {e : Expr} {item : Json} {doc : Document} (h : Document.ofJson item = .ok doc)
    (ht : e.test doc = .ok false) : finding e item = .unsatisfying doc := by
  simp only [finding, h, ht]

/-- What is kept of an item is the document that it is, and satisfies the expression. -/
theorem finding_kept {e : Expr} {item : Json} {doc : Document} (h : (finding e item).kept? = some doc) :
    Document.ofJson item = .ok doc ∧ e.test doc = .ok true := by
  unfold finding at h
  split at h
  · cases h
  · rename_i hdoc
    split at h
    · cases h
    · rename_i htest
      obtain rfl := Option.some.inj h
      exact ⟨hdoc, htest⟩
    · cases h

/-- Filtering ends with the first error among the findings, or else keeps what they keep. -/
theorem filterFrom_eq (e : Expr) (index : Nat) (items : List Json) :
    filterFrom e index items =
      ⟨skips index (passedByFilter e items),
        match items.findSome? fun item => (finding e item).error? with
        | some error => .error error
        | none => .ok (items.filterMap fun item => (finding e item).kept?)⟩ := by
  induction items generalizing index with
  | nil => rfl
  | cons item rest ih =>
    rw [filterFrom]
    cases hdoc : Document.ofJson item with
    | error cause =>
      have hf := finding_of_undecodable hdoc e
      simp [ih, passedByFilter, hf, Finding.error?, Finding.kept?, skips_cons_error hdoc, Outcome.skip]
    | ok doc =>
      dsimp only
      cases htest : e.test doc with
      | error error =>
        have hf := finding_of_error hdoc htest
        simp [passedByFilter, hf, Finding.error?, skips, Outcome.plain]
      | ok b =>
        cases b with
        | true =>
          have hf := finding_of_true hdoc htest
          have herror : (finding e item).error? = none := by rw [hf]; rfl
          have hkept : (finding e item).kept? = some doc := by rw [hf]; rfl
          simp only [ih, passedByFilter, herror, hkept, skips_cons_ok hdoc, Outcome.map, List.takeWhile_cons,
            List.findSome?_cons, List.filterMap_cons, Option.isNone_none, if_true]
          cases rest.findSome? fun item => (finding e item).error? <;> rfl
        | false =>
          have hf := finding_of_false hdoc htest
          simp [ih, passedByFilter, hf, Finding.error?, Finding.kept?, skips_cons_ok hdoc]

/-- A search ends with the first answer among the findings, or else in vain. -/
theorem anyMatchFrom_eq (e : Expr) (index : Nat) (items : List Json) :
    anyMatchFrom e index items =
      ⟨skips index (passedBySearch e items),
        (items.findSome? fun item => (finding e item).answer?).getD (.ok false)⟩ := by
  induction items generalizing index with
  | nil => rfl
  | cons item rest ih =>
    rw [anyMatchFrom]
    cases hdoc : Document.ofJson item with
    | error cause =>
      have hf := finding_of_undecodable hdoc e
      simp [ih, passedBySearch, hf, Finding.answer?, skips_cons_error hdoc, Outcome.skip]
    | ok doc =>
      dsimp only
      cases htest : e.test doc with
      | error error =>
        have hf := finding_of_error hdoc htest
        simp [passedBySearch, hf, Finding.answer?, skips, Outcome.plain]
      | ok b =>
        cases b with
        | true =>
          have hf := finding_of_true hdoc htest
          simp [passedBySearch, hf, Finding.answer?, skips, Outcome.plain]
        | false =>
          have hf := finding_of_false hdoc htest
          simp [ih, passedBySearch, hf, Finding.answer?, skips_cons_ok hdoc]

/-- What ends a filter also ends a search, so a search passes no more items. -/
theorem passedBySearch_prefix (e : Expr) (items : List Json) :
    passedBySearch e items <+: passedByFilter e items := by
  have hboth : passedBySearch e items = (passedByFilter e items).takeWhile fun item =>
      (finding e item).answer?.isNone := by
    unfold passedBySearch passedByFilter
    rw [List.takeWhile_takeWhile]
    congr 1
    funext item
    cases finding e item <;> rfl
  rw [hboth]
  exact List.takeWhile_prefix _

end Batch
end DocFilter
