import DocFilter.Proofs.Batch.Finding

/-!
# Batches behind each other

A run over two batches, one behind the other, is the run over the first one, and where that leaves the result open, the
run over the second one after it, with the places of its notes moved (`runs_compose`).  What is no document leaves
nothing but notes: without it both runs have the same result.
-/

namespace DocFilter

/-- The note on an item that has moved behind `n` others. -/
def Skip.shifted (n : Nat) (s : Skip) : Skip :=
  { s with index := s.index + n }

/-- The outcome of a run that goes on behind `n` items, with the notes that have been made on them. -/
def Outcome.behind {ε α : Type} (n : Nat) (skipped : List Skip) (o : Outcome ε α) : Outcome ε α :=
  ⟨skipped ++ o.skipped.map (Skip.shifted n), o.result⟩

namespace Batch

/-- An item that can be decoded. -/
def isDocument (item : Json) : Bool :=
  (Document.ofJson item).isOk

variable {e : Expr} {items items' : List Json}

/-! ### Notes -/

private theorem skips_add (index n : Nat) (items : List Json) :
    skips (index + n) items = (skips index items).map (Skip.shifted n) := by
  induction items generalizing index with
  | nil => rfl
  | cons item rest ih =>
    have hrest := ih (index + 1)
    rw [Nat.add_right_comm] at hrest
    cases hdoc : Document.ofJson item with
    | error cause =>
      rw [skips_cons_error hdoc, skips_cons_error hdoc, hrest]
      rfl
    | ok doc => rw [skips_cons_ok hdoc, skips_cons_ok hdoc, hrest]

/-- A run that ends in the first batch passes no more items than over that batch alone. -/
private theorem passed_of_ended {β : Type} {f : Json → Option β} {xs : List Json} {b : β}
    (h : xs.findSome? f = some b) (ys : List Json) :
    (xs ++ ys).takeWhile (fun item => (f item).isNone) = xs.takeWhile fun item => (f item).isNone := by
  obtain ⟨before, item, after, rfl, hitem, hbefore⟩ := List.findSome?_eq_some_iff.1 h
  have hstop (rest : List Json) : (before ++ item :: rest).takeWhile (fun i => (f i).isNone) = before := by
    rw [List.takeWhile_append_of_pos fun i hi => Option.isNone_iff_eq_none.2 (hbefore i hi), List.takeWhile_cons, hitem]
    exact List.append_nil before
  rw [List.append_assoc, List.cons_append, hstop, hstop]

/-- A run that does not end in the first batch goes on to the second one, and makes there the notes that it would make
without the first one, at other places. -/
private theorem skips_of_open {β : Type} {f : Json → Option β} {xs : List Json} (h : xs.findSome? f = none)
    (ys : List Json) :
    skips 0 ((xs ++ ys).takeWhile fun item => (f item).isNone) =
      skips 0 (xs.takeWhile fun item => (f item).isNone) ++
        (skips 0 (ys.takeWhile fun item => (f item).isNone)).map (Skip.shifted xs.length) := by
  have hnone : ∀ item ∈ xs, (f item).isNone := fun item hitem =>
    Option.isNone_iff_eq_none.2 (List.findSome?_eq_none_iff.1 h item hitem)
  rw [List.takeWhile_append_of_pos hnone, skips_append, skips_add, List.takeWhile_eq_self_iff.2 hnone]

/-! ### Runs over two batches -/

private theorem anyMatch_append (e : Expr) (xs ys : List Json) :
    anyMatch e (xs ++ ys) =
      match (anyMatch e xs).result with
      | .ok false => (anyMatch e ys).behind xs.length (anyMatch e xs).skipped
      | _ => anyMatch e xs := by
  simp only [anyMatch, anyMatchFrom_eq, passedBySearch, List.findSome?_append]
  cases h : xs.findSome? fun item => (finding e item).answer? with
  | none => rw [skips_of_open h]; rfl
  | some answer =>
    rw [passed_of_ended h]
    obtain ⟨item, -, hitem⟩ := List.exists_of_findSome?_eq_some h
    cases hf : finding e item with
    | failing error =>
      rw [hf] at hitem
      obtain rfl := Option.some.inj hitem
      rfl
    | satisfying doc =>
      rw [hf] at hitem
      obtain rfl := Option.some.inj hitem
      rfl
    | undecodable | unsatisfying =>
      rw [hf] at hitem
      cases hitem

private theorem filter_append (e : Expr) (xs ys : List Json) :
    filter e (xs ++ ys) =
      match (filter e xs).result with
      | .ok kept => ((filter e ys).map (kept ++ ·)).behind xs.length (filter e xs).skipped
      | .error _ => filter e xs := by
  simp only [filter, filterFrom_eq, passedByFilter, List.findSome?_append, List.filterMap_append]
  cases h : xs.findSome? fun item => (finding e item).error? with
  | none =>
    rw [skips_of_open h]
    cases ys.findSome? fun item => (finding e item).error? <;> rfl
  | some error => rw [passed_of_ended h]; rfl

/-! ### Documents among other items -/

private theorem filterMap_documents {β : Type} {f : Finding → Option β}
    (hf : ∀ cause, f (.undecodable cause) = none) (e : Expr) (items : List Json) :
    items.filterMap (fun item => f (finding e item)) =
      (items.filter isDocument).filterMap fun item => f (finding e item) := by
  rw [List.filterMap_filter]
  congr 1
  funext item
  cases hdoc : Document.ofJson item with
  | error cause =>
    rw [finding_of_undecodable hdoc, hf, isDocument, hdoc]
    rfl
  | ok doc =>
    rw [isDocument, hdoc]
    rfl

private theorem findSome?_documents {β : Type} {f : Finding → Option β}
    (hf : ∀ cause, f (.undecodable cause) = none) (e : Expr) (items : List Json) :
    items.findSome? (fun item => f (finding e item)) =
      (items.filter isDocument).findSome? fun item => f (finding e item) := by
  rw [← List.head?_filterMap, ← List.head?_filterMap, filterMap_documents hf]

private theorem anyMatch_result_documents (e : Expr) (items : List Json) :
    (anyMatch e items).result = (anyMatch e (items.filter isDocument)).result := by
  simp only [anyMatch, anyMatchFrom_eq]
  rw [findSome?_documents fun _ => rfl]

private theorem filter_result_documents (e : Expr) (items : List Json) :
    (filter e items).result = (filter e (items.filter isDocument)).result := by
  simp only [filter, filterFrom_eq]
  rw [findSome?_documents fun _ => rfl, filterMap_documents fun _ => rfl]

/-- A search over two batches ends as over the first one if that is an error or a match, and else as over the second
one; a filter fails as over the first one or as over the second one, and else keeps what it keeps of both.  The notes
on the second batch are moved behind the first one.  The result of either run hangs on the documents in the batch
alone, whatever stands between them. -/
theorem runs_compose (e : Expr) :
    (∀ xs ys, anyMatch e (xs ++ ys) =
      match (anyMatch e xs).result with
      | .ok false => (anyMatch e ys).behind xs.length (anyMatch e xs).skipped
      | _ => anyMatch e xs) ∧
    (∀ xs ys, filter e (xs ++ ys) =
      match (filter e xs).result with
      | .ok kept => ((filter e ys).map (kept ++ ·)).behind xs.length (filter e xs).skipped
      | .error _ => filter e xs) ∧
    ∀ items items', items.filter isDocument = items'.filter isDocument →
      (anyMatch e items).result = (anyMatch e items').result ∧ (filter e items).result = (filter e items').result := by
  refine ⟨anyMatch_append e, filter_append e, fun items items' h => ?_⟩
  rw [anyMatch_result_documents e items, anyMatch_result_documents e items', filter_result_documents e items,
    filter_result_documents e items', h]
  exact ⟨rfl, rfl⟩

/-- A document in front of two other items, and between them. -/
theorem runs_compose_noise :
    let e : Expr := .field (.last "a")
    let doc : Json := .object [("a", .bool true)]
    ([doc, .null, .array []].filter isDocument = [.null, doc, .array []].filter isDocument) ∧
      (anyMatch e [doc, .null, .array []]).result = (anyMatch e [.null, doc, .array []]).result ∧
      (filter e [doc, .null, .array []]).result = (filter e [.null, doc, .array []]).result ∧
      (filter e [doc, .null, .array []]).skipped ≠ (filter e [.null, doc, .array []]).skipped := by
  intro e doc
  have hsame : [doc, .null, .array []].filter isDocument = [.null, doc, .array []].filter isDocument := rfl
  obtain ⟨hany, hfilter⟩ := (runs_compose e).2.2 _ _ hsame
  exact ⟨hsame, hany, hfilter, by decide⟩

end Batch
end DocFilter
