import DocFilter.Proofs.Command.Conjunction

/-!
# Filtering by a negation

Where a filter succeeds, the filter by the negation of its query succeeds too, makes the same notes and keeps just the
documents that the first one drops: put together in the order of the batch, both give all its documents
(`filter_negation`).  A query that can be evaluated over a document is a boolean there, so that its negation is the
other one (`Expr.test_not`).
-/

namespace DocFilter

/-- Where an expression has a truth value, its negation has the other one. -/
theorem Expr.test_not {doc : Document} {e : Expr} {b : Bool} (h : e.test doc = .ok b) :
    (not e).test doc = .ok !b := by
  rw [test_eq_ok_iff] at h ⊢
  rw [eval_not, h]
  rfl

namespace Batch

/-- The documents that are taken of the items, as JSON and with the places of the items; the first item has the given
index. -/
def placed (f : Json → Option Document) (index : Nat) (items : List Json) : List (Nat × Json) :=
  (items.zipIdx index).filterMap fun (item, i) => (f item).map fun doc => (i, doc.toJson)

variable {f g h : Json → Option Document} {e : Expr} {item : Json} {items : List Json}

private theorem placed_cons_none (hf : f item = none) (index : Nat) (rest : List Json) :
    placed f index (item :: rest) = placed f (index + 1) rest := by
  simp [placed, hf]

private theorem placed_cons_some {doc : Document} (hf : f item = some doc) (index : Nat) (rest : List Json) :
    placed f index (item :: rest) = (index, doc.toJson) :: placed f (index + 1) rest := by
  simp [placed, hf]

theorem placed_snd (f : Json → Option Document) (index : Nat) (items : List Json) :
    (placed f index items).map Prod.snd = (items.filterMap f).map Document.toJson := by
  induction items generalizing index with
  | nil => rfl
  | cons item rest ih =>
    cases hf : f item with
    | none => rw [placed_cons_none hf, ih, List.filterMap_cons_none hf]
    | some doc => rw [placed_cons_some hf, List.map_cons, ih, List.filterMap_cons_some hf, List.map_cons]

private theorem mem_placed {i : Nat} {j : Json} :
    (i, j) ∈ placed f 0 items ↔ ∃ item doc, items[i]? = some item ∧ f item = some doc ∧ doc.toJson = j := by
  unfold placed
  rw [List.mem_filterMap]
  constructor
  · rintro ⟨⟨item, i'⟩, hmem, hsome⟩
    obtain ⟨doc, hf, hdoc⟩ := Option.map_eq_some_iff.1 hsome
    obtain ⟨rfl, rfl⟩ := Prod.mk.inj hdoc
    exact ⟨item, doc, List.mk_mem_zipIdx_iff_getElem?.1 hmem, hf, rfl⟩
  · rintro ⟨item, doc, hitem, hf, rfl⟩
    exact ⟨(item, i), List.mk_mem_zipIdx_iff_getElem?.2 hitem, Option.map_eq_some_iff.2 ⟨doc, hf, rfl⟩⟩

private theorem le_of_mem_placed {index : Nat} {p : Nat × Json} (hp : p ∈ placed f index items) : index ≤ p.1 := by
  obtain ⟨⟨item, i⟩, hmem, hsome⟩ := List.mem_filterMap.1 hp
  obtain ⟨doc, -, rfl⟩ := Option.map_eq_some_iff.1 hsome
  exact List.le_snd_of_mem_zipIdx hmem

private theorem merge_cons_first {p : Nat × Json} {ps qs : List (Nat × Json)} (hps : ∀ q ∈ ps, p.1 < q.1)
    (hqs : ∀ q ∈ qs, p.1 < q.1) :
    (p :: ps).merge qs (fun a b => a.1 ≤ b.1) = p :: ps.merge qs (fun a b => a.1 ≤ b.1) ∧
      ps.merge (p :: qs) (fun a b => a.1 ≤ b.1) = p :: ps.merge qs (fun a b => a.1 ≤ b.1) := by
  constructor
  · cases qs with
    | nil => rw [List.merge_right, List.merge_right]
    | cons q qs =>
      have hle : p.1 ≤ q.1 := Nat.le_of_lt (hqs q List.mem_cons_self)
      rw [List.cons_merge_cons, if_pos (decide_eq_true hle)]
  · cases ps with
    | nil => rw [List.nil_merge, List.nil_merge]
    | cons q ps =>
      have hlt : ¬q.1 ≤ p.1 := Nat.not_le_of_lt (hps q List.mem_cons_self)
      rw [List.cons_merge_cons, if_neg (by simpa using hlt)]

/-- If of every item the same is taken by one of two functions, and nothing by the other one, then what both take
merges by its places to what is taken in all. -/
private theorem merge_placed
    (hsplit : ∀ item ∈ items, f item = h item ∧ g item = none ∨ f item = none ∧ g item = h item) (index : Nat) :
    (placed f index items).merge (placed g index items) (fun a b => a.1 ≤ b.1) = placed h index items := by
  induction items generalizing index with
  | nil => exact List.nil_merge _
  | cons item rest ih =>
    have hrest := ih (fun i hi => hsplit i (List.mem_cons_of_mem _ hi)) (index + 1)
    have hfirst (doc : Document) := merge_cons_first (p := (index, doc.toJson))
      (fun q (hq : q ∈ placed f (index + 1) rest) => le_of_mem_placed hq)
      (fun q (hq : q ∈ placed g (index + 1) rest) => le_of_mem_placed hq)
    rcases hsplit item List.mem_cons_self with ⟨hf, hg⟩ | ⟨hf, hg⟩
    · rw [placed_cons_none hg]
      cases hh : h item with
      | none => rw [placed_cons_none (hf.trans hh), placed_cons_none hh, hrest]
      | some doc => rw [placed_cons_some (hf.trans hh), placed_cons_some hh, (hfirst doc).1, hrest]
    · rw [placed_cons_none hf]
      cases hh : h item with
      | none => rw [placed_cons_none (hg.trans hh), placed_cons_none hh, hrest]
      | some doc => rw [placed_cons_some (hg.trans hh), placed_cons_some hh, (hfirst doc).2, hrest]

/-- Over an item that does not fail, the negation does not fail either, and keeps it exactly if it is a document that
is not kept. -/
private theorem finding_not (herror : (finding e item).error? = none) :
    (finding (.not e) item).error? = none ∧
      ((finding e item).kept? = (Document.ofJson item).toOption ∧ (finding (.not e) item).kept? = none ∨
        (finding e item).kept? = none ∧ (finding (.not e) item).kept? = (Document.ofJson item).toOption) := by
  cases hdoc : Document.ofJson item with
  | error cause =>
    rw [finding_of_undecodable hdoc, finding_of_undecodable hdoc]
    exact ⟨rfl, .inl ⟨rfl, rfl⟩⟩
  | ok doc =>
    cases htest : e.test doc with
    | error error =>
      rw [finding_of_error hdoc htest] at herror
      cases herror
    | ok b =>
      have hnot := Expr.test_not htest
      cases b with
      | true =>
        rw [finding_of_true hdoc htest, finding_of_false hdoc hnot]
        exact ⟨rfl, .inl ⟨rfl, rfl⟩⟩
      | false =>
        rw [finding_of_false hdoc htest, finding_of_true hdoc hnot]
        exact ⟨rfl, .inr ⟨rfl, rfl⟩⟩

private theorem passedByFilter_of_noError (h : ∀ item ∈ items, (finding e item).error? = none) :
    passedByFilter e items = items :=
  List.takeWhile_eq_self_iff.2 fun item hitem => Option.isNone_iff_eq_none.2 (h item hitem)

end Batch

namespace Command

/-- What a filter keeps of a batch, with the places that it had there. -/
def keptAt (e : Expr) (items : List Json) : List (Nat × Json) :=
  Batch.placed (fun item => (Batch.finding e item).kept?) 0 items

/-- All documents of a batch with their places. -/
def documentsAt (items : List Json) : List (Nat × Json) :=
  Batch.placed (fun item => (Document.ofJson item).toOption) 0 items

/-- How the outcomes of filtering a batch by an expression (`plain`) and by its negation (`negated`) belong
together. -/
structure Partition (e : Expr) (items : List Json) (plain negated : Outcome CommandError Json) : Prop where
  kept : plain.result = .ok (.array ((keptAt e items).map Prod.snd))
  dropped : negated.result = .ok (.array ((keptAt (.not e) items).map Prod.snd))
  /-- Both pass over the same items. -/
  notes : negated.skipped = plain.skipped
  /-- Every document is kept by exactly one of them. -/
  one : ∀ i item doc, items[i]? = some item → Document.ofJson item = .ok doc →
    Xor ((i, doc.toJson) ∈ keptAt e items) ((i, doc.toJson) ∈ keptAt (.not e) items)
  /-- In the order of their places, what both keep is all documents. -/
  all : (keptAt e items).merge (keptAt (.not e) items) (fun a b => a.1 ≤ b.1) = documentsAt items

variable {e : Expr} {items : List Json} {query input : String} {depth : Nat}

private theorem mem_keptAt {i : Nat} {item : Json} {doc : Document} (hitem : items[i]? = some item)
    (hdoc : Document.ofJson item = .ok doc) :
    (i, doc.toJson) ∈ keptAt e items ↔ e.test doc = .ok true := by
  rw [keptAt, Batch.mem_placed]
  constructor
  · rintro ⟨item', doc', hitem', hkept, -⟩
    obtain rfl := Option.some.inj (hitem.symm.trans hitem')
    obtain ⟨hdoc', htest⟩ := Batch.finding_kept hkept
    obtain rfl := Except.ok.inj (hdoc.symm.trans hdoc')
    exact htest
  · intro htest
    exact ⟨item, doc, hitem, by rw [Batch.finding_of_true hdoc htest]; rfl, rfl⟩

private theorem filter_of_noError (hquery : Expr.parseWith { Limits.standard with maxDepth := depth } query = .ok e)
    (hinput : Json.parse input = .ok (.array items)) (h : ∀ item ∈ items, (Batch.finding e item).error? = none) :
    filter ⟨query, some input, depth⟩ = ⟨Batch.skips 0 items, .ok (.array ((keptAt e items).map Prod.snd))⟩ := by
  rw [filter_eq hquery hinput, Batch.filter, Batch.filterFrom_eq, Batch.passedByFilter_of_noError h,
    List.findSome?_eq_none_iff.2 h, keptAt, Batch.placed_snd]
  rfl

private theorem parseWith_not (hquery : Expr.parseWith { Limits.standard with maxDepth := depth } query = .ok e) :
    Expr.parseWith { Limits.standard with maxDepth := depth + 2 } ("!(" ++ query ++ ")") = .ok (.not e) := by
  have hnegated := (Grammar.sentence_of_parseWith hquery).negated
  have htext : "!" ++ Expr.enclose query = "!(" ++ query ++ ")" := by
    apply String.toList_inj.1
    simp [Expr.enclose]
  rw [htext] at hnegated
  exact Grammar.parseWith_of_sentence hnegated

/-- If a filter succeeds, the filter by the negation of its query, which is two levels deeper, succeeds as well, and
the two divide the documents of the batch between them. -/
theorem filter_negation (query input : String) (depth : Nat) {out : Json}
    (hquery : Expr.parseWith { Limits.standard with maxDepth := depth } query = .ok e)
    (hinput : Json.parse input = .ok (.array items)) (hout : (filter ⟨query, some input, depth⟩).result = .ok out) :
    Partition e items (filter ⟨query, some input, depth⟩) (filter ⟨"!(" ++ query ++ ")", some input, depth + 2⟩) := by
  rw [filter_result hquery hinput] at hout
  obtain ⟨herror, -⟩ := filtered_eq_ok hout
  have hnegated : ∀ item ∈ items, (Batch.finding (.not e) item).error? = none := fun item hitem =>
    (Batch.finding_not (herror item hitem)).1
  rw [filter_of_noError hquery hinput herror, filter_of_noError (parseWith_not hquery) hinput hnegated]
  refine { kept := rfl, dropped := rfl, notes := rfl, one := ?_, all := ?_ }
  · intro i item doc hitem hdoc
    rw [mem_keptAt hitem hdoc, mem_keptAt hitem hdoc]
    cases htest : e.test doc with
    | error error =>
      have hnone := herror item (List.mem_of_getElem? hitem)
      rw [Batch.finding_of_error hdoc htest] at hnone
      cases hnone
    | ok b =>
      rw [Expr.test_not htest]
      cases b with
      | true => exact .inl ⟨rfl, by simp⟩
      | false => exact .inr ⟨rfl, by simp⟩
  · exact Batch.merge_placed (fun item hitem => (Batch.finding_not (herror item hitem)).2) 0

/-- A document that is kept, an item that is no document and a document that is dropped. -/
theorem filter_negation_text :
    let e : Expr := .binary .equal (.field (.last "a")) (.string "x")
    let items : List Json := [.object [("a", .string "x")], .null, .object [("a", .string "b")]]
    Json.parse "[\x7b\"a\":\"x\"\x7d,null,\x7b\"a\":\"b\"\x7d]" = .ok (.array items) ∧
      keptAt e items = [(0, .object [("a", .string "x")])] ∧
      keptAt (.not e) items = [(2, .object [("a", .string "b")])] ∧
      Partition e items (filter ⟨"a == 'x'", some "[\x7b\"a\":\"x\"\x7d,null,\x7b\"a\":\"b\"\x7d]", 64⟩)
        (filter ⟨"!(a == 'x')", some "[\x7b\"a\":\"x\"\x7d,null,\x7b\"a\":\"b\"\x7d]", 66⟩) := by
  intro e items
  have hquery : Expr.parseWith { Limits.standard with maxDepth := 64 } "a == 'x'" = .ok e := by rfl
  have hinput : Json.parse "[\x7b\"a\":\"x\"\x7d,null,\x7b\"a\":\"b\"\x7d]" = .ok (.array items) := by rfl
  have hout : (filter ⟨"a == 'x'", some "[\x7b\"a\":\"x\"\x7d,null,\x7b\"a\":\"b\"\x7d]", 64⟩).result =
      .ok (.array [.object [("a", .string "x")]]) := by
    rw [filter_result hquery hinput]
    rfl
  have hpartition := filter_negation "a == 'x'" _ 64 hquery hinput hout
  have htext : "!(" ++ "a == 'x'" ++ ")" = "!(a == 'x')" := by rfl
  rw [htext] at hpartition
  exact ⟨hinput, rfl, rfl, hpartition⟩

end Command
end DocFilter
