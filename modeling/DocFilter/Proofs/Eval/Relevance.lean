import DocFilter.Proofs.Eval.Width

/-!
# What an expression reads

Of a document an expression reads the values of the keys that its paths begin with, and nothing else: documents that
agree on these keys give the same value, or the same error (`eval_of_readKeys`).  A path reads no other key
(`FieldPath.resolve_congr`), and all other parts of an expression see the document through its paths.
-/

namespace DocFilter

/-- What a path leads to depends on the value of its first key alone. -/
theorem FieldPath.resolve_congr {path : FieldPath} {d d' : Document}
    (h : d.lookup path.first = d'.lookup path.first) : path.resolve d = path.resolve d' := by
  cases path with
  | last key =>
    have hkey : d.lookup key = d'.lookup key := h
    rw [resolve, resolve, resolveFrom, resolveFrom, hkey]
  | step key rest =>
    have hkey : d.lookup key = d'.lookup key := h
    rw [resolve, resolve, resolveFrom, resolveFrom, hkey]

namespace Expr

/-- The keys of the document that the expression names: those that its paths begin with. -/
def readKeys (e : Expr) : List String :=
  e.paths.map FieldPath.first

variable {e : Expr} {d d' : Document} {key : String}

private theorem eval_congr (h : ∀ path ∈ e.paths, path.resolve d = path.resolve d') : e.eval d = e.eval d' := by
  induction e with
  | binary op left right ihl ihr =>
    rw [paths, List.forall_mem_append] at h
    rw [eval_binary, eval_binary, ihl h.1, ihr h.2]
  | signed sign operand ih => rw [eval_signed, eval_signed, ih h]
  | not operand ih => rw [eval_not, eval_not, ih h]
  | bool | number | string | null => rfl
  | field path =>
    rw [eval_field, eval_field]
    exact h path (List.mem_singleton_self path)

private theorem eval_of_agree (h : ∀ key ∈ e.readKeys, d.lookup key = d'.lookup key) :
    e.eval d = e.eval d' ∧ e.test d = e.test d' := by
  have hvalue : e.eval d = e.eval d' := by
    refine eval_congr fun path hpath => FieldPath.resolve_congr ?_
    exact h path.first (List.mem_map.2 ⟨path, hpath, rfl⟩)
  exact ⟨hvalue, by rw [test, test, hvalue]⟩

private theorem lookup_filter_ne {k : String} (hk : k ≠ key) (fields : Document) :
    (fields.filter fun p => p.1 ≠ key).lookup k = fields.lookup k := by
  induction fields with
  | nil => rfl
  | cons p rest ih =>
    by_cases hp : p.1 = key
    · have hother : k ≠ p.1 := hp ▸ hk
      rw [List.filter_cons_of_neg (by simpa using hp), ih, Fields.lookup_cons, if_neg hother]
    · rw [List.filter_cons_of_pos (by simpa using hp), Fields.lookup_cons, Fields.lookup_cons, ih]

/-- An expression reads only the keys that it names.  Documents that have the same values at these keys, or lack the same
ones of them, give the same value or the same error.  So it makes no difference whether another key is added, changed or
removed, nor in which order the keys are inserted. -/
theorem eval_of_readKeys (e : Expr) :
    (∀ d d' : Document, (∀ key ∈ e.readKeys, d.lookup key = d'.lookup key) →
      e.eval d = e.eval d' ∧ e.test d = e.test d') ∧
    (∀ (d : Document) (key : String) (v : Value), key ∉ e.readKeys →
      e.eval (d.insert key v) = e.eval d ∧ e.test (d.insert key v) = e.test d) ∧
    (∀ (d : Document) (key : String), key ∉ e.readKeys →
      e.eval (d.filter fun p => p.1 ≠ key) = e.eval d ∧ e.test (d.filter fun p => p.1 ≠ key) = e.test d) ∧
    ∀ ps qs : List (String × Value), ps.Perm qs → (ps.map Prod.fst).Nodup →
      e.eval (Fields.ofList ps) = e.eval (Fields.ofList qs) ∧ e.test (Fields.ofList ps) = e.test (Fields.ofList qs) := by
  refine ⟨fun d d' => eval_of_agree, fun d key v hkey => ?_, fun d key hkey => ?_, fun ps qs hperm hkeys => ?_⟩
  · refine eval_of_agree fun k hk => ?_
    have hother : k ≠ key := fun heq => hkey (heq ▸ hk)
    rw [Fields.lookup_insert, if_neg hother]
  · refine eval_of_agree fun k hk => ?_
    have hother : k ≠ key := fun heq => hkey (heq ▸ hk)
    exact lookup_filter_ne hother d
  · refine eval_of_agree fun k _ => ?_
    have hreverse : ps.reverse.Perm qs.reverse :=
      ps.reverse_perm.trans (hperm.trans qs.reverse_perm.symm)
    have hkeys' : (ps.reverse.map Prod.fst).Nodup := (ps.reverse_perm.map Prod.fst).nodup_iff.2 hkeys
    rw [Fields.lookup_ofList, Fields.lookup_ofList, Fields.lookup_perm hreverse hkeys']

/-- A path that fails, in documents that differ at a key which the expression does not name. -/
theorem eval_of_readKeys_fault :
    let e : Expr := .binary .and (.field (.last "f")) (.field (.step "a" (.last "z")))
    let d : Document := [("a", .integer 1), ("f", .bool true), ("z", .null)]
    let d' : Document := [("a", .integer 1), ("f", .bool true)]
    (∀ key ∈ e.readKeys, d.lookup key = d'.lookup key) ∧ e.eval d = e.eval d' ∧
      e.eval d = .error (.path (.step "a" (.last "z")) (.notAnObject "a" .integer)) := by
  intro e d d'
  have hagree : ∀ key ∈ e.readKeys, d.lookup key = d'.lookup key := by
    intro key hkey
    have hnamed : key = "f" ∨ key = "a" := by simpa [e, readKeys, paths, FieldPath.first] using hkey
    rcases hnamed with rfl | rfl
    · rfl
    · rfl
  exact ⟨hagree, ((eval_of_readKeys e).1 d d' hagree).1, rfl⟩

end Expr

end DocFilter
