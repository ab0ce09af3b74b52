import DocFilter.Eval
import DocFilter.Proofs.Value.Access

/-!
# Resolution of paths

What a path leads to depends on the first of its keys, the last one apart, that leads to no object.  If there is none,
the last key is looked up in the object that the others lead to, and reads as null if it is absent
(`FieldPath.resolve_of_reachesObject`).  Otherwise that key is the fault, and the error names the path as a whole.
-/

namespace DocFilter

/-- Why a key leads to no object: there is nothing at it, or something else. -/
def PathFault.ofLookup (key : String) : Option Value → PathFault
  | none => missing key
  | some v => notAnObject key v.kind

namespace FieldPath

variable {doc inner : Document} {key : String}

private theorem segments_ne_nil (path : FieldPath) : path.segments ≠ [] :=
  List.cons_ne_nil _ _

private theorem reachesObject_cons (h : doc.lookup key = some (.object inner)) (keys : List String) :
    doc.ReachesObject (key :: keys) ↔ inner.ReachesObject keys := by
  simp [Document.ReachesObject, h]

private theorem exists_object_of_reachesObject (h : doc.ReachesObject [key]) :
    ∃ inner, doc.lookup key = some (.object inner) := by
  simpa [Document.ReachesObject] using h

private theorem resolveFrom_step (whole rest : FieldPath) (h : doc.lookup key = some (.object inner)) :
    resolveFrom whole doc (step key rest) = resolveFrom whole inner rest := by
  rw [resolveFrom, h]

private theorem resolveFrom_step_of_not_reachesObject (whole rest : FieldPath) (h : ¬doc.ReachesObject [key]) :
    resolveFrom whole doc (step key rest) = .error (.path whole (.ofLookup key (doc.lookup key))) := by
  rw [resolveFrom]
  split
  · rename_i inner hinner
    exact absurd ⟨inner, by simp [hinner]⟩ h
  · rename_i v _ hv
    rw [hv]
    rfl
  · rename_i hnone
    rw [hnone]
    rfl

/-- If all keys but the last one lead to objects, the last one is looked up. -/
private theorem resolveFrom_of_reachesObject (whole path : FieldPath) (doc : Document)
    (h : ∀ i < path.segments.length, doc.ReachesObject (path.segments.take i)) :
    ∃ inner key, (Value.object doc).at? path.segments.dropLast = some (.object inner) ∧
      path.segments.getLast? = some key ∧ resolveFrom whole doc path = .ok ((inner.lookup key).getD .null) := by
  induction path generalizing doc with
  | last key => exact ⟨doc, key, rfl, rfl, rfl⟩
  | step key rest ih =>
    rw [segments_step] at h ⊢
    have hne : rest.segments ≠ [] := segments_ne_nil rest
    obtain ⟨inner, hinner⟩ := exists_object_of_reachesObject (h 1 (by simpa using List.length_pos_iff.2 hne))
    have hrest : ∀ i < rest.segments.length, Document.ReachesObject inner (rest.segments.take i) := by
      intro i hi
      exact (reachesObject_cons hinner _).1 (h (i + 1) (by simpa using hi))
    obtain ⟨last, k, hlast, hk, hresolve⟩ := ih inner hrest
    refine ⟨last, k, ?_, ?_, ?_⟩
    · rw [List.dropLast_cons_of_ne_nil hne, Value.at?_object_cons, hinner]
      exact hlast
    · rw [List.getLast?_cons_of_ne_nil hne]
      exact hk
    · rw [resolveFrom_step whole rest hinner, hresolve]

/-- The first key that leads to no object is the fault, unless it is the last one. -/
private theorem resolveFrom_of_not_reachesObject (whole path : FieldPath) (doc : Document) {i : Nat}
    (hkey : path.segments[i]? = some key) (hi : i + 1 < path.segments.length)
    (hbefore : ∀ j ≤ i, doc.ReachesObject (path.segments.take j))
    (hnot : ¬doc.ReachesObject (path.segments.take (i + 1))) :
    ∃ outer, (Value.object doc).at? (path.segments.take i) = some (.object outer) ∧
      resolveFrom whole doc path = .error (.path whole (.ofLookup key (outer.lookup key))) := by
  induction path generalizing doc i with
  | last k => simp at hi
  | step k rest ih =>
    rw [segments_step] at hkey hi hbefore hnot ⊢
    cases i with
    | zero =>
      obtain rfl : k = key := by simpa using hkey
      exact ⟨doc, rfl, resolveFrom_step_of_not_reachesObject whole rest hnot⟩
    | succ i =>
      obtain ⟨inner, hinner⟩ := exists_object_of_reachesObject (hbefore 1 (by omega))
      have hrest : ∀ j ≤ i, Document.ReachesObject inner (rest.segments.take j) := by
        intro j hj
        exact (reachesObject_cons hinner _).1 (hbefore (j + 1) (by omega))
      have hfault : ¬Document.ReachesObject inner (rest.segments.take (i + 1)) :=
        fun h => hnot ((reachesObject_cons hinner _).2 h)
      obtain ⟨outer, houter, hresolve⟩ := ih inner (by simpa using hkey) (by simpa using hi) hrest hfault
      refine ⟨outer, ?_, ?_⟩
      · rw [List.take_succ_cons, Value.at?_object_cons, hinner]
        exact houter
      · rw [resolveFrom_step whole rest hinner, hresolve]

/-- If all beginnings of a path lead to objects, it leads to the value of its last key there, or to null if the key is
absent.  Otherwise the first key that leads to no object is reported with the whole path: as missing if it is absent,
and else with the kind of what it leads to. -/
theorem resolve_cases (doc : Document) (path : FieldPath) :
    ((∀ i < path.segments.length, doc.ReachesObject (path.segments.take i)) →
      ∃ inner key, (Value.object doc).at? path.segments.dropLast = some (.object inner) ∧
        path.segments.getLast? = some key ∧ path.resolve doc = .ok ((inner.lookup key).getD .null)) ∧
      ∀ i key, path.segments[i]? = some key → i + 1 < path.segments.length →
        (∀ j ≤ i, doc.ReachesObject (path.segments.take j)) → ¬doc.ReachesObject (path.segments.take (i + 1)) →
          ∃ outer, (Value.object doc).at? (path.segments.take i) = some (.object outer) ∧
            path.resolve doc = .error (.path path (.ofLookup key (outer.lookup key))) :=
  ⟨resolveFrom_of_reachesObject path path doc,
    fun _ _ hkey hi hbefore hnot => resolveFrom_of_not_reachesObject path path doc hkey hi hbefore hnot⟩

end FieldPath

end DocFilter
