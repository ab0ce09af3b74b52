/-!
# Fields

Key-value pairs in increasing order of their keys, which is the order of code points.  Fields are built with
`Fields.insert`, where the last value of a key wins, and read with `List.lookup`.  Main facts: what an insertion
does to look-ups (`lookup_insert`) and that it keeps the order (`sorted_insert`), so every list made by
`Fields.ofList` is in order (`sorted_ofList`) and has at each key what was given for it last (`lookup_ofList`).
-/

namespace DocFilter

abbrev Fields (α : Type) :=
  List (String × α)

namespace Fields

variable {α : Type}

/-- Keys strictly increase; in particular no key occurs twice. -/
def Sorted (fs : Fields α) : Prop :=
  fs.Pairwise fun a b => a.1 < b.1

/-- Adds a pair at its place in the order, or exchanges the value if the key is there. -/
def insert (key : String) (value : α) : Fields α → Fields α
  | [] => [(key, value)]
  | (k, v) :: rest =>
    if key < k then (key, value) :: (k, v) :: rest
    else if k = key then (key, value) :: rest
    else (k, v) :: insert key value rest

/-- The fields of a list of pairs; a later pair replaces an earlier one with the same key. -/
def ofList (pairs : List (String × α)) : Fields α :=
  pairs.foldl (fun fs (key, value) => insert key value fs) []

theorem lookup_cons (k : String) (p : String × α) (fs : Fields α) :
    List.lookup k (p :: fs) = if k = p.1 then some p.2 else fs.lookup k := by
  obtain ⟨key, value⟩ := p
  rw [List.lookup_cons]
  by_cases h : k = key
  · simp [h]
  · simp [h, beq_false_of_ne h]

theorem lookup_insert (key k : String) (value : α) (fs : Fields α) :
    (insert key value fs).lookup k = if k = key then some value else fs.lookup k := by
  induction fs with
  | nil => simp [insert, lookup_cons]
  | cons p rest ih =>
    unfold insert
    split
    · simp [lookup_cons]
    · split
      · rename_i hp
        by_cases h : k = key <;> simp [lookup_cons, h, hp]
      · rename_i hp
        rw [lookup_cons, lookup_cons, ih]
        by_cases h : k = key
        · subst h
          simp [Ne.symm hp]
        · simp [h]

/-- At every key stands what was given for it last. -/
theorem lookup_ofList (pairs : List (String × α)) (key : String) :
    (ofList pairs).lookup key = pairs.reverse.lookup key := by
  suffices h : ∀ fs : Fields α,
      (pairs.foldl (fun fs (key, value) => insert key value fs) fs).lookup key =
        (pairs.reverse.lookup key).or (fs.lookup key) by
    rw [ofList, h, List.lookup_nil, Option.or_none]
  induction pairs with
  | nil => exact fun _ => rfl
  | cons p rest ih =>
    intro fs
    have hlast : ([p].lookup key).or (fs.lookup key) = (insert p.1 p.2 fs).lookup key := by
      rw [lookup_insert, lookup_cons]
      split <;> rfl
    rw [List.foldl_cons, ih, List.reverse_cons, List.lookup_append, Option.or_assoc, hlast]

/-- Where every key occurs once, the order of the pairs makes no difference to look-ups. -/
theorem lookup_perm {ps qs : List (String × α)} (h : ps.Perm qs) (hkeys : (ps.map Prod.fst).Nodup) (key : String) :
    ps.lookup key = qs.lookup key := by
  induction h with
  | nil => rfl
  | cons p _ ih =>
    have hrest := ih (List.nodup_cons.1 hkeys).2
    rw [lookup_cons, lookup_cons, hrest]
  | swap p q rest =>
    have hne : q.1 ≠ p.1 := by
      intro heq
      simp [heq] at hkeys
    simp only [lookup_cons]
    by_cases hq : key = q.1
    · rw [if_pos hq, if_neg (hq ▸ hne), if_pos hq]
    · rw [if_neg hq, if_neg hq]
  | trans hfirst _ ih ih' =>
    have hmiddle := (hfirst.map Prod.fst).nodup_iff.1 hkeys
    rw [ih hkeys, ih' hmiddle]

theorem mem_insert {key : String} {value : α} {fs : Fields α} {p : String × α} (h : p ∈ insert key value fs) :
    p = (key, value) ∨ p ∈ fs := by
  induction fs with
  | nil => simpa [insert] using h
  | cons q rest ih =>
    unfold insert at h
    split at h
    · simpa using h
    · split at h
      · simp only [List.mem_cons] at h ⊢
        rcases h with h | h
        · exact .inl h
        · exact .inr (.inr h)
      · simp only [List.mem_cons] at h ⊢
        rcases h with h | h
        · exact .inr (.inl h)
        · rcases ih h with h | h
          · exact .inl h
          · exact .inr (.inr h)

theorem sorted_insert (key : String) (value : α) {fs : Fields α} (h : fs.Sorted) :
    (insert key value fs).Sorted := by
  induction fs with
  | nil => simp [insert, Sorted]
  | cons q rest ih =>
    have hq := List.pairwise_cons.1 h
    unfold insert
    split
    · rename_i hlt
      refine List.pairwise_cons.2 ⟨?_, h⟩
      intro p hp
      rcases List.mem_cons.1 hp with rfl | hp
      · exact hlt
      · exact String.lt_trans hlt (hq.1 p hp)
    · rename_i hle
      split
      · rename_i heq
        subst heq
        exact List.pairwise_cons.2 ⟨hq.1, hq.2⟩
      · rename_i hne
        refine List.pairwise_cons.2 ⟨?_, ih hq.2⟩
        intro p hp
        rcases mem_insert hp with rfl | hp
        · exact Std.lt_of_le_of_ne (String.not_lt.1 hle) hne
        · exact hq.1 p hp

theorem sorted_ofList (pairs : List (String × α)) : (ofList pairs).Sorted := by
  suffices h : ∀ fs : Fields α, fs.Sorted →
      (pairs.foldl (fun fs (key, value) => insert key value fs) fs).Sorted from
    h [] List.Pairwise.nil
  induction pairs with
  | nil => exact fun _ h => h
  | cons p rest ih => exact fun fs h => ih _ (sorted_insert p.1 p.2 h)

end Fields

end DocFilter
