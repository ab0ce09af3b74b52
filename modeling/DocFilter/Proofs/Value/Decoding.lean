import DocFilter.Proofs.Value.Access
import DocFilter.Proofs.Value.Roundtrip

/-!
# Decoding of documents

A JSON object is a document if no keys lead to an array in it, and then the same keys lead to the same things in both
(`Value.rel_of_ofJson`).  Otherwise the array that is reported is the first one on a walk that goes through each object
before it turns to the next key, in the order of the keys: of all lists of keys that lead to arrays it has the smallest
one (`Value.firstArrayAt_of_ofJson`).
-/

namespace DocFilter
namespace Json

/-- The keys lead to an array. -/
def ArrayAt (j : Json) (keys : List String) : Prop :=
  ∃ items, j.at? keys = some (.array items)

/-- The keys lead to an array, and no keys that come before them do: those that have a smaller key at the first place
where they differ. -/
def FirstArrayAt (j : Json) (keys : List String) : Prop :=
  j.ArrayAt keys ∧ ∀ others, j.ArrayAt others → ¬List.Lex (· < ·) others keys

/-- The value is what the JSON value becomes, without what is inside of objects.  Numbers stay what they are, except
that a whole number beyond 64 signed bits becomes the nearest float; there is none for an array. -/
inductive Becomes : Json → Value → Prop
  | null : Becomes null .null
  | bool (b : Bool) : Becomes (bool b) (.bool b)
  | string (s : String) : Becomes (string s) (.string s)
  | integer {n : Int} (inRange : InRange n) {m : Int64} (same : m.toInt = n) :
    Becomes (number (.integer n inRange)) (.integer m)
  | rounded {n : Int} (inRange : InRange n) (large : 9223372036854775808 ≤ n) (isFinite : (Float.ofInt n).isFinite) :
    Becomes (number (.integer n inRange)) (.float (Float.ofInt n))
  | float {x : Float} (isFinite : x.isFinite) : Becomes (number (.float x isFinite)) (.float x)
  | object {members : List (String × Json)} {fields : List (String × Value)}
    (sameKeys : fields.map Prod.fst = members.map Prod.fst) : Becomes (object members) (.object fields)

/-! ### The first array -/

section

variable {j : Json} {key : String} {keys : List String} {items : List Json} {members rest : List (String × Json)}

private theorem at?_cons_eq_none (h : ∀ members, j ≠ object members) (key : String) (keys : List String) :
    j.at? (key :: keys) = none := by
  cases j with
  | object members => exact absurd rfl (h members)
  | null | bool | number | string | array => rfl

private theorem arrayAt_array : (array items).ArrayAt keys ↔ keys = [] := by
  cases keys with
  | nil => simp [ArrayAt]
  | cons key keys => simp [ArrayAt, at?_cons_eq_none]

private theorem firstArrayAt_array (items : List Json) : (array items).FirstArrayAt [] :=
  ⟨arrayAt_array.2 rfl, fun _ _ hlex => nomatch hlex⟩

/-- The keys of the members after the first one come after its key. -/
private theorem lt_of_arrayAt (hsorted : Fields.Sorted ((key, j) :: rest)) (h : (object rest).ArrayAt keys) :
    ∃ later inner, keys = later :: inner ∧ key < later := by
  obtain ⟨items, hitems⟩ := h
  cases keys with
  | nil => simp at hitems
  | cons later inner =>
    obtain ⟨i, hlookup, -⟩ := Option.bind_eq_some_iff.1 hitems
    obtain ⟨before, after, rfl, -⟩ := List.lookup_eq_some_iff.1 hlookup
    exact ⟨later, inner, rfl, (List.pairwise_cons.1 hsorted).1 (later, i) (by simp)⟩

/-- An array is in the first member of an object or in the others. -/
private theorem arrayAt_cons (hsorted : Fields.Sorted ((key, j) :: rest)) :
    (object ((key, j) :: rest)).ArrayAt keys ↔
      (∃ inner, keys = key :: inner ∧ j.ArrayAt inner) ∨ (object rest).ArrayAt keys := by
  cases keys with
  | nil => simp [ArrayAt]
  | cons k inner =>
    by_cases hk : k = key
    · subst hk
      have hother : ¬(object rest).ArrayAt (k :: inner) := by
        intro h
        obtain ⟨later, inner', hkeys, hlt⟩ := lt_of_arrayAt hsorted h
        obtain ⟨rfl, -⟩ := List.cons.inj hkeys
        exact String.lt_irrefl _ hlt
      have hself : (object ((k, j) :: rest)).ArrayAt (k :: inner) ↔ j.ArrayAt inner := by
        simp [ArrayAt]
      simp [hself, hother]
    · simp [hk, ArrayAt, Fields.lookup_cons]

private theorem FirstArrayAt.head (hsorted : Fields.Sorted ((key, j) :: rest)) (h : j.FirstArrayAt keys) :
    (object ((key, j) :: rest)).FirstArrayAt (key :: keys) := by
  refine ⟨(arrayAt_cons hsorted).2 (.inl ⟨keys, rfl, h.1⟩), ?_⟩
  intro others hothers
  rcases (arrayAt_cons hsorted).1 hothers with ⟨inner, rfl, hinner⟩ | hrest
  · intro hlex
    cases hlex with
    | cons hlex => exact h.2 inner hinner hlex
    | rel hlt => exact String.lt_irrefl _ hlt
  · obtain ⟨later, inner, rfl, hlt⟩ := lt_of_arrayAt hsorted hrest
    intro hlex
    cases hlex with
    | cons _ => exact String.lt_irrefl _ hlt
    | rel hlt' => exact String.lt_irrefl _ (String.lt_trans hlt hlt')

private theorem FirstArrayAt.tail (hsorted : Fields.Sorted ((key, j) :: rest)) (hnone : ∀ keys, ¬j.ArrayAt keys)
    (h : (object rest).FirstArrayAt keys) : (object ((key, j) :: rest)).FirstArrayAt keys := by
  refine ⟨(arrayAt_cons hsorted).2 (.inr h.1), ?_⟩
  intro others hothers
  rcases (arrayAt_cons hsorted).1 hothers with ⟨inner, -, hinner⟩ | hrest
  · exact absurd hinner (hnone inner)
  · exact h.2 others hrest

end

end Json

namespace Value

open Json (Becomes)

variable {j : Json} {v : Value} {key : String} {members rest : List (String × Json)} {fields : List (String × Value)}
  {e : DecodeError}

/-! ### What is decoded -/

private theorem keys_of_ofMembers (h : ofMembers members = .ok fields) :
    fields.map Prod.fst = members.map Prod.fst := by
  induction members generalizing fields with
  | nil =>
    obtain rfl := Except.ok.inj h
    rfl
  | cons m rest ih =>
    obtain ⟨v, fields', -, hrest, rfl⟩ := ofMembers_cons_eq_ok h
    rw [List.map_cons, List.map_cons, ih hrest]

private theorem lookup_of_ofMembers (h : ofMembers members = .ok fields) (key : String) :
    Option.Rel (fun j v => ofJson j = .ok v) (members.lookup key) (fields.lookup key) := by
  induction members generalizing fields with
  | nil =>
    obtain rfl := Except.ok.inj h
    exact .none
  | cons m rest ih =>
    obtain ⟨v, fields', hv, hrest, rfl⟩ := ofMembers_cons_eq_ok h
    rw [Fields.lookup_cons, Fields.lookup_cons]
    by_cases hkey : key = m.1
    · rw [if_pos hkey, if_pos hkey]
      exact .some hv
    · rw [if_neg hkey, if_neg hkey]
      exact ih hrest

private theorem becomes_ofNumber (n : Json.Number) : (Json.number n).Becomes (ofNumber n) := by
  cases n with
  | integer n inRange =>
    rw [ofNumber]
    by_cases h : n < 9223372036854775808
    · rw [if_pos h]
      exact .integer inRange (Int64.toInt_ofInt_of_le inRange.1 h)
    · have hlarge : 9223372036854775808 ≤ n := Int.not_lt.1 h
      rw [if_neg h]
      exact .rounded inRange hlarge (isFinite_ofInt hlarge inRange.2)
  | float x isFinite => exact .float isFinite

private theorem becomes_of_ofJson (h : ofJson j = .ok v) : j.Becomes v := by
  cases j with
  | null =>
    obtain rfl := Except.ok.inj h
    exact .null
  | bool b =>
    obtain rfl := Except.ok.inj h
    exact .bool b
  | number n =>
    obtain rfl := Except.ok.inj h
    exact becomes_ofNumber n
  | string s =>
    obtain rfl := Except.ok.inj h
    exact .string s
  | array items => cases h
  | object members =>
    obtain ⟨fields, hfields, rfl⟩ := map_eq_ok h
    exact .object (keys_of_ofMembers hfields)

/-- Keys that lead somewhere in JSON lead to what it becomes in the value, and other keys lead nowhere in both. -/
theorem rel_of_ofJson (h : ofJson j = .ok v) (keys : List String) :
    Option.Rel Becomes (j.at? keys) (v.at? keys) := by
  induction keys generalizing j v with
  | nil =>
    rw [Json.at?_nil, at?_nil]
    exact .some (becomes_of_ofJson h)
  | cons key keys ih =>
    cases j with
    | object members =>
      obtain ⟨fields, hfields, rfl⟩ := map_eq_ok h
      have hrel := lookup_of_ofMembers hfields key
      rw [Json.at?_object_cons, at?_object_cons]
      generalize members.lookup key = member, fields.lookup key = field at hrel ⊢
      cases hrel with
      | none => exact .none
      | some hmember => exact ih hmember
    | array items => cases h
    | null | bool | number | string =>
      cases becomes_of_ofJson h
      all_goals exact .none

private theorem not_arrayAt_of_ofJson (h : ofJson j = .ok v) (keys : List String) : ¬j.ArrayAt keys := by
  rintro ⟨items, hitems⟩
  have hrel := rel_of_ofJson h keys
  rw [hitems] at hrel
  generalize v.at? keys = found at hrel
  cases hrel with
  | some hbecomes => cases hbecomes

/-! ### What is refused -/

mutual

/-- JSON that is refused has an array in it, and the key of the first one is in the error. -/
theorem firstArrayAt_of_ofJson {j : Json} (hj : j.WellFormed) (harray : ∀ items, j ≠ .array items)
    (h : ofJson j = .error e) : ∃ front key, j.FirstArrayAt (front ++ [key]) ∧ e = .unsupportedArray key := by
  match j with
  | .null => cases h
  | .bool b => cases h
  | .number n => cases h
  | .string s => cases h
  | .array items => exact absurd rfl (harray items)
  | .object members => exact firstArrayAt_of_ofMembers hj.1 hj.2 (map_eq_error h)

theorem firstArrayAt_of_ofMembers {members : List (String × Json)} (hsorted : Fields.Sorted members)
    (hmembers : Json.WellFormedMembers members) (h : ofMembers members = .error e) :
    ∃ front key, (Json.object members).FirstArrayAt (front ++ [key]) ∧ e = .unsupportedArray key := by
  match members with
  | [] => cases h
  | (key, j) :: rest =>
    by_cases harray : ∃ items, j = .array items
    · obtain ⟨items, rfl⟩ := harray
      obtain rfl := Except.error.inj h
      exact ⟨[], key, (Json.firstArrayAt_array items).head hsorted, rfl⟩
    · have hno : ∀ items, j ≠ .array items := fun items hitems => harray ⟨items, hitems⟩
      rw [ofMembers_cons hno] at h
      rcases bind_eq_error h with hj | ⟨v, hv, hthen⟩
      · obtain ⟨front, last, hfirst, rfl⟩ := firstArrayAt_of_ofJson hmembers.1 hno hj
        exact ⟨key :: front, last, hfirst.head hsorted, rfl⟩
      · rcases bind_eq_error hthen with hrest | ⟨fields, -, hlast⟩
        · obtain ⟨front, last, hfirst, rfl⟩ :=
            firstArrayAt_of_ofMembers (List.pairwise_cons.1 hsorted).2 hmembers.2 hrest
          exact ⟨front, last, hfirst.tail hsorted (not_arrayAt_of_ofJson hv), rfl⟩
        · cases hlast

end

end Value

namespace Document

variable {j : Json}

private theorem ofJson_eq_notAnObject (h : ∀ members, j ≠ .object members) :
    ofJson j = .error (.notAnObject j.kind) := by
  cases j with
  | object members => exact absurd rfl (h members)
  | null | bool | number | string | array => rfl

private theorem exists_members_of_ofJson {doc : Document} (h : ofJson j = .ok doc) :
    ∃ members, j = .object members := by
  cases j with
  | object members => exact ⟨members, rfl⟩
  | null | bool | number | string | array => cases h

private theorem ofJson_eq_unsupportedArray {members : List (String × Json)} (hj : (Json.object members).WellFormed)
    (hsome : ∃ keys, (Json.object members).ArrayAt keys) :
    ∃ front key, (Json.object members).FirstArrayAt (front ++ [key]) ∧
      ofJson (.object members) = .error (.unsupportedArray key) := by
  cases h : ofJson (.object members) with
  | ok doc =>
    obtain ⟨keys, hkeys⟩ := hsome
    exact absurd hkeys (Value.not_arrayAt_of_ofJson (value_of_ofJson h) keys)
  | error e =>
    obtain ⟨front, key, hfirst, rfl⟩ := Value.firstArrayAt_of_ofMembers hj.1 hj.2 h
    exact ⟨front, key, hfirst, rfl⟩

private theorem exists_ofJson {members : List (String × Json)} (hj : (Json.object members).WellFormed)
    (hnone : ∀ keys, ¬(Json.object members).ArrayAt keys) : ∃ doc, ofJson (.object members) = .ok doc := by
  cases h : ofJson (.object members) with
  | ok doc => exact ⟨doc, rfl⟩
  | error e =>
    obtain ⟨front, key, hfirst, -⟩ := Value.firstArrayAt_of_ofMembers hj.1 hj.2 h
    exact absurd hfirst.1 (hnone _)

/-- JSON is decoded to a document if and only if it is an object without arrays, and the document has the same keys at
every level, with what becomes of the JSON value at each of them.  If it is no object, its kind is reported; if there
are arrays in it, the key of the member that is the first one. -/
theorem ofJson_cases (hj : j.WellFormed) :
    ((∃ doc, ofJson j = .ok doc) ↔ (∃ members, j = .object members) ∧ ∀ keys, ¬j.ArrayAt keys) ∧
      (∀ doc, ofJson j = .ok doc →
        ∀ keys, Option.Rel Json.Becomes (j.at? keys) ((Value.object doc).at? keys)) ∧
      ((∀ members, j ≠ .object members) → ofJson j = .error (.notAnObject j.kind)) ∧
      ((∃ members, j = .object members) → (∃ keys, j.ArrayAt keys) →
        ∃ front key, j.FirstArrayAt (front ++ [key]) ∧ ofJson j = .error (.unsupportedArray key)) := by
  refine ⟨⟨?_, ?_⟩, ?_, ofJson_eq_notAnObject, ?_⟩
  · rintro ⟨doc, hdoc⟩
    exact ⟨exists_members_of_ofJson hdoc, Value.not_arrayAt_of_ofJson (value_of_ofJson hdoc)⟩
  · rintro ⟨⟨members, rfl⟩, hnone⟩
    exact exists_ofJson hj hnone
  · exact fun doc hdoc => Value.rel_of_ofJson (value_of_ofJson hdoc)
  · rintro ⟨members, rfl⟩ hsome
    exact ofJson_eq_unsupportedArray hj hsome

private def nestedArrays : Json :=
  .object [("a", .object [("b", .null), ("c", .array [])]), ("b", .array [])]

theorem ofJson_cases_nested :
    nestedArrays.WellFormed ∧ ∃ front key, nestedArrays.FirstArrayAt (front ++ [key]) ∧
      ofJson nestedArrays = .error (.unsupportedArray key) := by
  have hinner : Fields.Sorted [("b", Json.null), ("c", .array [])] := by
    unfold Fields.Sorted
    decide
  have houter : Fields.Sorted [("a", Json.object [("b", .null), ("c", .array [])]), ("b", .array [])] := by
    unfold Fields.Sorted
    decide
  have hj : nestedArrays.WellFormed := ⟨houter, ⟨hinner, trivial, trivial, trivial⟩, trivial, trivial⟩
  exact ⟨hj, (ofJson_cases hj).2.2.2 ⟨_, rfl⟩ ⟨["b"], [], rfl⟩⟩

private def topLevelMember : Json :=
  .object [("(top level)", .array []), ("x", .array [])]

/-- The words for an array that is in no object are reported for the member that has them for its key, too. -/
theorem ofJson_topLevel_key :
    topLevelMember.WellFormed ∧ ofJson topLevelMember = .error (.unsupportedArray "(top level)") := by
  have hsorted : Fields.Sorted [("(top level)", Json.array []), ("x", .array [])] := by
    unfold Fields.Sorted
    decide
  exact ⟨⟨hsorted, trivial, trivial, trivial⟩, rfl⟩

end Document

end DocFilter
