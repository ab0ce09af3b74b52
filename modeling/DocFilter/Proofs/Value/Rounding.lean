import DocFilter.Proofs.Value.Roundtrip

/-!
# JSON through values

What JSON becomes when it is read as a value and written again: whole numbers beyond 64 signed bits are rounded to
floats, everything else comes back (`Value.toJson_of_ofJson`).  Nothing but an array keeps JSON from being a value
(`Value.exists_ofJson`).
-/

namespace DocFilter
namespace Json

/-- The number as floats and whole numbers of 64 signed bits have it: a larger one is the nearest float. -/
def Number.rounded : Number → Number
  | integer n inRange =>
    if h : n < 9223372036854775808 then integer n inRange
    else float (Float.ofInt n) (isFinite_ofInt (Int.not_lt.1 h) inRange.2)
  | float x isFinite => float x isFinite

mutual

/-- The same JSON with all its numbers rounded. -/
def rounded : Json → Json
  | number n => number n.rounded
  | array items => array (roundedItems items)
  | object members => object (roundedMembers members)
  | j => j

def roundedItems : List Json → List Json
  | [] => []
  | item :: rest => rounded item :: roundedItems rest

def roundedMembers : List (String × Json) → List (String × Json)
  | [] => []
  | (key, j) :: rest => (key, rounded j) :: roundedMembers rest

end

mutual

/-- There is no array in the value, nor is it one. -/
def ArrayFree : Json → Prop
  | array _ => False
  | object members => ArrayFreeMembers members
  | _ => True

def ArrayFreeMembers : List (String × Json) → Prop
  | [] => True
  | (_, j) :: rest => ArrayFree j ∧ ArrayFreeMembers rest

end

theorem ArrayFree.ne_array {j : Json} (h : j.ArrayFree) (items : List Json) : j ≠ array items := by
  rintro rfl
  rw [ArrayFree] at h
  exact h

end Json

namespace Value

private theorem toJson_ofNumber (n : Json.Number) : (ofNumber n).toJson = .number n.rounded := by
  cases n with
  | integer n inRange =>
    rw [ofNumber, Json.Number.rounded]
    by_cases h : n < 9223372036854775808
    · have hsame : (Int64.ofInt n).toInt = n := Int64.toInt_ofInt_of_le inRange.1 h
      rw [if_pos h, dif_pos h, toJson, Json.ofInt64]
      simp only [hsame]
    · have hfinite : (Float.ofInt n).isFinite := isFinite_ofInt (Int.not_lt.1 h) inRange.2
      rw [if_neg h, dif_neg h, toJson, Json.ofFloat, dif_pos hfinite]
  | float x isFinite => rw [ofNumber, Json.Number.rounded, toJson, Json.ofFloat, dif_pos isFinite]

mutual

/-- JSON that is read as a value has no arrays, and the value is written as the same JSON, rounded. -/
theorem toJson_of_ofJson {j : Json} {v : Value} (h : ofJson j = .ok v) : j.ArrayFree ∧ v.toJson = j.rounded := by
  match j with
  | .null =>
    obtain rfl := Except.ok.inj h
    exact ⟨trivial, rfl⟩
  | .bool b =>
    obtain rfl := Except.ok.inj h
    exact ⟨trivial, rfl⟩
  | .number n =>
    obtain rfl := Except.ok.inj h
    exact ⟨trivial, toJson_ofNumber n⟩
  | .string s =>
    obtain rfl := Except.ok.inj h
    exact ⟨trivial, rfl⟩
  | .array items => cases h
  | .object members =>
    obtain ⟨fields, hfields, rfl⟩ := map_eq_ok h
    obtain ⟨hfree, hmembers⟩ := toMembers_of_ofMembers hfields
    rw [toJson, hmembers, Json.rounded]
    exact ⟨hfree, rfl⟩

theorem toMembers_of_ofMembers {members : List (String × Json)} {fields : List (String × Value)}
    (h : ofMembers members = .ok fields) :
    Json.ArrayFreeMembers members ∧ toMembers fields = Json.roundedMembers members := by
  match members with
  | [] =>
    obtain rfl := Except.ok.inj h
    exact ⟨trivial, rfl⟩
  | (key, j) :: rest =>
    obtain ⟨v, fields', hv, hfields, rfl⟩ := ofMembers_cons_eq_ok h
    obtain ⟨hfree, hvalue⟩ := toJson_of_ofJson hv
    obtain ⟨hfree', hmembers⟩ := toMembers_of_ofMembers hfields
    rw [toMembers, hvalue, hmembers, Json.roundedMembers]
    exact ⟨⟨hfree, hfree'⟩, rfl⟩

end

mutual

/-- JSON without arrays is a value. -/
theorem exists_ofJson {j : Json} (h : j.ArrayFree) : ∃ v, ofJson j = .ok v := by
  match j with
  | .null => exact ⟨_, rfl⟩
  | .bool b => exact ⟨_, rfl⟩
  | .number n => exact ⟨_, rfl⟩
  | .string s => exact ⟨_, rfl⟩
  | .array items => exact absurd rfl (h.ne_array items)
  | .object members =>
    obtain ⟨fields, hfields⟩ := exists_ofMembers h
    rw [ofJson, hfields]
    exact ⟨_, rfl⟩

theorem exists_ofMembers {members : List (String × Json)} (h : Json.ArrayFreeMembers members) :
    ∃ fields, ofMembers members = .ok fields := by
  match members with
  | [] => exact ⟨[], rfl⟩
  | (key, j) :: rest =>
    obtain ⟨hj, hrest⟩ := h
    obtain ⟨v, hv⟩ := exists_ofJson hj
    obtain ⟨fields, hfields⟩ := exists_ofMembers hrest
    rw [ofMembers_cons hj.ne_array, hv, hfields]
    exact ⟨_, rfl⟩

end

/-- A value that is written and read comes back with null in the place of the floats that are not finite.  JSON that
is read and written comes back with its numbers rounded, if there is no array in it; otherwise it is no value. -/
theorem json_cycle (v : Value) (j : Json) :
    ofJson v.toJson = .ok v.representable ∧ (j.ArrayFree ↔ ∃ w, ofJson j = .ok w ∧ w.toJson = j.rounded) := by
  refine ⟨ofJson_toJson v, ?_⟩
  constructor
  · intro h
    obtain ⟨w, hw⟩ := exists_ofJson h
    exact ⟨w, hw, (toJson_of_ofJson hw).2⟩
  · rintro ⟨w, hw, -⟩
    exact (toJson_of_ofJson hw).1

end Value

/-- A document is written as the JSON that it was decoded from, rounded. -/
theorem Document.toJson_of_ofJson {j : Json} {doc : Document} (h : Document.ofJson j = .ok doc) :
    doc.toJson = j.rounded :=
  (Value.toJson_of_ofJson (value_of_ofJson h)).2

end DocFilter
