import DocFilter.Proofs.Success
import DocFilter.Proofs.Value.Finite
import DocFilter.Value.Json

/-!
# Values through JSON

What a value becomes when it is written as JSON and read again: floats that are not finite are lost, everything else
comes back (`Value.ofJson_toJson`).  A value that was read from JSON has no such floats, so a document that was decoded
once is decoded to itself ever after (`Document.ofJson_toJson`).
-/

namespace DocFilter
namespace Value

mutual

/-- The value with null in the place of all floats that are not finite, for which JSON has no numbers. -/
def representable : Value → Value
  | float x => if x.isFinite then float x else null
  | object fields => object (representableFields fields)
  | v => v

def representableFields : List (String × Value) → List (String × Value)
  | [] => []
  | (key, v) :: rest => (key, representable v) :: representableFields rest

end

private theorem toJson_ne_array (v : Value) (items : List Json) : v.toJson ≠ .array items := by
  cases v with
  | float x =>
    rw [toJson, Json.ofFloat]
    split
    · exact Json.noConfusion
    · exact Json.noConfusion
  | null | bool | integer | string | object => exact Json.noConfusion

/-- A member that is no array is read as a value. -/
theorem ofMembers_cons {j : Json} (h : ∀ items, j ≠ .array items) (key : String) (rest : List (String × Json)) :
    ofMembers ((key, j) :: rest) = do
      let v ← ofJson j
      let fields ← ofMembers rest
      return (key, v) :: fields := by
  cases j with
  | array items => exact absurd rfl (h items)
  | null | bool | number | string | object => rfl

/-- What has been read from an object: the first member, and then the others. -/
theorem ofMembers_cons_eq_ok {key : String} {j : Json} {rest : List (String × Json)} {fields : List (String × Value)}
    (h : ofMembers ((key, j) :: rest) = .ok fields) :
    ∃ v fields', ofJson j = .ok v ∧ ofMembers rest = .ok fields' ∧ fields = (key, v) :: fields' := by
  have hj : ∀ items, j ≠ .array items := by
    rintro items rfl
    cases h
  rw [ofMembers_cons hj] at h
  obtain ⟨v, hv, hthen⟩ := bind_eq_ok h
  obtain ⟨fields', hfields, hlast⟩ := bind_eq_ok hthen
  exact ⟨v, fields', hv, hfields, (Except.ok.inj hlast).symm⟩

mutual

/-- A value that is written as JSON is read as what of it can be represented. -/
theorem ofJson_toJson (v : Value) : ofJson v.toJson = .ok v.representable := by
  match v with
  | null => rfl
  | bool b => rfl
  | integer n =>
    have hlow : -9223372036854775808 ≤ n.toInt := Int64.le_toInt n
    have hsmall : n.toInt < 9223372036854775808 := Int64.toInt_lt n
    have hrange : Json.InRange n.toInt := ⟨hlow, by omega⟩
    have hnumber : ofNumber (.integer n.toInt hrange) = .integer n := by
      rw [ofNumber, if_pos hsmall, Int64.ofInt_toInt]
    exact congrArg Except.ok hnumber
  | float x =>
    rw [toJson, Json.ofFloat, representable]
    split
    · rfl
    · rfl
  | string s => rfl
  | object fields =>
    rw [toJson, ofJson, ofMembers_toMembers fields]
    rfl

theorem ofMembers_toMembers (fields : List (String × Value)) :
    ofMembers (toMembers fields) = .ok (representableFields fields) := by
  match fields with
  | [] => rfl
  | (key, v) :: rest =>
    rw [toMembers, ofMembers_cons v.toJson_ne_array, ofJson_toJson v, ofMembers_toMembers rest]
    rfl

end

/-- A number of JSON is a value that can be represented, also if it is a whole number beyond 64 signed bits. -/
private theorem representable_ofNumber (n : Json.Number) : (ofNumber n).representable = ofNumber n := by
  cases n with
  | integer n hrange =>
    rw [ofNumber]
    split
    · rfl
    · have hfinite : (Float.ofInt n).isFinite := isFinite_ofInt (by omega) hrange.2
      rw [representable, if_pos hfinite]
  | float x hfinite => rw [ofNumber, representable, if_pos hfinite]

mutual

/-- All of a value that was read from JSON can be represented. -/
theorem representable_of_ofJson {j : Json} {v : Value} (h : ofJson j = .ok v) : v.representable = v := by
  match j with
  | .null =>
    obtain rfl := Except.ok.inj h
    rfl
  | .bool b =>
    obtain rfl := Except.ok.inj h
    rfl
  | .number n =>
    obtain rfl := Except.ok.inj h
    exact representable_ofNumber n
  | .string s =>
    obtain rfl := Except.ok.inj h
    rfl
  | .array items => cases h
  | .object members =>
    obtain ⟨fields, hfields, rfl⟩ := map_eq_ok h
    rw [representable, representable_of_ofMembers hfields]

theorem representable_of_ofMembers {members : List (String × Json)} {fields : List (String × Value)}
    (h : ofMembers members = .ok fields) : representableFields fields = fields := by
  match members with
  | [] =>
    obtain rfl := Except.ok.inj h
    rfl
  | (key, j) :: rest =>
    obtain ⟨v, fields', hv, hfields, rfl⟩ := ofMembers_cons_eq_ok h
    rw [representableFields, representable_of_ofJson hv, representable_of_ofMembers hfields]

end

end Value

theorem Document.value_of_ofJson {j : Json} {doc : Document} (h : Document.ofJson j = .ok doc) :
    Value.ofJson j = .ok (.object doc) := by
  cases j with
  | object members => exact congrArg (Except.map Value.object) h
  | null | bool | number | string | array => cases h

/-- A document that was decoded comes back when it is written and decoded again. -/
theorem Document.ofJson_toJson {j : Json} {doc : Document} (h : Document.ofJson j = .ok doc) :
    Document.ofJson doc.toJson = .ok doc := by
  have hfields : Value.representableFields doc = doc := by
    cases j with
    | object members => exact Value.representable_of_ofMembers h
    | null | bool | number | string | array => cases h
  show Value.ofMembers (Value.toMembers doc) = .ok doc
  rw [Value.ofMembers_toMembers, hfields]

end DocFilter
