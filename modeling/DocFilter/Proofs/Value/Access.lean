import DocFilter.Json
import DocFilter.Value

/-!
# Values inside of values

Where a list of keys leads: from an object to the value of its first key, from there to that of the second, and so on.
-/

namespace DocFilter

/-- The value that the keys lead to, each of them from one object to what is in it. -/
def Value.at? : Value → List String → Option Value
  | v, [] => some v
  | object fields, key :: rest => (fields.lookup key).bind fun v => v.at? rest
  | _, _ :: _ => none

/-- The JSON value that the keys lead to, each of them from one object to what is in it. -/
def Json.at? : Json → List String → Option Json
  | j, [] => some j
  | object members, key :: rest => (members.lookup key).bind fun j => j.at? rest
  | _, _ :: _ => none

/-- The keys lead from the document to an object. -/
def Document.ReachesObject (doc : Document) (keys : List String) : Prop :=
  ∃ inner, (Value.object doc).at? keys = some (.object inner)

namespace Value

@[simp] theorem at?_nil (v : Value) : v.at? [] = some v := by
  cases v <;> rfl

@[simp] theorem at?_object_cons (fields : List (String × Value)) (key : String) (keys : List String) :
    (object fields).at? (key :: keys) = (fields.lookup key).bind fun v => v.at? keys := rfl

end Value

namespace Json

@[simp] theorem at?_nil (j : Json) : j.at? [] = some j := by
  cases j <;> rfl

@[simp] theorem at?_object_cons (members : List (String × Json)) (key : String) (keys : List String) :
    (object members).at? (key :: keys) = (members.lookup key).bind fun j => j.at? keys := rfl

end Json

end DocFilter
