import DocFilter.Json.Reader
import DocFilter.Value

/-!
# Values and JSON

Every value is written as JSON; JSON is a value if no array is in it.  Whole numbers beyond 64 signed bits become
floats when they are read, and floats that are not finite become null when they are written.
-/

namespace DocFilter

/-- Why JSON is no document or no batch of documents. -/
inductive DecodeError where
  | malformed (error : Json.SyntaxError)
  | notAnObject (found : Json.Kind)
  | notAnArray (found : Json.Kind)
  | unsupportedArray (key : String)
  deriving DecidableEq, Repr

def DecodeError.message : DecodeError → String
  | malformed e => s!"Invalid JSON: {e.message}"
  | notAnObject found => s!"Expected a JSON object, got {found.name}"
  | notAnArray found => s!"Expected a JSON array of objects, got {found.name}"
  | unsupportedArray key => s!"Arrays are not supported inside documents (at key '{key}')"

namespace Value

/-- The value of a number; whole numbers from `2 ^ 63` on become floats. -/
def ofNumber : Json.Number → Value
  | .integer n _ => if n < 9223372036854775808 then .integer (Int64.ofInt n) else .float (Float.ofInt n)
  | .float x _ => .float x

mutual

/-- The value that JSON denotes. -/
def ofJson : Json → Except DecodeError Value
  | .null => .ok null
  | .bool b => .ok (bool b)
  | .number n => .ok (ofNumber n)
  | .string s => .ok (string s)
  | .array _ => .error (.unsupportedArray "(top level)")
  | .object members => (ofMembers members).map object

/-- The fields that the members of an object denote, visited in order.  An array is reported by its key. -/
def ofMembers : List (String × Json) → Except DecodeError (List (String × Value))
  | [] => .ok []
  | (key, .array _) :: _ => .error (.unsupportedArray key)
  | (key, j) :: rest => do
    let v ← ofJson j
    let fields ← ofMembers rest
    return (key, v) :: fields

end

mutual

/-- The JSON of a value. -/
def toJson : Value → Json
  | null => .null
  | bool b => .bool b
  | integer n => .ofInt64 n
  | float x => .ofFloat x
  | string s => .string s
  | object fields => .object (toMembers fields)

def toMembers : List (String × Value) → List (String × Json)
  | [] => []
  | (key, v) :: rest => (key, toJson v) :: toMembers rest

end

end Value

namespace Document

/-- The document that a JSON object denotes. -/
def ofJson : Json → Except DecodeError Document
  | .object members => Value.ofMembers members
  | j => .error (.notAnObject j.kind)

/-- The JSON of a document. -/
def toJson (doc : Document) : Json :=
  (Value.object doc).toJson

/-- Reads a document from a text. -/
def parse (text : String) : Except DecodeError Document := do
  let j ← (Json.parse text).mapError .malformed
  ofJson j

/-- Reads an array from a text; its items are not looked at. -/
def parseBatch (text : String) : Except DecodeError (List Json) := do
  match ← (Json.parse text).mapError .malformed with
  | .array items => return items
  | j => throw (.notAnArray j.kind)

end Document

end DocFilter
