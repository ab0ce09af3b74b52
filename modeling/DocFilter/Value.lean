import DocFilter.Fields

/-!
# Values and documents

A document is a set of fields whose values may be documents again; there are no arrays in it.  Whole numbers of 64
bits and binary64 numbers are kept apart as stored, and meet only where they are compared or computed with.

`Value.beq` is equality as stored, `Value.looseEq` the equality of the filter language: numbers by value, all else as
stored.
-/

namespace DocFilter

inductive Value where
  | null
  | bool (value : Bool)
  | integer (value : Int64)
  | float (value : Float)
  | string (value : String)
  | object (fields : List (String × Value))

/-- Keys and their values. -/
abbrev Document :=
  Fields Value

namespace Value

/-- What a value is. -/
inductive Kind where
  | null
  | boolean
  | integer
  | float
  | string
  | object
  deriving DecidableEq, Repr

def Kind.name : Kind → String
  | null => "null"
  | boolean => "boolean"
  | integer => "integer"
  | float => "float"
  | string => "string"
  | object => "object"

def kind : Value → Kind
  | null => .null
  | bool _ => .boolean
  | integer _ => .integer
  | float _ => .float
  | string _ => .string
  | object _ => .object

/-- The truth value of a boolean. -/
def asBool? : Value → Option Bool
  | bool b => some b
  | _ => none

/-- The number that a numeric value is; of a whole number, the nearest binary64 number. -/
def asFloat? : Value → Option Float
  | integer n => some (Float.ofInt n.toInt)
  | float x => some x
  | _ => none

/-- The document that an object is. -/
def asDocument? : Value → Option Document
  | object fields => some fields
  | _ => none

/-- The number that arithmetic and ordering see: zero for all that is not a number, booleans included. -/
def toNumber (v : Value) : Float :=
  v.asFloat?.getD 0.0

mutual

/-- Equality as stored: kinds are distinct, floats are equal by the rules of binary64, and objects are equal if they
have the same keys and equal values. -/
def beq : Value → Value → Bool
  | null, null => true
  | bool a, bool b => a == b
  | integer m, integer n => m == n
  | float x, float y => x == y
  | string s, string t => s == t
  | object fs, object gs => beqFields fs gs
  | _, _ => false

/-- Equality of the fields of two objects, key by key in order. -/
def beqFields : List (String × Value) → List (String × Value) → Bool
  | [], [] => true
  | (j, u) :: fs, (k, v) :: gs => j == k && beq u v && beqFields fs gs
  | _, _ => false

end

instance : BEq Value :=
  ⟨beq⟩

/-- Equality in the filter language: two numbers are equal if their binary64 values are, other values if they are
equal as stored. -/
def looseEq (u v : Value) : Bool :=
  match u.asFloat?, v.asFloat? with
  | some x, some y => x == y
  | _, _ => u == v

end Value

end DocFilter
