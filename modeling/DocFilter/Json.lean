import DocFilter.Fields

/-!
# JSON values

Numbers are whole numbers of 64 bits, signed or not, or finite binary64 numbers; other numbers have no place in the
type.  The members of an object are in the order of their keys.
-/

namespace DocFilter
namespace Json

/-- Whole numbers that 64 bits hold, with or without a sign: from `-2 ^ 63` to below `2 ^ 64`. -/
def InRange (n : Int) : Prop :=
  -9223372036854775808 ≤ n ∧ n < 18446744073709551616

instance (n : Int) : Decidable (InRange n) :=
  inferInstanceAs (Decidable (_ ∧ _))

inductive Number where
  | integer (value : Int) (inRange : InRange value)
  | float (value : Float) (isFinite : value.isFinite)
  deriving DecidableEq

end Json

inductive Json where
  | null
  | bool (value : Bool)
  | number (value : Json.Number)
  | string (value : String)
  | array (items : List Json)
  | object (members : List (String × Json))

namespace Json

/-- What a JSON value is. -/
inductive Kind where
  | null
  | boolean
  | number
  | string
  | array
  | object
  deriving DecidableEq, Repr

def Kind.name : Kind → String
  | null => "null"
  | boolean => "boolean"
  | number => "number"
  | string => "string"
  | array => "array"
  | object => "object"

def kind : Json → Kind
  | null => .null
  | bool _ => .boolean
  | number _ => .number
  | string _ => .string
  | array _ => .array
  | object _ => .object

/-- A whole number of 64 signed bits. -/
def ofInt64 (n : Int64) : Json :=
  number (.integer n.toInt (by
    have := Int64.le_toInt n
    have := Int64.toInt_lt n
    constructor <;> omega))

/-- A float, or null if it is not finite. -/
def ofFloat (x : Float) : Json :=
  if h : x.isFinite then number (.float x h) else null

/-- The member of an object with the given key. -/
def member? (key : String) : Json → Option Json
  | object members => members.lookup key
  | _ => none

mutual

/-- All objects inside the value have their keys in order. -/
def WellFormed : Json → Prop
  | array items => WellFormedItems items
  | object members => Fields.Sorted members ∧ WellFormedMembers members
  | _ => True

/-- All items are well formed. -/
def WellFormedItems : List Json → Prop
  | [] => True
  | item :: rest => WellFormed item ∧ WellFormedItems rest

/-- The values of all members are well formed. -/
def WellFormedMembers : List (String × Json) → Prop
  | [] => True
  | (_, j) :: rest => WellFormed j ∧ WellFormedMembers rest

end

end Json
end DocFilter
