import DocFilter.Value

/-!
# Values from native data

How numbers of any width, texts, documents and optional data are stored.  A whole number is stored as such if 64
signed bits hold it; only large unsigned numbers do not fit and become floats.
-/

namespace DocFilter

/-- Data that can be stored in a document. -/
class ToValue (α : Type) where
  toValue : α → Value

export ToValue (toValue)

/-- A whole number of at least zero, as a float from `2 ^ 63` on. -/
def Value.ofNat (n : Nat) : Value :=
  if n < 9223372036854775808 then .integer (Int64.ofNat n) else .float (Float.ofNat n)

instance : ToValue Value where
  toValue v := v

instance : ToValue Bool where
  toValue := .bool

instance : ToValue Int8 where
  toValue n := .integer n.toInt64

instance : ToValue Int16 where
  toValue n := .integer n.toInt64

instance : ToValue Int32 where
  toValue n := .integer n.toInt64

instance : ToValue Int64 where
  toValue n := .integer n

instance : ToValue UInt8 where
  toValue n := .ofNat n.toNat

instance : ToValue UInt16 where
  toValue n := .ofNat n.toNat

instance : ToValue UInt32 where
  toValue n := .ofNat n.toNat

instance : ToValue UInt64 where
  toValue n := .ofNat n.toNat

instance : ToValue Float32 where
  toValue x := .float x.toFloat

instance : ToValue Float where
  toValue := .float

instance : ToValue String where
  toValue := .string

instance : ToValue Document where
  toValue := .object

instance {α : Type} [ToValue α] : ToValue (Option α) where
  toValue
    | none => .null
    | some a => toValue a

end DocFilter
