/-!
# Field paths

A field path is a non-empty list of keys that leads from a document into the documents nested in it.  `chain` and
`segments` are inverse to each other (`segments_chain`, `chain_segments`), so a path is given by its keys
(`segments_inj`).
-/

namespace DocFilter

inductive FieldPath where
  | last (key : String)
  | step (key : String) (rest : FieldPath)
  deriving DecidableEq, Repr

namespace FieldPath

/-- The path of a first key and the keys that follow it. -/
def chain (first : String) : List String → FieldPath
  | [] => last first
  | second :: rest => step first (chain second rest)

/-- The first key of the path. -/
def first : FieldPath → String
  | last key => key
  | step key _ => key

/-- The keys behind the first one. -/
def later : FieldPath → List String
  | last _ => []
  | step _ rest => rest.first :: rest.later

/-- All keys in order. -/
def segments (path : FieldPath) : List String :=
  path.first :: path.later

/-- The keys joined by dots. -/
def display (path : FieldPath) : String :=
  ".".intercalate path.segments

@[simp] theorem segments_last (key : String) : (last key).segments = [key] := rfl

@[simp] theorem segments_step (key : String) (rest : FieldPath) :
    (step key rest).segments = key :: rest.segments := rfl

theorem segments_chain (first : String) (rest : List String) :
    (chain first rest).segments = first :: rest := by
  induction rest generalizing first with
  | nil => rfl
  | cons second rest ih => simp [chain, ih]

theorem chain_segments (path : FieldPath) : chain path.first path.later = path := by
  induction path with
  | last key => rfl
  | step key rest ih =>
    show step key (chain rest.first rest.later) = step key rest
    rw [ih]

theorem segments_inj {path other : FieldPath} : path.segments = other.segments ↔ path = other := by
  constructor
  · intro h
    obtain ⟨hfirst, hlater⟩ := List.cons.inj h
    rw [← chain_segments path, ← chain_segments other, hfirst, hlater]
  · intro h
    rw [h]

@[simp] theorem display_last (key : String) : (last key).display = key :=
  String.intercalate_singleton

@[simp] theorem display_step (key : String) (rest : FieldPath) :
    (step key rest).display = key ++ "." ++ rest.display :=
  String.intercalate_cons_cons

end FieldPath

end DocFilter
