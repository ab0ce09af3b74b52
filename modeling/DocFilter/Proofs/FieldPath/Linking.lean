import DocFilter.FieldPath

/-!
# Linked paths

A path as links.  It is put together from its last key on, every other key in front of what is there already; it is
read from its first key on, one link after the other; and it is written while it is read.  What is put together from
keys is their chain (`linked_eq_chain`), reading a path gives its keys in order and then no more (`yields_iff`), and
what is written is the keys joined by dots (`written_eq_display`).
-/

namespace DocFilter
namespace FieldPath

/-! ### Putting together -/

/-- The path of a key and of what comes behind it, if anything does. -/
def link (key : String) : Option FieldPath → FieldPath
  | none => last key
  | some rest => step key rest

/-- What comes behind the first key, if anything does. -/
def behind? : FieldPath → Option FieldPath
  | last _ => none
  | step _ rest => some rest

/-- Links the later keys from the last one on, and then the first key in front of them. -/
def linked (first : String) (rest : List String) : FieldPath :=
  link first (rest.reverse.foldl (fun behind key => some (link key behind)) none)

private theorem linked_cons (first second : String) (rest : List String) :
    linked first (second :: rest) = step first (linked second rest) := by
  unfold linked
  rw [List.reverse_cons, List.foldl_append]
  rfl

/-- What is put together from the end is the chain of the keys. -/
theorem linked_eq_chain (first : String) (rest : List String) : linked first rest = chain first rest := by
  induction rest generalizing first with
  | nil => rfl
  | cons second rest ih => rw [linked_cons, chain, ih second]

/-! ### Reading -/

/-- A walk along a path, with what is ahead of it. -/
structure Walk where
  ahead? : Option FieldPath
  deriving DecidableEq, Repr

/-- A walk along a whole path. -/
def walk (path : FieldPath) : Walk :=
  ⟨some path⟩

namespace Walk

/-- The next key, and the walk behind it. -/
def next? (w : Walk) : Option (String × Walk) :=
  match w.ahead? with
  | none => none
  | some path => some (path.first, ⟨path.behind?⟩)

/-- The walk gives the keys one after the other and then no more. -/
inductive Yields : Walk → List String → Prop where
  | done {w : Walk} (h : w.next? = none) : Yields w []
  | more {w rest : Walk} {key : String} {keys : List String} (h : w.next? = some (key, rest))
      (hrest : Yields rest keys) : Yields w (key :: keys)

/-- A walk gives its keys once, in one order. -/
theorem Yields.unique {w : Walk} {keys keys' : List String} (h : w.Yields keys) (h' : w.Yields keys') :
    keys = keys' := by
  induction h generalizing keys' with
  | done hdone =>
    cases h' with
    | done => rfl
    | more hmore => simp [hdone] at hmore
  | more hmore _ ih =>
    cases h' with
    | done hdone => simp [hdone] at hmore
    | more hmore' hrest' =>
      have hsame := hmore.symm.trans hmore'
      obtain ⟨rfl, rfl⟩ := Prod.mk.inj (Option.some.inj hsame)
      rw [ih hrest']

end Walk

private theorem yields_segments (path : FieldPath) : path.walk.Yields path.segments := by
  induction path with
  | last key =>
    have hend : Walk.Yields ⟨none⟩ [] := .done rfl
    exact .more rfl hend
  | step key rest ih => exact .more rfl ih

/-- Reading a path gives its keys, all of them, in order and nothing else. -/
theorem yields_iff {path : FieldPath} {keys : List String} : path.walk.Yields keys ↔ keys = path.segments := by
  constructor
  · intro h
    exact h.unique (yields_segments path)
  · intro h
    rw [h]
    exact yields_segments path

/-! ### Writing -/

/-- Writes a key with its index behind a text: a dot comes first, unless it is the first key. -/
def write (text : String) (key : String × Nat) : String :=
  (if 0 < key.2 then text ++ "." else text) ++ key.1

/-- The keys as they are written one after the other. -/
def written (path : FieldPath) : String :=
  path.segments.zipIdx.foldl write ""

/-- Behind a key that is written, all further keys come behind dots. -/
private theorem foldl_write (text key : String) (keys : List String) (index : Nat) :
    (keys.zipIdx (index + 1)).foldl write (text ++ key) = text ++ ".".intercalate (key :: keys) := by
  induction keys generalizing text key index with
  | nil => rw [String.intercalate_singleton, List.zipIdx_nil, List.foldl_nil]
  | cons second keys ih =>
    have hsecond : write (text ++ key) (second, index + 1) = text ++ key ++ "." ++ second := by
      rw [write, if_pos (Nat.succ_pos index)]
    rw [List.zipIdx_cons, List.foldl_cons, hsecond, ih (text ++ key ++ ".") second (index + 1),
      String.intercalate_cons_cons]
    simp only [String.append_assoc]

/-- What is written is the path as it is displayed. -/
theorem written_eq_display (path : FieldPath) : path.written = path.display := by
  have hfirst : write "" (path.first, 0) = "" ++ path.first := by
    rw [write, if_neg (Nat.lt_irrefl 0)]
  have hlater := foldl_write "" path.first path.later 0
  unfold written segments
  rw [List.zipIdx_cons, List.foldl_cons, hfirst, hlater, String.empty_append]
  rfl

end FieldPath

end DocFilter
