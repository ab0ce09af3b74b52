import DocFilter.Proofs.Value.NotANumber

/-!
# Equality of values

The equality of the filter language is no equivalence, for a float that is not a number equals nothing.  It is
symmetric and transitive, and a value equals itself exactly if there is no such float in it, at any depth
(`looseEq_partial_equivalence`).  At the top it compares numbers, below the top it is equality as stored: that is
symmetric and transitive by recursion on the values (`beq_comm`, `beq_trans`), and equal objects are those that have the
same keys with equal values (`beqFields_iff_lookup`).
-/

namespace DocFilter

open Float.Model (UnpackedFloat)

/-! ### Floats -/

/-- Equal floats are the same number, or two zeros. -/
private theorem eq_or_zero_of_unpacked_beq {u v : UnpackedFloat} (h : u.beq v) :
    (u = v ∧ u.isNaN = false) ∨ ∃ s s', u = .zero s ∧ v = .zero s' := by
  cases u with
  | notANumber => exact absurd h Bool.false_ne_true
  | zero s =>
    cases v with
    | zero s' => exact .inr ⟨s, s', rfl, rfl⟩
    | notANumber => exact absurd h Bool.false_ne_true
    | infinity s' | finite s' => cases s' <;> exact absurd h Bool.false_ne_true
  | infinity s =>
    cases v with
    | infinity s' =>
      cases s <;> cases s'
      · exact .inl ⟨rfl, rfl⟩
      · exact absurd h Bool.false_ne_true
      · exact absurd h Bool.false_ne_true
      · exact .inl ⟨rfl, rfl⟩
    | notANumber | zero | finite => cases s <;> exact absurd h Bool.false_ne_true
  | finite s mantissa exponent hpos =>
    cases v with
    | finite s' mantissa' exponent' hpos' =>
      -- of the same sign, they are equal if their exponents and significands are
      have hsame (horder : (compare exponent exponent').then (compare mantissa mantissa') = .eq) :
          exponent = exponent' ∧ mantissa = mantissa' := by
        obtain ⟨hexponent, hmantissa⟩ := Ordering.then_eq_eq.1 horder
        exact ⟨Std.compare_eq_iff_eq.1 hexponent, Std.compare_eq_iff_eq.1 hmantissa⟩
      cases s <;> cases s'
      · have horder := Option.some.inj (eq_of_beq h)
        obtain ⟨rfl, rfl⟩ := hsame (Ordering.swap_eq_eq.1 horder)
        exact .inl ⟨rfl, rfl⟩
      · exact absurd h Bool.false_ne_true
      · exact absurd h Bool.false_ne_true
      · have horder := Option.some.inj (eq_of_beq h)
        obtain ⟨rfl, rfl⟩ := hsame horder
        exact .inl ⟨rfl, rfl⟩
    | infinity s' => cases s <;> cases s' <;> exact absurd h Bool.false_ne_true
    | notANumber | zero => cases s <;> exact absurd h Bool.false_ne_true

private theorem unpacked_beq_iff {u v : UnpackedFloat} :
    u.beq v ↔ (u = v ∧ u.isNaN = false) ∨ ∃ s s', u = .zero s ∧ v = .zero s' := by
  constructor
  · exact eq_or_zero_of_unpacked_beq
  · rintro (⟨rfl, hnumber⟩ | ⟨s, s', rfl, rfl⟩)
    · rw [unpacked_beq_self, hnumber]
      rfl
    · rfl

theorem float_beq_symm {x y : Float} (h : x == y) : y == x := by
  refine unpacked_beq_iff.2 ?_
  rcases unpacked_beq_iff.1 h with ⟨hsame, hnumber⟩ | ⟨s, s', hx, hy⟩
  · exact .inl ⟨hsame.symm, hsame ▸ hnumber⟩
  · exact .inr ⟨s', s, hy, hx⟩

theorem float_beq_trans {x y z : Float} (h : x == y) (h' : y == z) : x == z := by
  refine unpacked_beq_iff.2 ?_
  rcases unpacked_beq_iff.1 h with ⟨hxy, hnumber⟩ | ⟨s, s', hx, hy⟩
  · rw [hxy] at hnumber ⊢
    exact unpacked_beq_iff.1 h'
  · rcases unpacked_beq_iff.1 h' with ⟨hyz, -⟩ | ⟨-, s'', -, hz⟩
    · exact .inr ⟨s, s', hx, hyz ▸ hy⟩
    · exact .inr ⟨s, s'', hx, hz⟩

namespace Value

variable {fs gs hs : List (String × Value)}

/-! ### Equality as stored -/

/-- Objects are compared key by key and value by value. -/
theorem beqFields_cons {j k : String} {u v : Value} :
    beqFields ((j, u) :: fs) ((k, v) :: gs) ↔ j = k ∧ u.beq v ∧ beqFields fs gs := by
  simp [beqFields, and_assoc]

mutual

theorem beq_symm {u v : Value} (h : u.beq v) : v.beq u := by
  match u, v with
  | null, null => rfl
  | bool a, bool b =>
    have hsame : a = b := by simpa [beq] using h
    simp [beq, hsame]
  | integer m, integer n =>
    have hsame : m = n := by simpa [beq] using h
    simp [beq, hsame]
  | float x, float y => exact float_beq_symm h
  | string s, string t =>
    have hsame : s = t := by simpa [beq] using h
    simp [beq, hsame]
  | object fs, object gs => exact beqFields_symm h

theorem beqFields_symm {fs gs : List (String × Value)} (h : beqFields fs gs) : beqFields gs fs := by
  match fs, gs with
  | [], [] => rfl
  | (j, u) :: fs, (k, v) :: gs =>
    obtain ⟨hkey, hvalue, hrest⟩ := beqFields_cons.1 h
    exact beqFields_cons.2 ⟨hkey.symm, beq_symm hvalue, beqFields_symm hrest⟩

end

mutual

theorem beq_trans {u v w : Value} (h : u.beq v) (h' : v.beq w) : u.beq w := by
  match u, v, w with
  | null, null, null => rfl
  | bool a, bool b, bool c =>
    have hleft : a = b := by simpa [beq] using h
    have hright : b = c := by simpa [beq] using h'
    simp [beq, hleft, hright]
  | integer m, integer n, integer k =>
    have hleft : m = n := by simpa [beq] using h
    have hright : n = k := by simpa [beq] using h'
    simp [beq, hleft, hright]
  | float x, float y, float z => exact float_beq_trans h h'
  | string s, string t, string r =>
    have hleft : s = t := by simpa [beq] using h
    have hright : t = r := by simpa [beq] using h'
    simp [beq, hleft, hright]
  | object fs, object gs, object hs => exact beqFields_trans h h'

theorem beqFields_trans {fs gs hs : List (String × Value)} (h : beqFields fs gs) (h' : beqFields gs hs) :
    beqFields fs hs := by
  match fs, gs, hs with
  | [], [], [] => rfl
  | (i, u) :: fs, (j, v) :: gs, (k, w) :: hs =>
    obtain ⟨hkey, hvalue, hrest⟩ := beqFields_cons.1 h
    obtain ⟨hkey', hvalue', hrest'⟩ := beqFields_cons.1 h'
    exact beqFields_cons.2 ⟨hkey.trans hkey', beq_trans hvalue hvalue', beqFields_trans hrest hrest'⟩

end

/-- A float that is not a number is in the value, at any depth, or it is one. -/
inductive HasNaN : Value → Prop where
  | float {x : Float} (h : x.isNaN) : HasNaN (float x)
  | field {fields : List (String × Value)} {key : String} {v : Value} (hmem : (key, v) ∈ fields) (h : HasNaN v) :
    HasNaN (object fields)

private theorem hasNaN_float {x : Float} : (float x).HasNaN ↔ x.isNaN := by
  constructor
  · intro h
    cases h with
    | float h => exact h
  · exact .float

private theorem hasNaN_object {fields : List (String × Value)} :
    (object fields).HasNaN ↔ ∃ p ∈ fields, p.2.HasNaN := by
  constructor
  · intro h
    cases h with
    | field hmem h => exact ⟨_, hmem, h⟩
  · rintro ⟨p, hmem, h⟩
    exact .field hmem h

mutual

theorem beq_self_iff (v : Value) : v.beq v ↔ ¬v.HasNaN := by
  match v with
  | null => exact ⟨fun _ => nofun, fun _ => rfl⟩
  | bool b => simpa [beq] using fun h : (bool b).HasNaN => nomatch h
  | integer n => simpa [beq] using fun h : (integer n).HasNaN => nomatch h
  | float x =>
    have hself : (float x).beq (float x) = !x.isNaN := beq_self_eq_not_isNaN x
    simp [hself, hasNaN_float]
  | string s => simpa [beq] using fun h : (string s).HasNaN => nomatch h
  | object fields =>
    have hfields := beqFields_self_iff fields
    simpa [beq, hasNaN_object] using hfields

theorem beqFields_self_iff (fields : List (String × Value)) :
    beqFields fields fields ↔ ∀ p ∈ fields, ¬p.2.HasNaN := by
  match fields with
  | [] => simp [beqFields]
  | (key, v) :: rest =>
    have hvalue := beq_self_iff v
    have hrest := beqFields_self_iff rest
    simp [beqFields_cons, hvalue, hrest]

end

/-! ### Objects -/

private theorem lookup_of_lt {key : String} {fields : List (String × Value)} (h : ∀ p ∈ fields, key < p.1) :
    fields.lookup key = none := by
  rw [List.lookup_eq_none_iff]
  intro p hp
  have hne : key ≠ p.1 := fun heq => String.lt_irrefl p.1 (heq ▸ h p hp)
  simpa using hne

/-- The first keys of two objects are the same if each of them is a key of both. -/
private theorem head_eq_of_lookup {p q : String × Value} (hfs : Fields.Sorted (p :: fs)) (hgs : Fields.Sorted (q :: gs))
    (hp : (q :: gs).lookup p.1 ≠ none) (hq : (p :: fs).lookup q.1 ≠ none) : p.1 = q.1 := by
  have hnot {j : String} {r : String × Value} {hs : List (String × Value)} (hsorted : Fields.Sorted (r :: hs))
      (hlookup : (r :: hs).lookup j ≠ none) : ¬j < r.1 := by
    intro hlt
    refine hlookup (lookup_of_lt fun s hs => ?_)
    rcases List.mem_cons.1 hs with rfl | hs
    · exact hlt
    · exact String.lt_trans hlt ((List.pairwise_cons.1 hsorted).1 s hs)
  rcases Std.lt_trichotomy p.1 q.1 with hlt | heq | hlt
  · exact absurd hlt (hnot hgs hp)
  · exact heq
  · exact absurd hlt (hnot hfs hq)

/-- Objects with their keys in order are equal as stored if each key has equal values in both, or none in either. -/
theorem beqFields_iff_lookup (hfs : Fields.Sorted fs) (hgs : Fields.Sorted gs) :
    beqFields fs gs ↔ ∀ key, Option.Rel (fun u v : Value => u == v) (fs.lookup key) (gs.lookup key) := by
  induction fs generalizing gs with
  | nil =>
    cases gs with
    | nil => exact ⟨fun _ _ => .none, fun _ => rfl⟩
    | cons q gs =>
      refine ⟨nofun, fun h => ?_⟩
      have hkey := h q.1
      rw [Fields.lookup_cons, if_pos rfl] at hkey
      cases hkey
  | cons p fs ih =>
    cases gs with
    | nil =>
      refine ⟨nofun, fun h => ?_⟩
      have hkey := h p.1
      rw [Fields.lookup_cons, if_pos rfl] at hkey
      cases hkey
    | cons q gs =>
      have hrest := ih (List.pairwise_cons.1 hfs).2 (List.pairwise_cons.1 hgs).2
      have hfirst : fs.lookup p.1 = none := lookup_of_lt (List.pairwise_cons.1 hfs).1
      have hfirst' : gs.lookup q.1 = none := lookup_of_lt (List.pairwise_cons.1 hgs).1
      constructor
      · intro h key
        obtain ⟨hkey, hvalue, hfields⟩ := beqFields_cons.1 h
        rw [Fields.lookup_cons, Fields.lookup_cons, hkey]
        split
        · exact .some hvalue
        · exact hrest.1 hfields key
      · intro h
        have hp := h p.1
        have hq := h q.1
        rw [Fields.lookup_cons p.1 p, if_pos rfl] at hp
        rw [Fields.lookup_cons q.1 q, if_pos rfl] at hq
        have hkey : p.1 = q.1 := by
          refine head_eq_of_lookup hfs hgs (fun hnone => ?_) fun hnone => ?_
          · rw [hnone] at hp
            cases hp
          · rw [hnone] at hq
            cases hq
        refine beqFields_cons.2 ⟨hkey, ?_, hrest.2 fun key => ?_⟩
        · rw [hkey, Fields.lookup_cons, if_pos rfl] at hp
          cases hp with
          | some hvalue => exact hvalue
        · by_cases hk : key = p.1
          · rw [hk, hfirst, hkey, hfirst']
            exact .none
          · have hother := h key
            rwa [Fields.lookup_cons, if_neg hk, Fields.lookup_cons, if_neg (hkey ▸ hk)] at hother

/-! ### Equality in the filter language -/

/-- Two values are equal if both are numbers with the same value, or none is a number and they are equal as stored. -/
theorem looseEq_iff {u v : Value} :
    u.looseEq v ↔ (∃ x y, u.asFloat? = some x ∧ v.asFloat? = some y ∧ x == y) ∨
      (u.asFloat? = none ∧ v.asFloat? = none ∧ u.beq v) := by
  cases u with
  | integer | float =>
    cases v with
    | integer | float => simp [looseEq, asFloat?]
    | null | bool | string | object => simp [looseEq, asFloat?, BEq.beq, beq]
  | null | bool | string | object =>
    cases v with
    | integer | float => simp [looseEq, asFloat?, BEq.beq, beq]
    | null | bool | string | object => simp [looseEq, asFloat?, BEq.beq]

theorem looseEq_symm {u v : Value} (h : u.looseEq v) : v.looseEq u := by
  rcases looseEq_iff.1 h with ⟨x, y, hx, hy, hxy⟩ | ⟨hu, hv, huv⟩
  · exact looseEq_iff.2 (.inl ⟨y, x, hy, hx, float_beq_symm hxy⟩)
  · exact looseEq_iff.2 (.inr ⟨hv, hu, beq_symm huv⟩)

theorem looseEq_trans {u v w : Value} (h : u.looseEq v) (h' : v.looseEq w) : u.looseEq w := by
  rcases looseEq_iff.1 h with ⟨x, y, hx, hy, hxy⟩ | ⟨hu, hv, huv⟩
  · rcases looseEq_iff.1 h' with ⟨y', z, hy', hz, hyz⟩ | ⟨hv, -, -⟩
    · obtain rfl : y = y' := Option.some.inj (hy.symm.trans hy')
      exact looseEq_iff.2 (.inl ⟨x, z, hx, hz, float_beq_trans hxy hyz⟩)
    · rw [hv] at hy
      cases hy
  · rcases looseEq_iff.1 h' with ⟨y, z, hy, -, -⟩ | ⟨-, hw, hvw⟩
    · rw [hv] at hy
      cases hy
    · exact looseEq_iff.2 (.inr ⟨hu, hw, beq_trans huv hvw⟩)

/-- The number of a value is itself equal to itself if the value is. -/
theorem looseEq_of_beq {u v : Value} (h : u.beq v) : u.looseEq v := by
  match u, v with
  | integer m, integer n =>
    obtain rfl : m = n := by simpa [beq] using h
    have hself : Float.ofInt m.toInt == Float.ofInt m.toInt := by
      rw [beq_self_eq_not_isNaN, isNaN_ofInt]
      rfl
    exact looseEq_iff.2 (.inl ⟨_, _, rfl, rfl, hself⟩)
  | float x, float y => exact looseEq_iff.2 (.inl ⟨x, y, rfl, rfl, h⟩)
  | null, null | bool _, bool _ | string _, string _ | object _, object _ =>
    exact looseEq_iff.2 (.inr ⟨rfl, rfl, h⟩)

theorem looseEq_self_iff (v : Value) : v.looseEq v ↔ ¬v.HasNaN := by
  constructor
  · intro h
    refine (beq_self_iff v).1 ?_
    cases v with
    | integer n => simp [beq]
    | null | bool | float | string | object => exact h
  · intro h
    exact looseEq_of_beq ((beq_self_iff v).2 h)

private theorem looseEq_object_iff (hfs : Fields.Sorted fs) (hgs : Fields.Sorted gs) :
    (object fs).looseEq (object gs) ↔
      ∀ key, Option.Rel (fun u v : Value => u == v) (fs.lookup key) (gs.lookup key) :=
  beqFields_iff_lookup hfs hgs

/-- Equality in the filter language is symmetric and transitive, and it is reflexive on the values without a float
that is not a number.  What is equal as stored is equal.  Two objects are equal if and only if they have the same keys
and what they hold at each of them is equal as stored; in whatever order the members are inserted, an object holds at a
key what was inserted there last. -/
theorem looseEq_partial_equivalence :
    (∀ u v : Value, u.looseEq v → v.looseEq u) ∧
      (∀ u v w : Value, u.looseEq v → v.looseEq w → u.looseEq w) ∧
      (∀ v : Value, v.looseEq v ↔ ¬v.HasNaN) ∧
      (∀ u v : Value, u == v → u.looseEq v) ∧
      (∀ fs gs : Document, fs.Sorted → gs.Sorted → ((object fs).looseEq (object gs) ↔
        ∀ key, Option.Rel (fun u v : Value => u == v) (fs.lookup key) (gs.lookup key))) ∧
      ∀ ps qs : List (String × Value), (object (Fields.ofList ps)).looseEq (object (Fields.ofList qs)) ↔
        ∀ key, Option.Rel (fun u v : Value => u == v) (ps.reverse.lookup key) (qs.reverse.lookup key) := by
  refine ⟨fun _ _ => looseEq_symm, fun _ _ _ => looseEq_trans, looseEq_self_iff, fun _ _ => looseEq_of_beq,
    fun _ _ => looseEq_object_iff, fun ps qs => ?_⟩
  rw [looseEq_object_iff (Fields.sorted_ofList ps) (Fields.sorted_ofList qs)]
  simp only [Fields.lookup_ofList]

/-- A whole number and a float are equal at the top and not below it, and an object with a float that is not a number
inside is not equal to itself. -/
theorem looseEq_partial_equivalence_nested :
    let nested (v : Value) : Value := object [("a", object [("b", v)])]
    (integer 2).looseEq (float 2.0) ∧ (float 2.0).looseEq (integer 2) ∧ (integer 2).looseEq (integer 2) ∧
      ¬(nested (integer 2)).looseEq (nested (float 2.0)) ∧ (nested (float (0.0 / 0.0))).HasNaN ∧
        ¬(nested (float (0.0 / 0.0))).looseEq (nested (float (0.0 / 0.0))) := by
  intro nested
  obtain ⟨hsymm, htrans, hself, -⟩ := looseEq_partial_equivalence
  have hnumber : (integer 2).looseEq (float 2.0) := by decide
  have hback : (float 2.0).looseEq (integer 2) := hsymm _ _ hnumber
  have hnan : (nested (float (0.0 / 0.0))).HasNaN := .field (.head _) (.field (.head _) (.float (by decide)))
  exact ⟨hnumber, hback, htrans _ _ _ hnumber hback, by decide, hnan, fun h => (hself _).1 h hnan⟩

end Value

end DocFilter
