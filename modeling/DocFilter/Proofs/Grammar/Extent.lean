import DocFilter.Proofs.Grammar.Language
import Mathlib.Order.Bounds.Defs

/-!
# Depth and width

The depth of a derivation is the largest number of groups, negations and signs that enclose one of its points
(`Derives.isGreatest_depth`), and its width is the largest number of operators in one of its chains or of dots in one
of its paths (`Derives.isGreatest_width`).  Points in different operands of a chain are counted apart.

A text has one depth and one width: parsing succeeds under exactly the limits that are not below them
(`parseWith_settles`), so two derivations of the text cannot differ in them (`Derives.extent_unique`).
-/

namespace DocFilter
namespace Grammar

/-- Tokens that are taken as a part with a tree. -/
structure Phrase where
  part : Part
  tokens : List Token
  tree : Expr

namespace Phrase

/-- The phrase is derived, and its derivation has the given depth and width. -/
def Derived (p : Phrase) (depth width : Nat) : Prop :=
  Derives p.part p.tokens p.tree depth width

/-- The phrase `p` is put together of `q` and of others that are derived, and has `nesting` groups, negations or signs
around `q`. -/
inductive Constituent : (p : Phrase) → (nesting : Nat) → (q : Phrase) → Prop where
  | one {level : Level} {ts : List Token} {e : Expr} :
      Constituent ⟨.links level 0, ts, e⟩ 0 ⟨level.operand, ts, e⟩
  | left {level : Level} {n : Nat} {ts us : List Token} {t : Token} {op : BinOp} {left right : Expr} {d w : Nat}
      (ht : level.operator? t.kind = some op) (hr : Derives level.operand us right d w) :
      Constituent ⟨.links level (n + 1), ts ++ t :: us, .binary op left right⟩ 0 ⟨.links level n, ts, left⟩
  | right {level : Level} {n : Nat} {ts us : List Token} {t : Token} {op : BinOp} {left right : Expr} {d w : Nat}
      (hl : Derives (.links level n) ts left d w) (ht : level.operator? t.kind = some op) :
      Constituent ⟨.links level (n + 1), ts ++ t :: us, .binary op left right⟩ 0 ⟨level.operand, us, right⟩
  | chain {level : Level} (n : Nat) {ts : List Token} {e : Expr} :
      Constituent ⟨.chain level, ts, e⟩ 0 ⟨.links level n, ts, e⟩
  | arithmetic {ts : List Token} {e : Expr} : Constituent ⟨.boolean, ts, e⟩ 0 ⟨.chain .additive, ts, e⟩
  | negation {t : Token} {ts : List Token} {e : Expr} (ht : t.kind = .notOp) :
      Constituent ⟨.boolean, t :: ts, .not e⟩ 1 ⟨.boolean, ts, e⟩
  | booleanGroup {opening closing : Token} {ts : List Token} {e : Expr} (ho : opening.kind = .leftParen)
      (hc : closing.kind = .rightParen) :
      Constituent ⟨.boolean, opening :: (ts ++ [closing]), e⟩ 1 ⟨.chain .logical, ts, e⟩
  | unsigned {ts : List Token} {e : Expr} : Constituent ⟨.signed, ts, e⟩ 0 ⟨.operand, ts, e⟩
  | sign {t : Token} {sign : Sign} {ts : List Token} {e : Expr} (ht : Sign.ofKind? t.kind = some sign) :
      Constituent ⟨.signed, t :: ts, .signed sign e⟩ 1 ⟨.operand, ts, e⟩
  | group {opening closing : Token} {ts : List Token} {e : Expr} (ho : opening.kind = .leftParen)
      (hc : closing.kind = .rightParen) :
      Constituent ⟨.operand, opening :: (ts ++ [closing]), e⟩ 1 ⟨.chain .logical, ts, e⟩

/-- The phrase `q` occurs in `p`, enclosed by `nesting` groups, negations and signs of it. -/
inductive Encloses : (p : Phrase) → (nesting : Nat) → (q : Phrase) → Prop where
  | here {p : Phrase} {d w : Nat} (h : p.Derived d w) : Encloses p 0 p
  | inside {p q r : Phrase} {k n : Nat} (h : p.Constituent k q) (hq : q.Encloses n r) : Encloses p (k + n) r

/-- How many groups, negations and signs enclose the points of a phrase. -/
def nestings (p : Phrase) : Set Nat :=
  {n | ∃ q, p.Encloses n q}

/-- How many operators the chains of a phrase have and how many dots its paths. -/
def lengths (p : Phrase) : Set Nat :=
  {n | (∃ k level ts e, p.Encloses k ⟨.links level n, ts, e⟩) ∨
    ∃ k ts path, p.Encloses k ⟨.operand, ts, .field path⟩ ∧ DerivesPath ts path n}

variable {p q : Phrase} {k n d w : Nat}

/-- A phrase is derived from its constituent, at least as deep and as wide. -/
theorem Constituent.derived (h : p.Constituent k q) (hq : q.Derived d w) :
    ∃ d' w', p.Derived d' w' ∧ k + d ≤ d' ∧ w ≤ w' := by
  cases h with
  | one => exact ⟨d, w, .one hq, by omega, Nat.le_refl w⟩
  | left ht hr => exact ⟨_, _, .link hq ht hr, by omega, by omega⟩
  | right hl ht => exact ⟨_, _, .link hl ht hq, by omega, by omega⟩
  | chain n => exact ⟨d, w, .chain hq, by omega, Nat.le_refl w⟩
  | arithmetic => exact ⟨d, w, .arithmetic hq, by omega, Nat.le_refl w⟩
  | negation ht => exact ⟨d + 1, w, .negation _ ht hq, by omega, Nat.le_refl w⟩
  | booleanGroup ho hc => exact ⟨d + 1, w, .booleanGroup _ _ ho hq hc, by omega, Nat.le_refl w⟩
  | unsigned => exact ⟨d, w, .unsigned hq, by omega, Nat.le_refl w⟩
  | sign ht => exact ⟨d + 1, w, .sign _ ht hq, by omega, Nat.le_refl w⟩
  | group ho hc => exact ⟨d + 1, w, .group _ _ ho hq hc, by omega, Nat.le_refl w⟩

/-- A phrase is derived from what occurs in it, at least as deep and as wide. -/
theorem Encloses.derived (h : p.Encloses n q) (hq : q.Derived d w) :
    ∃ d' w', p.Derived d' w' ∧ n + d ≤ d' ∧ w ≤ w' := by
  induction h with
  | here => exact ⟨d, w, hq, by omega, Nat.le_refl w⟩
  | inside hstep _ ih =>
    obtain ⟨d₁, w₁, h₁, hd₁, hw₁⟩ := ih hq
    obtain ⟨d₂, w₂, h₂, hd₂, hw₂⟩ := hstep.derived h₁
    exact ⟨d₂, w₂, h₂, by omega, by omega⟩

/-- What occurs in a phrase is derived. -/
theorem Encloses.exists_derived (h : p.Encloses n q) : ∃ d w, q.Derived d w := by
  induction h with
  | here h => exact ⟨_, _, h⟩
  | inside _ _ ih => exact ih

/-- What encloses the points of a constituent encloses them in the phrase. -/
theorem Constituent.nestings (h : p.Constituent k q) (hn : n ∈ q.nestings) : k + n ∈ p.nestings := by
  obtain ⟨r, hr⟩ := hn
  exact ⟨r, .inside h hr⟩

/-- The chains and paths of a constituent are in the phrase. -/
theorem Constituent.lengths (h : p.Constituent k q) (hn : n ∈ q.lengths) : n ∈ p.lengths := by
  rcases hn with ⟨j, level, ts, e, hr⟩ | ⟨j, ts, path, hr, hpath⟩
  · exact .inl ⟨_, level, ts, e, .inside h hr⟩
  · exact .inr ⟨_, ts, path, .inside h hr, hpath⟩

end Phrase

namespace Derives

open Phrase (Constituent)

variable {part : Part} {ts us : List Token} {e e' : Expr} {d w d' w' : Nat}

/-- Some point is enclosed by as many groups, negations and signs as the depth says. -/
theorem depth_mem (h : Derives part ts e d w) : d ∈ Phrase.nestings ⟨part, ts, e⟩ := by
  have zero {p : Phrase} {d w : Nat} (h : p.Derived d w) : 0 ∈ p.nestings := ⟨p, .here h⟩
  have same {p q : Phrase} {n : Nat} (h : p.Constituent 0 q) (hn : n ∈ q.nestings) : n ∈ p.nestings := by
    simpa using h.nestings hn
  have deeper {p q : Phrase} {n : Nat} (h : p.Constituent 1 q) (hn : n ∈ q.nestings) : n + 1 ∈ p.nestings := by
    simpa [Nat.add_comm] using h.nestings hn
  induction h with
  | one _ ih => exact same .one ih
  | @link level n ts us t op left right d w d' w' hl ht hr ihl ihr =>
    rcases Nat.le_total d d' with hd | hd
    · rw [Nat.max_eq_right hd]
      exact same (.right hl ht) ihr
    · rw [Nat.max_eq_left hd]
      exact same (.left ht hr) ihl
  | @chain level n _ _ _ _ _ ih => exact same (.chain n) ih
  | arithmetic _ ih => exact same .arithmetic ih
  | negation _ ht _ ih => exact deeper (.negation ht) ih
  | booleanGroup _ _ ho _ hc ih => exact deeper (.booleanGroup ho hc) ih
  | unsigned _ ih => exact same .unsigned ih
  | sign _ ht _ ih => exact deeper (.sign ht) ih
  | group _ _ ho _ hc ih => exact deeper (.group ho hc) ih
  | trueWord t ht => exact zero (.trueWord t ht)
  | falseWord t ht => exact zero (.falseWord t ht)
  | string t ht => exact zero (.string t ht)
  | path h => exact zero (.path h)
  | nullWord t ht => exact zero (.nullWord t ht)
  | decimal t ht hx => exact zero (.decimal t ht hx)
  | integer t ht hn => exact zero (.integer t ht hn)

/-- Some chain has as many operators as the width says or some path as many dots, unless the width is zero. -/
theorem width_mem (h : Derives part ts e d w) : w = 0 ∨ w ∈ Phrase.lengths ⟨part, ts, e⟩ := by
  have step {p q : Phrase} {k n : Nat} (h : p.Constituent k q) (hn : n = 0 ∨ n ∈ q.lengths) :
      n = 0 ∨ n ∈ p.lengths := hn.imp_right h.lengths
  induction h with
  | one _ ih => exact step .one ih
  | @link level n ts us t op left right d w d' w' hl ht hr ihl ihr =>
    -- the longest chain or path is this chain up to its last operator, or one in its operands
    have hhere : n + 1 ∈ Phrase.lengths ⟨.links level (n + 1), ts ++ t :: us, .binary op left right⟩ :=
      .inl ⟨0, level, _, _, .here (.link hl ht hr)⟩
    rcases Nat.le_total (max w w') (n + 1) with h | h
    · rw [Nat.max_eq_left h]
      exact .inr hhere
    · rw [Nat.max_eq_right h]
      rcases Nat.le_total w w' with h' | h'
      · rw [Nat.max_eq_right h']
        exact step (.right hl ht) ihr
      · rw [Nat.max_eq_left h']
        exact step (.left ht hr) ihl
  | @chain level n _ _ _ _ _ ih => exact step (.chain n) ih
  | arithmetic _ ih => exact step .arithmetic ih
  | negation _ ht _ ih => exact step (.negation ht) ih
  | booleanGroup _ _ ho _ hc ih => exact step (.booleanGroup ho hc) ih
  | unsigned _ ih => exact step .unsigned ih
  | sign _ ht _ ih => exact step (.sign ht) ih
  | group _ _ ho _ hc ih => exact step (.group ho hc) ih
  | path h => exact .inr (.inr ⟨0, _, _, .here (.path h), h⟩)
  | trueWord | falseWord | string | nullWord | decimal | integer => exact .inl rfl

/-- A chain is at least as wide as it has operators. -/
theorem count_le_width {level : Level} {n : Nat} (h : Derives (.links level n) ts e d w) : n ≤ w := by
  cases h with
  | one h => exact Nat.zero_le _
  | link hl ht hr => exact Nat.le_max_left ..

/-! ### The extent of a text -/

variable {text : String}

/-- Under all limits, parsing a text that is derived as an expression finds the expression or reports a limit that is
below its depth or its width. -/
theorem parseWith_settles (h : Derives (.chain .logical) ts e d w) (htokens : tokenize text = .ok ts)
    (limits : Limits) :
    Settles limits (d ≤ limits.maxDepth ∧ w ≤ limits.maxChain) (Expr.parseWith limits text) (.ok e) := by
  obtain ⟨start, position, hpass⟩ := tokenize_eq_ok_iff.1 htokens
  have hread := rule_complete limits h (limits.maxDepth + 1) _ _ hpass (Part.endsBefore_stop _ _ _)
  rw [parseWith_eq_conclude]
  have hwhole : Settles limits _ (expression limits (limits.maxDepth + 1) (.read 0 text.toList) >>= _) _ :=
    hread.andThen fun p => conclude p.1 p.2
  exact hwhole.congr (by rw [Nat.lt_succ_iff])

private theorem extent_le (h : Derives (.chain .logical) ts e d w) (h' : Derives (.chain .logical) ts e' d' w')
    (htokens : tokenize text = .ok ts) : d ≤ d' ∧ w ≤ w' := by
  have hparse : Expr.parseWith ⟨d', w'⟩ text = .ok e' :=
    parseWith_of_sentence ⟨ts, d', w', htokens, h', Nat.le_refl d', Nat.le_refl w'⟩
  by_cases hlimits : d ≤ d' ∧ w ≤ w'
  · exact hlimits
  · rcases (h.parseWith_settles htokens ⟨d', w'⟩).2 hlimits with herror | herror
    · rw [hparse] at herror
      cases herror
    · rw [hparse] at herror
      cases herror

/-- All derivations of a text have the same depth and width. -/
theorem extent_unique (h : Derives (.chain .logical) ts e d w) (h' : Derives (.chain .logical) ts e' d' w')
    (htokens : tokenize text = .ok ts) : d = d' ∧ w = w' := by
  have hle := h.extent_le h' htokens
  have hge := h'.extent_le h htokens
  omega

/-- The depth is the largest number of groups, negations and signs that enclose one point. -/
theorem isGreatest_depth (h : Derives (.chain .logical) ts e d w) (htokens : tokenize text = .ok ts) :
    IsGreatest (Phrase.nestings ⟨.chain .logical, ts, e⟩) d := by
  refine ⟨h.depth_mem, ?_⟩
  rintro n ⟨q, hq⟩
  obtain ⟨d₀, w₀, h₀⟩ := hq.exists_derived
  obtain ⟨d₁, w₁, h₁, hd, -⟩ := hq.derived h₀
  have := h.extent_unique h₁ htokens
  omega

/-- The width is the largest number of operators in one chain or of dots in one path. -/
theorem isGreatest_width (h : Derives (.chain .logical) ts e d w) (htokens : tokenize text = .ok ts) :
    IsGreatest (Phrase.lengths ⟨.chain .logical, ts, e⟩) w := by
  have hmax : ∀ n ∈ Phrase.lengths ⟨.chain .logical, ts, e⟩, n ≤ w := by
    rintro n (⟨k, level, us, a, hq⟩ | ⟨k, us, path, hq, hpath⟩)
    · obtain ⟨d₀, w₀, h₀⟩ := hq.exists_derived
      have hcount : n ≤ w₀ := h₀.count_le_width
      obtain ⟨d₁, w₁, h₁, -, hw⟩ := hq.derived h₀
      have := h.extent_unique h₁ htokens
      omega
    · obtain ⟨d₁, w₁, h₁, -, hw⟩ := hq.derived (.path hpath)
      have := h.extent_unique h₁ htokens
      omega
  refine ⟨?_, hmax⟩
  rcases h.width_mem with hw | hw
  · -- an expression is itself a chain, which here has no operator
    cases h with
    | @chain _ n _ _ _ _ hlinks =>
      have hhere : n ∈ Phrase.lengths ⟨.chain .logical, ts, e⟩ := .inl ⟨0, _, _, _, .inside (.chain n) (.here hlinks)⟩
      have := hmax n hhere
      obtain rfl : n = w := by omega
      exact hhere
  · exact hw

end Derives

end Grammar
end DocFilter
