import DocFilter.Proofs.Grammar.Derivation
import DocFilter.Proofs.Success
import DocFilter.Proofs.Token.Passage

/-!
# Soundness of the rules

Whatever the rule for a part reads is a passage of the stream, and its tokens are derived as that part within the
limits (`expression_sound`).  Each building block is sound if the rules that it is given are (`Sound.chain`,
`Sound.primary`, `Sound.signed`, `Sound.boolean`); the induction is on the levels of nesting that are left.
-/

namespace DocFilter
namespace Grammar

/-- What the rule reads is derived as the part, nested less deeply than the levels and within the bound of chains. -/
def Sound (limits : Limits) (levels : Nat) (part : Part) (rule : Rule Expr) : Prop :=
  ∀ (stream rest : TokenStream) (e : Expr), rule stream = .ok (e, rest) →
    ∃ ts d w, stream.Passes ts rest ∧ Derives part ts e d w ∧ d < levels ∧ w ≤ limits.maxChain

/-! ### Tokens and paths -/

theorem expect_eq_ok {k : TokenKind} {stream rest : TokenStream} {t : Token}
    (h : Rule.expect k stream = .ok (t, rest)) : ∃ start, stream = .token start t rest ∧ t.kind = k := by
  unfold Rule.expect at h
  split at h
  · cases h
  · split at h
    · rename_i hk
      obtain ⟨rfl, rfl⟩ := Prod.mk.inj (Except.ok.inj h)
      exact ⟨_, rfl, hk⟩
    · cases h

theorem behindDot?_eq_some {stream rest : TokenStream} (h : Rule.behindDot? stream = some rest) :
    ∃ start t, stream = .token start t rest ∧ t.kind = .dot := by
  unfold Rule.behindDot? at h
  split at h
  · cases h
  · split at h
    · rename_i hk
      obtain rfl := Option.some.inj h
      exact ⟨_, _, rfl, hk⟩
    · cases h

theorem operatorAhead?_eq_some {operator? : TokenKind → Option BinOp} {stream rest : TokenStream} {op : BinOp}
    (h : Rule.operatorAhead? operator? stream = some (op, rest)) :
    ∃ start t, stream = .token start t rest ∧ operator? t.kind = some op := by
  unfold Rule.operatorAhead? at h
  split at h
  · cases h
  · obtain ⟨op', hop, heq⟩ := Option.map_eq_some_iff.1 h
    obtain ⟨rfl, rfl⟩ := Prod.mk.inj heq
    exact ⟨_, _, rfl, hop⟩

private theorem pathFrom_sound {limits : Limits} {budget : Nat} {t : Token} (ht : t.kind = .identifier)
    {stream rest : TokenStream} {path : FieldPath}
    (h : Rule.pathFrom limits budget t.text stream = .ok (path, rest)) :
    ∃ ts dots, stream.Passes ts rest ∧ DerivesPath (t :: ts) path dots ∧ dots ≤ budget := by
  induction budget generalizing t stream path with
  | zero =>
    unfold Rule.pathFrom at h
    split at h
    · obtain ⟨rfl, rfl⟩ := Prod.mk.inj (Except.ok.inj h)
      exact ⟨[], 0, .nil _, .last t ht, Nat.le_refl 0⟩
    · cases h
  | succ budget ih =>
    unfold Rule.pathFrom at h
    split at h
    · obtain ⟨rfl, rfl⟩ := Prod.mk.inj (Except.ok.inj h)
      exact ⟨[], 0, .nil _, .last t ht, Nat.zero_le _⟩
    · rename_i behind hbehind
      obtain ⟨start, dot, rfl, hdot⟩ := behindDot?_eq_some hbehind
      dsimp only at h
      obtain ⟨⟨next, behind'⟩, hnext, hthen⟩ := bind_eq_ok h
      obtain ⟨start', rfl, hk⟩ := expect_eq_ok hnext
      obtain ⟨⟨path', rest'⟩, hpath, hlast⟩ := bind_eq_ok hthen
      obtain ⟨rfl, rfl⟩ := Prod.mk.inj (Except.ok.inj hlast)
      obtain ⟨ts, dots, hpass, hder, hle⟩ := ih hk hpath
      exact ⟨dot :: next :: ts, dots + 1, .cons _ _ (.cons _ _ hpass), .step t dot ht hdot hder, by omega⟩

theorem path_sound {limits : Limits} {stream rest : TokenStream} {path : FieldPath}
    (h : Rule.path limits stream = .ok (path, rest)) :
    ∃ ts dots, stream.Passes ts rest ∧ DerivesPath ts path dots ∧ dots ≤ limits.maxChain := by
  obtain ⟨⟨first, behind⟩, hfirst, hlater⟩ := bind_eq_ok h
  obtain ⟨start, rfl, hk⟩ := expect_eq_ok hfirst
  obtain ⟨ts, dots, hpass, hder, hle⟩ := pathFrom_sound hk hlater
  exact ⟨first :: ts, dots, .cons _ _ hpass, hder, hle⟩

/-! ### Chains -/

variable {limits : Limits} {levels : Nat} {rule : Rule Expr}

/-- A chain goes on soundly behind links that are derived: the operators already there and those still allowed are
as many as a chain may have. -/
private theorem chainFrom_sound {level : Level} (hoperand : Sound limits levels level.operand rule) {n budget : Nat}
    (hn : n + budget = limits.maxChain) {ts : List Token} {left : Expr} {d w : Nat}
    (hl : Derives (.links level n) ts left d w) (hd : d < levels) (hw : w ≤ limits.maxChain)
    {stream rest : TokenStream} {e : Expr}
    (h : Rule.chainFrom limits level.operator? rule budget left stream = .ok (e, rest)) :
    ∃ us d' w', stream.Passes us rest ∧ Derives (.chain level) (ts ++ us) e d' w' ∧ d' < levels ∧
      w' ≤ limits.maxChain := by
  -- each operator moves one from the budget to the links, so the links keep the sum `hn`
  induction budget generalizing n ts left d w stream with
  | zero =>
    unfold Rule.chainFrom at h
    split at h
    · obtain ⟨rfl, rfl⟩ := Prod.mk.inj (Except.ok.inj h)
      exact ⟨[], d, w, .nil _, by simpa using hl.chain, hd, hw⟩
    · cases h
  | succ budget ih =>
    unfold Rule.chainFrom at h
    split at h
    · obtain ⟨rfl, rfl⟩ := Prod.mk.inj (Except.ok.inj h)
      exact ⟨[], d, w, .nil _, by simpa using hl.chain, hd, hw⟩
    · rename_i op behind hop
      obtain ⟨start, t, rfl, ht⟩ := operatorAhead?_eq_some hop
      dsimp only at h
      obtain ⟨⟨right, behind'⟩, hright, hmore⟩ := bind_eq_ok h
      obtain ⟨us, d₁, w₁, hpass, hr, hd₁, hw₁⟩ := hoperand _ _ _ hright
      obtain ⟨vs, d₂, w₂, hpass', he, hd₂, hw₂⟩ :=
        ih (by omega) (hl.link ht hr) (by omega) (by omega) hmore
      exact ⟨t :: (us ++ vs), d₂, w₂, .cons _ _ (hpass.append hpass'), by simpa using he, hd₂, hw₂⟩

theorem Sound.chain {level : Level} (hoperand : Sound limits levels level.operand rule) :
    Sound limits levels (.chain level) (Rule.chain limits level.operator? rule) := by
  intro stream rest e h
  obtain ⟨⟨left, behind⟩, hleft, hmore⟩ := bind_eq_ok h
  obtain ⟨ts, d, w, hpass, hl, hd, hw⟩ := hoperand _ _ _ hleft
  obtain ⟨us, d', w', hpass', he, hd', hw'⟩ := chainFrom_sound hoperand (Nat.zero_add _) (.one hl) hd hw hmore
  exact ⟨ts ++ us, d', w', hpass.append hpass', he, hd', hw'⟩

/-! ### Operands, signs and booleans -/

private theorem number_eq_ok {t : Token} {value? : Option Float} {e : Expr} (h : Rule.number t value? = .ok e) :
    ∃ x, value? = some x ∧ e = .number x := by
  unfold Rule.number at h
  split at h
  · exact ⟨_, rfl, (Except.ok.inj h).symm⟩
  · cases h

theorem Sound.primary (hexpression : Sound limits levels (.chain .logical) rule) :
    Sound limits (levels + 1) .operand (Rule.primary limits rule) := by
  intro stream rest e h
  unfold Rule.primary at h
  split at h
  · cases h
  · rename_i start head next
    split at h
    · rename_i hk
      obtain ⟨rfl, rfl⟩ := Prod.mk.inj (Except.ok.inj h)
      exact ⟨[head], 0, 0, .cons _ _ (.nil _), .string head hk, by omega, by omega⟩
    · split at h
      · rename_i hpath
        obtain ⟨rfl, rfl⟩ := Prod.mk.inj (Except.ok.inj h)
        obtain ⟨ts, dots, hpass, hder, hle⟩ := path_sound hpath
        exact ⟨ts, 0, dots, hpass, .path hder, by omega, hle⟩
      · cases h
    · rename_i hk
      obtain ⟨rfl, rfl⟩ := Prod.mk.inj (Except.ok.inj h)
      exact ⟨[head], 0, 0, .cons _ _ (.nil _), .nullWord head hk, by omega, by omega⟩
    · rename_i hk
      obtain ⟨e', he', heq⟩ := map_eq_ok h
      obtain ⟨rfl, rfl⟩ := Prod.mk.inj heq
      obtain ⟨x, hx, rfl⟩ := number_eq_ok he'
      obtain ⟨y, hy, rfl⟩ := Option.map_eq_some_iff.1 hx
      exact ⟨[head], 0, 0, .cons _ _ (.nil _), .decimal head hk hy, by omega, by omega⟩
    · rename_i hk
      obtain ⟨e', he', heq⟩ := map_eq_ok h
      obtain ⟨rfl, rfl⟩ := Prod.mk.inj heq
      obtain ⟨x, hx, rfl⟩ := number_eq_ok he'
      obtain ⟨n, hn, rfl⟩ := Option.map_eq_some_iff.1 hx
      exact ⟨[head], 0, 0, .cons _ _ (.nil _), .integer head hk hn, by omega, by omega⟩
    · rename_i hk
      obtain ⟨⟨inner, behind⟩, hinner, hthen⟩ := bind_eq_ok h
      obtain ⟨⟨closing, behind'⟩, hclosing, hlast⟩ := bind_eq_ok hthen
      obtain ⟨rfl, rfl⟩ := Prod.mk.inj (Except.ok.inj hlast)
      obtain ⟨start', rfl, hc⟩ := expect_eq_ok hclosing
      obtain ⟨ts, d, w, hpass, he, hd, hw⟩ := hexpression _ _ _ hinner
      exact ⟨head :: (ts ++ [closing]), d + 1, w, .cons _ _ (hpass.append (.cons _ _ (.nil _))),
        .group head closing hk he hc, by omega, hw⟩
    · cases h

theorem Sound.signed {deeper : Rule Expr} (hhere : Sound limits levels .operand rule)
    (hdeeper : Sound limits (levels - 1) .operand deeper) : Sound limits levels .signed (Rule.signed rule deeper) := by
  intro stream rest e h
  unfold Rule.signed at h
  split at h
  · cases h
  · rename_i start head next
    split at h
    · rename_i sign hsign
      obtain ⟨⟨e', behind⟩, hoperand, hlast⟩ := bind_eq_ok h
      obtain ⟨rfl, rfl⟩ := Prod.mk.inj (Except.ok.inj hlast)
      obtain ⟨ts, d, w, hpass, he, hd, hw⟩ := hdeeper _ _ _ hoperand
      exact ⟨head :: ts, d + 1, w, .cons _ _ hpass, .sign head hsign he, by omega, hw⟩
    · obtain ⟨ts, d, w, hpass, he, hd, hw⟩ := hhere _ _ _ h
      exact ⟨ts, d, w, hpass, .unsigned he, hd, hw⟩

theorem Sound.arithmetic (hsum : Sound limits levels (.chain .additive) rule) : Sound limits levels .boolean rule := by
  intro stream rest e h
  obtain ⟨ts, d, w, hpass, he, hd, hw⟩ := hsum _ _ _ h
  exact ⟨ts, d, w, hpass, .arithmetic he, hd, hw⟩

theorem Sound.boolean {deeper : Rule Expr} (hsum : Sound limits (levels + 1) (.chain .additive) rule)
    (hdeeper : Sound limits levels .boolean deeper) :
    Sound limits (levels + 1) .boolean (Rule.boolean rule deeper) := by
  intro stream rest e h
  unfold Rule.boolean at h
  split at h
  · cases h
  · rename_i start head next
    split at h
    · rename_i hk
      obtain ⟨rfl, rfl⟩ := Prod.mk.inj (Except.ok.inj h)
      exact ⟨[head], 0, 0, .cons _ _ (.nil _), .trueWord head hk, by omega, by omega⟩
    · rename_i hk
      obtain ⟨rfl, rfl⟩ := Prod.mk.inj (Except.ok.inj h)
      exact ⟨[head], 0, 0, .cons _ _ (.nil _), .falseWord head hk, by omega, by omega⟩
    · rename_i hk
      obtain ⟨⟨e', behind⟩, hoperand, hlast⟩ := bind_eq_ok h
      obtain ⟨rfl, rfl⟩ := Prod.mk.inj (Except.ok.inj hlast)
      obtain ⟨ts, d, w, hpass, he, hd, hw⟩ := hdeeper _ _ _ hoperand
      exact ⟨head :: ts, d + 1, w, .cons _ _ hpass, .negation head hk he, by omega, hw⟩
    · exact hsum.arithmetic _ _ _ h
    · split at h
      · rename_i hread
        obtain rfl := Except.ok.inj h
        exact hsum.arithmetic _ _ _ hread
      · cases h

/-! ### All parts -/

theorem boolean_and_operand_sound (limits : Limits) (levels : Nat) :
    Sound limits levels .boolean (boolean limits levels) ∧ Sound limits levels .operand (operand limits levels) := by
  obtain ⟨hboolean, hoperand, -⟩ := rule_induction limits (P := Sound limits) (fun _ => nofun)
    (fun _ _ _ h => h.chain) Sound.primary Sound.signed Sound.boolean levels
  exact ⟨hboolean, hoperand⟩

theorem signed_sound (limits : Limits) (levels : Nat) : Sound limits levels .signed (signed limits levels) :=
  Sound.signed (boolean_and_operand_sound limits levels).2 (boolean_and_operand_sound limits (levels - 1)).2

theorem product_sound (limits : Limits) (levels : Nat) :
    Sound limits levels (.chain .multiplicative) (product limits levels) :=
  Sound.chain (signed_sound limits levels)

theorem sum_sound (limits : Limits) (levels : Nat) : Sound limits levels (.chain .additive) (sum limits levels) :=
  Sound.chain (product_sound limits levels)

theorem comparison_sound (limits : Limits) (levels : Nat) :
    Sound limits levels (.chain .relational) (comparison limits levels) :=
  Sound.chain (boolean_and_operand_sound limits levels).1

/-- What the rule for an expression reads is a passage whose tokens are an expression with the tree that it gives,
nested less deeply than the levels and within the bound of chains. -/
theorem expression_sound (limits : Limits) (levels : Nat) :
    Sound limits levels (.chain .logical) (expression limits levels) :=
  Sound.chain (comparison_sound limits levels)

end Grammar
end DocFilter
