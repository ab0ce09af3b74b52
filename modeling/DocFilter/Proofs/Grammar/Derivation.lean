import DocFilter.Parser.Grammar

/-!
# Derivations

The grammar of the filter language as a relation between tokens and trees, whatever a reader does to find the tree:

* an expression is a chain of comparisons joined by `&&` and `||`, and a comparison one of booleans joined by
  relations;
* a boolean is `true`, `false`, a sum, `!` and a boolean, or an expression in parentheses;
* a sum is a chain of products joined by `+` and `-`, and a product one of signed operands joined by `*` and `/`;
* a signed operand is an operand with or without a sign in front;
* an operand is a string, a field path, `null`, a number, or an expression in parentheses;
* a field path is an identifier, or an identifier, a dot and a field path.

Chains are grouped from the left and parentheses leave no node.  A derivation also counts what it needs of the
limits: how many groups, negations and signs enclose one of its points at most (its depth), and how many operators
its longest chain or dots its longest path has (its width).
-/

namespace DocFilter
namespace Grammar

/-- The levels of operators, the loosest first. -/
inductive Level where
  | logical
  | relational
  | additive
  | multiplicative
  deriving DecidableEq, Repr

/-- The parts that an expression is made of.  The links of a level are the beginning of a chain, up to and including
the operand behind its `count`-th operator. -/
inductive Part where
  | chain (level : Level)
  | links (level : Level) (count : Nat)
  | boolean
  | signed
  | operand
  deriving DecidableEq, Repr

namespace Level

/-- The operator of the level that a token stands for, if it stands for one. -/
def operator? : Level → TokenKind → Option BinOp
  | logical => BinOp.logical?
  | relational => BinOp.relational?
  | additive => BinOp.additive?
  | multiplicative => BinOp.multiplicative?

/-- What stands between the operators of the level. -/
def operand : Level → Part
  | logical => .chain relational
  | relational => .boolean
  | additive => .chain multiplicative
  | multiplicative => .signed

end Level

/-- The tokens `ts` are a field path with the given number of dots. -/
inductive DerivesPath : List Token → FieldPath → (dots : Nat) → Prop where
  | last (t : Token) (ht : t.kind = .identifier) : DerivesPath [t] (.last t.text) 0
  | step (t dot : Token) {ts : List Token} {path : FieldPath} {dots : Nat} (ht : t.kind = .identifier)
      (hdot : dot.kind = .dot) (rest : DerivesPath ts path dots) :
      DerivesPath (t :: dot :: ts) (.step t.text path) (dots + 1)

namespace DerivesPath

variable {ts : List Token} {path : FieldPath} {dots : Nat}

/-- A path begins with an identifier. -/
theorem opening (h : DerivesPath ts path dots) : ∃ t us, ts = t :: us ∧ t.kind = .identifier := by
  cases h with
  | last t ht => exact ⟨t, [], rfl, ht⟩
  | step t dot ht hdot rest => exact ⟨t, _, rfl, ht⟩

/-- A path is made of identifiers and dots. -/
theorem kinds (h : DerivesPath ts path dots) : ∀ t ∈ ts, t.kind = .identifier ∨ t.kind = .dot := by
  induction h with
  | last t ht =>
    intro u hu
    obtain rfl := List.mem_singleton.1 hu
    exact .inl ht
  | step t dot ht hdot _ ih =>
    intro u hu
    rcases List.mem_cons.1 hu with rfl | hu
    · exact .inl ht
    · rcases List.mem_cons.1 hu with rfl | hu
      · exact .inr hdot
      · exact ih u hu

/-- A path has a dot in front of each key but the first. -/
theorem dots_eq (h : DerivesPath ts path dots) : dots = path.later.length := by
  induction h with
  | last t ht => rfl
  | step t dot ht hdot rest ih => exact congrArg (· + 1) ih

end DerivesPath

/-- The tokens `ts` are a part with the tree `e`. -/
inductive Derives : (part : Part) → (ts : List Token) → (e : Expr) → (depth width : Nat) → Prop where
  | one {level : Level} {ts : List Token} {e : Expr} {d w : Nat} (h : Derives level.operand ts e d w) :
      Derives (.links level 0) ts e d w
  | link {level : Level} {n : Nat} {ts us : List Token} {t : Token} {op : BinOp} {left right : Expr}
      {d w d' w' : Nat} (hl : Derives (.links level n) ts left d w) (ht : level.operator? t.kind = some op)
      (hr : Derives level.operand us right d' w') :
      Derives (.links level (n + 1)) (ts ++ t :: us) (.binary op left right) (max d d') (max (n + 1) (max w w'))
  | chain {level : Level} {n : Nat} {ts : List Token} {e : Expr} {d w : Nat} (h : Derives (.links level n) ts e d w) :
      Derives (.chain level) ts e d w
  | trueWord (t : Token) (ht : t.kind = .trueWord) : Derives .boolean [t] (.bool true) 0 0
  | falseWord (t : Token) (ht : t.kind = .falseWord) : Derives .boolean [t] (.bool false) 0 0
  | arithmetic {ts : List Token} {e : Expr} {d w : Nat} (h : Derives (.chain .additive) ts e d w) :
      Derives .boolean ts e d w
  | negation (t : Token) {ts : List Token} {e : Expr} {d w : Nat} (ht : t.kind = .notOp)
      (h : Derives .boolean ts e d w) : Derives .boolean (t :: ts) (.not e) (d + 1) w
  | booleanGroup (opening closing : Token) {ts : List Token} {e : Expr} {d w : Nat} (ho : opening.kind = .leftParen)
      (h : Derives (.chain .logical) ts e d w) (hc : closing.kind = .rightParen) :
      Derives .boolean (opening :: (ts ++ [closing])) e (d + 1) w
  | unsigned {ts : List Token} {e : Expr} {d w : Nat} (h : Derives .operand ts e d w) : Derives .signed ts e d w
  | sign (t : Token) {sign : Sign} {ts : List Token} {e : Expr} {d w : Nat} (ht : Sign.ofKind? t.kind = some sign)
      (h : Derives .operand ts e d w) : Derives .signed (t :: ts) (.signed sign e) (d + 1) w
  | string (t : Token) (ht : t.kind = .string) : Derives .operand [t] (.string t.text) 0 0
  | path {ts : List Token} {path : FieldPath} {dots : Nat} (h : DerivesPath ts path dots) :
      Derives .operand ts (.field path) 0 dots
  | nullWord (t : Token) (ht : t.kind = .nullWord) : Derives .operand [t] .null 0 0
  | decimal (t : Token) {x : Decimal} (ht : t.kind = .decimal) (hx : Numeral.decimal? t.text.toList = some x) :
      Derives .operand [t] (.number x.toFloat) 0 0
  | integer (t : Token) {n : Nat} (ht : t.kind = .integer) (hn : Numeral.integer? t.text.toList = some n) :
      Derives .operand [t] (.number (Float.ofNat n)) 0 0
  | group (opening closing : Token) {ts : List Token} {e : Expr} {d w : Nat} (ho : opening.kind = .leftParen)
      (h : Derives (.chain .logical) ts e d w) (hc : closing.kind = .rightParen) :
      Derives .operand (opening :: (ts ++ [closing])) e (d + 1) w

/-! ### Parts as other parts -/

namespace Derives

variable {ts : List Token} {e : Expr} {d w : Nat}

/-- What stands between the operators of a level is by itself a chain of the level. -/
theorem single (level : Level) (h : Derives level.operand ts e d w) : Derives (.chain level) ts e d w :=
  .chain (.one h)

/-- An operand is by itself a boolean. -/
theorem boolean_of_operand (h : Derives .operand ts e d w) : Derives .boolean ts e d w :=
  .arithmetic (single .additive (single .multiplicative (.unsigned h)))

/-- A boolean is by itself an expression. -/
theorem expression_of_boolean (h : Derives .boolean ts e d w) : Derives (.chain .logical) ts e d w :=
  single .logical (single .relational h)

/-- An operand is by itself an expression. -/
theorem expression_of_operand (h : Derives .operand ts e d w) : Derives (.chain .logical) ts e d w :=
  h.boolean_of_operand.expression_of_boolean

/-- A signed operand by itself can stand between the operators of every level. -/
theorem operand_of_signed (level : Level) (h : Derives .signed ts e d w) : Derives level.operand ts e d w := by
  have hboolean : Derives .boolean ts e d w := .arithmetic (single .additive (single .multiplicative h))
  cases level with
  | logical => exact single .relational hboolean
  | relational => exact hboolean
  | additive => exact single .multiplicative h
  | multiplicative => exact h

/-- So can an operand. -/
theorem operand_of_operand (level : Level) (h : Derives .operand ts e d w) : Derives level.operand ts e d w :=
  operand_of_signed level (.unsigned h)

/-- A chain of every level is by itself an expression. -/
theorem expression_of_chain {level : Level} (h : Derives (.chain level) ts e d w) :
    Derives (.chain .logical) ts e d w := by
  cases level with
  | logical => exact h
  | relational => exact single .logical h
  | additive => exact expression_of_boolean (.arithmetic h)
  | multiplicative => exact expression_of_boolean (.arithmetic (single .additive h))

end Derives

/-! ### Rules for the parts -/

/-- The rule that reads a part. -/
def Part.rule (limits : Limits) (levels : Nat) : Part → Rule Expr
  | chain .logical | links .logical _ => expression limits levels
  | chain .relational | links .relational _ => comparison limits levels
  | chain .additive | links .additive _ => sum limits levels
  | chain .multiplicative | links .multiplicative _ => product limits levels
  | boolean => Grammar.boolean limits levels
  | signed => Grammar.signed limits levels
  | operand => Grammar.operand limits levels

/-- Every level is read as a chain of what stands between its operators. -/
theorem rule_chain (limits : Limits) (levels : Nat) (level : Level) :
    (Part.chain level).rule limits levels =
      Rule.chain limits level.operator? (level.operand.rule limits levels) := by
  cases level <;> rfl

/-- What holds where no level is left, and goes over from the rules for the parts to the rule that is built of them,
holds of the rules that call each other and of the one for expressions. -/
theorem rule_induction (limits : Limits) {P : (levels : Nat) → Part → Rule Expr → Prop}
    (deepest : ∀ part, P 0 part fun _ => .error (.tooDeep limits.maxDepth))
    (chain : ∀ (level : Level) {levels : Nat} {rule : Rule Expr}, P levels level.operand rule →
      P levels (.chain level) (Rule.chain limits level.operator? rule))
    (primary : ∀ {levels : Nat} {rule : Rule Expr}, P levels (.chain .logical) rule →
      P (levels + 1) .operand (Rule.primary limits rule))
    (signed : ∀ {levels : Nat} {here deeper : Rule Expr}, P (levels + 1) .operand here → P levels .operand deeper →
      P (levels + 1) .signed (Rule.signed here deeper))
    (boolean : ∀ {levels : Nat} {arithmetic deeper : Rule Expr}, P (levels + 1) (.chain .additive) arithmetic →
      P levels .boolean deeper → P (levels + 1) .boolean (Rule.boolean arithmetic deeper))
    (levels : Nat) : P levels .boolean (Grammar.boolean limits levels) ∧ P levels .operand (operand limits levels) ∧
      P levels (.chain .logical) (expression limits levels) := by
  have hexpression {levels : Nat} (h : P levels .boolean (Grammar.boolean limits levels)) :
      P levels (.chain .logical) (expression limits levels) :=
    chain .logical (chain .relational h)
  induction levels with
  | zero => exact ⟨deepest .boolean, deepest .operand, hexpression (deepest .boolean)⟩
  | succ levels ih =>
    obtain ⟨hboolean, hoperand, hgroup⟩ := ih
    have hhere : P (levels + 1) .operand (operand limits (levels + 1)) := primary hgroup
    have hsum : P (levels + 1) (.chain .additive) (sum limits (levels + 1)) :=
      chain .additive (chain .multiplicative (signed hhere hoperand))
    exact ⟨boolean hsum hboolean, hhere, hexpression (boolean hsum hboolean)⟩

end Grammar
end DocFilter
