import Mathlib.Data.List.Chain
import DocFilter.Proofs.Eval.Safety
import DocFilter.Proofs.Grammar.Composition

/-!
# Marks in front of operations

How far a `!` or a sign reaches that stands in front of an operation.  A sign takes the operand behind it and nothing
else.  A `!` takes a boolean: that is the left operand of a comparison or of a logical operation, but all of an
arithmetic one, since a sum is a boolean (`parseWith_marked`).  So a `!` in front of arithmetic has no value.

Which texts are accepted at all depends on the truth values in them.  They are no operands of arithmetic, and none of
them stands next to one of its symbols (`Derives.adjoining`).
-/

namespace DocFilter

/-- Whether the kind is that of a truth value. -/
def TokenKind.isTruthWord (k : TokenKind) : Bool :=
  k = .trueWord || k = .falseWord

/-- Whether the kind is that of a symbol of arithmetic, a sign or an operator. -/
def TokenKind.isArithmetic (k : TokenKind) : Bool :=
  k = .plus || k = .minus || k = .times || k = .divide

namespace Grammar

variable {ts us : List Token} {t u : Token} {e : Expr} {d w : Nat} {part : Part}

/-! ### Truth values next to arithmetic -/

/-- The tokens can be neighbours: they are not a truth value and a symbol of arithmetic. -/
def Adjoin (t u : Token) : Prop :=
  ¬(t.kind.isTruthWord ∧ u.kind.isArithmetic) ∧ ¬(t.kind.isArithmetic ∧ u.kind.isTruthWord)

/-- Whether the part is one of arithmetic. -/
def Part.isArithmetic : Part → Bool
  | chain .additive | links .additive _ | chain .multiplicative | links .multiplicative _ | signed | operand => true
  | chain .logical | links .logical _ | chain .relational | links .relational _ | boolean => false

private theorem isArithmetic_links (level : Level) (n : Nat) :
    (Part.links level n).isArithmetic = (Part.chain level).isArithmetic := by
  cases level <;> rfl

private theorem isArithmetic_operand (level : Level) :
    level.operand.isArithmetic = (Part.chain level).isArithmetic := by
  cases level <;> rfl

private theorem isTruthWord_operator {level : Level} {op : BinOp} (ht : level.operator? t.kind = some op) :
    t.kind.isTruthWord = false ∧ (t.kind.isArithmetic → (Part.chain level).isArithmetic) := by
  revert ht
  cases level <;> cases t.kind <;> simp [Level.operator?, BinOp.logical?, BinOp.relational?, BinOp.additive?,
    BinOp.multiplicative?, TokenKind.isTruthWord, TokenKind.isArithmetic, Part.isArithmetic]

/-- No part of arithmetic begins with a truth value. -/
theorem Derives.head_of_isArithmetic (h : Derives part ts e d w) (hpart : part.isArithmetic) :
    ∀ t ∈ ts.head?, t.kind.isTruthWord = false := by
  obtain ⟨first, us, rfl, hopens⟩ := h.opening
  rintro t ht
  obtain rfl := Option.some.inj ht
  revert hopens
  cases part with
  | chain level | links level n =>
    cases level with
    | logical | relational => cases hpart
    | additive | multiplicative => cases first.kind <;> simp [Part.opens, TokenKind.isTruthWord]
  | boolean => cases hpart
  | signed | operand => cases first.kind <;> simp [Part.opens, TokenKind.isTruthWord]

/-- No part of arithmetic ends in a truth value. -/
theorem Derives.last_of_isArithmetic (h : Derives part ts e d w) (hpart : part.isArithmetic) :
    ∀ t ∈ ts.getLast?, t.kind.isTruthWord = false := by
  have hsingle {t : Token} {k : TokenKind} (ht : t.kind = k) (hk : k.isTruthWord = false) :
      ∀ u ∈ [t].getLast?, u.kind.isTruthWord = false := by
    rintro u hu
    obtain rfl := Option.some.inj hu
    exact ht ▸ hk
  induction h with
  | one _ ih => exact ih (by rwa [isArithmetic_operand, ← isArithmetic_links])
  | link _ _ hr _ ihr =>
    rw [isArithmetic_links, ← isArithmetic_operand] at hpart
    obtain ⟨first, more, rfl, -⟩ := hr.opening
    rw [List.getLast?_append_cons, List.getLast?_cons_cons]
    exact ihr hpart
  | chain _ ih => exact ih (by rwa [isArithmetic_links])
  | unsigned _ ih => exact ih rfl
  | sign t ht h ih =>
    obtain ⟨first, more, rfl, -⟩ := h.opening
    rw [List.getLast?_cons_cons]
    exact ih rfl
  | string t ht | nullWord t ht | decimal t ht _ | integer t ht _ => exact hsingle ht rfl
  | path h =>
    rintro t ht
    rcases h.kinds t (List.mem_of_getLast? ht) with hk | hk <;> rw [hk] <;> rfl
  | group opening closing ho h hc ih =>
    rw [← List.cons_append, List.getLast?_concat]
    exact hsingle hc rfl
  | trueWord | falseWord | arithmetic | negation | booleanGroup => cases hpart

/-! ### Neighbours -/

/-- A token that is neither a truth value nor a symbol of arithmetic can stand next to every other one. -/
private theorem adjoin_of_neutral (htruth : t.kind.isTruthWord = false) (hsymbol : t.kind.isArithmetic = false)
    (u : Token) : Adjoin t u ∧ Adjoin u t := by
  simp [Adjoin, htruth, hsymbol]

/-- A truth value and a symbol of arithmetic are no neighbours anywhere in an expression. -/
theorem Derives.adjoining (h : Derives part ts e d w) : ts.IsChain Adjoin := by
  have hmark {t : Token} {k : TokenKind} (ht : t.kind = k) (htruth : k.isTruthWord = false)
      (hsymbol : k.isArithmetic = false) (u : Token) : Adjoin t u ∧ Adjoin u t :=
    adjoin_of_neutral (ht ▸ htruth) (ht ▸ hsymbol) u
  have hgroup {opening closing : Token} {ts : List Token} (ho : opening.kind = .leftParen)
      (hc : closing.kind = .rightParen) (h : ts.IsChain Adjoin) : (opening :: (ts ++ [closing])).IsChain Adjoin :=
    List.isChain_cons.2 ⟨fun u _ => (hmark ho rfl rfl u).1, List.isChain_append.2 ⟨h, .singleton _, fun u _ v hv => by
      obtain rfl := Option.some.inj hv
      exact (hmark hc rfl rfl u).2⟩⟩
  induction h with
  | one _ ih | chain _ ih | arithmetic _ ih | unsigned _ ih => exact ih
  | @link level n ts us t op _ _ _ _ _ _ hl ht hr ihl ihr =>
    obtain ⟨htruth, hsymbol⟩ := isTruthWord_operator ht
    refine List.isChain_append.2 ⟨ihl, List.isChain_cons.2 ⟨fun u hu => ?_, ihr⟩, fun u hu v hv => ?_⟩
    · refine ⟨by simp [htruth], fun ⟨hsymbol', htruth'⟩ => ?_⟩
      have := hr.head_of_isArithmetic ((isArithmetic_operand level).trans (hsymbol hsymbol')) u hu
      rw [this] at htruth'
      cases htruth'
    · obtain rfl := Option.some.inj hv
      refine ⟨fun ⟨htruth', hsymbol'⟩ => ?_, by simp [htruth]⟩
      have := hl.last_of_isArithmetic ((isArithmetic_links level n).trans (hsymbol hsymbol')) u hu
      rw [this] at htruth'
      cases htruth'
  | trueWord | falseWord | string | nullWord | decimal | integer => exact .singleton _
  | negation t ht _ ih => exact List.isChain_cons.2 ⟨fun u _ => (hmark ht rfl rfl u).1, ih⟩
  | booleanGroup opening closing ho _ hc ih | group opening closing ho _ hc ih => exact hgroup ho hc ih
  | sign t ht h ih =>
    have htruth : t.kind.isTruthWord = false := by
      revert ht
      cases t.kind <;> simp [Sign.ofKind?, TokenKind.isTruthWord]
    refine List.isChain_cons.2 ⟨fun u hu => ⟨by simp [htruth], fun ⟨_, htruth'⟩ => ?_⟩, ih⟩
    rw [h.head_of_isArithmetic rfl u hu] at htruth'
    cases htruth'
  | path h =>
    refine (List.pairwise_of_forall_mem_list fun u hu v _ => ?_).isChain
    rcases h.kinds u hu with hk | hk
    · exact (hmark hk rfl rfl v).1
    · exact (hmark hk rfl rfl v).1

/-! ### Parts of an operation -/

namespace Derives

variable {op : BinOp}

/-- A boolean can stand between the operators of every level but those of arithmetic. -/
theorem operand_of_boolean (hop : op.isArithmetic = false) (h : Derives .boolean ts e d w) :
    Derives op.level.operand ts e d w := by
  cases op with
  | and | or => exact single .relational h
  | equal | notEqual | less | greater | lessEqual | greaterEqual => exact h
  | add | subtract | multiply | divide => cases hop

/-- An arithmetic operation is a boolean. -/
theorem boolean_of_arithmetic (hop : op.isArithmetic) (h : Derives (.chain op.level) ts e d w) :
    Derives .boolean ts e d w := by
  cases op with
  | add | subtract => exact .arithmetic h
  | multiply | divide => exact .arithmetic (single .additive h)
  | and | or | equal | notEqual | less | greater | lessEqual | greaterEqual => cases hop

end Derives

/-- The text is by itself an operand: a string, a field path, `null`, a number or an expression in parentheses. -/
def IsOperand (text : String) (e : Expr) : Prop :=
  ∃ ts d w, tokenize text = .ok ts ∧ Derives .operand ts e d w

/-- The text is by itself a truth value. -/
def IsTruthValue (text : String) (e : Expr) : Prop :=
  ∃ t value, tokenize text = .ok [t] ∧ t.kind = (if value then .trueWord else .falseWord) ∧ e = .bool value

/-- An accepted text is an operand in parentheses. -/
theorem isOperand_enclose {limits : Limits} {text : String} (h : Expr.parseWith limits text = .ok e) :
    IsOperand (Expr.enclose text) e := by
  obtain ⟨ts, d, w, htokens, he, -, -⟩ := (sentence_of_parseWith h).exists_operand
  exact ⟨ts, d + 1, w, htokens, he⟩

variable {text : String}

theorem IsTruthValue.exists_token (h : IsTruthValue text e) :
    ∃ t, tokenize text = .ok [t] ∧ t.kind.isTruthWord ∧ Derives .boolean [t] e 0 0 := by
  obtain ⟨t, value, htokens, ht, rfl⟩ := h
  cases value with
  | true => exact ⟨t, htokens, by rw [ht]; rfl, .trueWord t ht⟩
  | false => exact ⟨t, htokens, by rw [ht]; rfl, .falseWord t ht⟩

/-- A truth value is no operand. -/
theorem IsTruthValue.not_isOperand (h : IsTruthValue text e) {e' : Expr} : ¬IsOperand text e' := by
  rintro ⟨ts, d, w, htokens, he⟩
  obtain ⟨t, htokens', ht, -⟩ := h.exists_token
  obtain rfl := Except.ok.inj (htokens'.symm.trans htokens)
  rw [he.head_of_isArithmetic rfl t rfl] at ht
  cases ht

/-- Operands and truth values are booleans. -/
theorem exists_boolean (h : IsOperand text e ∨ IsTruthValue text e) :
    ∃ ts d w, tokenize text = .ok ts ∧ Derives .boolean ts e d w := by
  rcases h with ⟨ts, d, w, htokens, he⟩ | h
  · exact ⟨ts, d, w, htokens, he.boolean_of_operand⟩
  · obtain ⟨t, htokens, -, he⟩ := h.exists_token
    exact ⟨[t], 0, 0, htokens, he⟩

private theorem kind_of_equalSign {cs : List Char} (htext : text.toList = '=' :: cs)
    (h : tokenize text = .ok (t :: ts)) : t.kind = .equal ∨ t.kind = .unknown := by
  obtain ⟨lexeme, hread, hkind⟩ : ∃ lexeme, Lexeme.read '=' cs = .ok lexeme ∧
      (lexeme.kind = .equal ∨ lexeme.kind = .unknown) := by
    cases cs with
    | nil => exact ⟨_, rfl, .inr rfl⟩
    | cons c cs =>
      by_cases hc : c = '='
      · subst hc
        exact ⟨_, rfl, .inl rfl⟩
      · refine ⟨.verbatim .unknown ['='], ?_, .inr rfl⟩
        simp [Lexeme.read, Lexeme.readOperator?, Lexeme.doubleKind?, Lexeme.singleKind?, hc]
  have htokens := tokens_of_tokenize h
  rw [htext, TokenStream.read, TokenStream.readFrom_token 0 0 (by decide) hread] at htokens
  obtain ⟨rfl, -⟩ := List.cons.inj htokens
  exact hkind

private theorem head_ne_equalSign (htokens : tokenize text = .ok ts) (h : Derives .boolean ts e d w)
    (rest : List Char) : ∀ c ∈ (text.toList ++ rest).head?, c ≠ '=' := by
  obtain ⟨first, us, rfl, hopens⟩ := h.opening
  rintro c hc rfl
  cases htext : text.toList with
  | nil =>
    have hnone := tokens_of_tokenize htokens
    rw [htext] at hnone
    cases hnone
  | cons c' cs =>
    rw [htext] at hc
    obtain rfl := Option.some.inj hc
    rcases kind_of_equalSign htext htokens with hk | hk <;> rw [hk] at hopens <;> cases hopens

/-! ### Operations behind a mark -/

section

variable {op : BinOp} {x y : String} {left right : Expr}

private theorem tokenize_marked (op : BinOp) {mark content : String} {kind : TokenKind} (hx : tokenize x = .ok ts)
    (hy : tokenize y = .ok us) (hmark : ∀ rest, Spells mark.toList (x.toList ++ rest) kind content) :
    ∃ n ts' t us', tokenize (mark ++ x ++ (" " ++ op.symbol ++ " ") ++ y) = .ok (n :: (ts' ++ t :: us')) ∧
      n.kind = kind ∧ t.kind = op.kind ∧ ts'.map Token.content = ts.map Token.content ∧
      us'.map Token.content = us.map Token.content := by
  have hfirst := (hmark ((" " ++ op.symbol ++ " ").toList ++ (y.toList ++ []))).covers 0
  have hleft := hfirst.append (covers_of_tokenize hx (0 + mark.toList.length) (delimited_spaced op _))
  rw [← String.toList_append] at hleft
  obtain ⟨t, us', ht, hus, hwhole⟩ := tokenize_operation op hy hleft
  exact ⟨_, _, t, us', hwhole, rfl, ht, Relocation.contents_shift _ ts, hus⟩

private theorem accepted_iff (htokens : tokenize text = .ok ts) (h : Derives (.chain .logical) ts e d w) {e' : Expr} :
    (∃ limits, Expr.parseWith limits text = .ok e') ↔ e' = e := by
  have hsentence : Sentence ⟨d, w⟩ text e := ⟨ts, d, w, htokens, h, Nat.le_refl d, Nat.le_refl w⟩
  constructor
  · rintro ⟨limits, h'⟩
    exact (sentence_of_parseWith h').unique hsentence
  · rintro rfl
    exact ⟨_, parseWith_of_sentence hsentence⟩

/-- A text with a truth value next to a symbol of arithmetic is never accepted. -/
private theorem not_accepted (front : List Token) (htokens : tokenize text = .ok (front ++ t :: u :: us))
    (h : ¬Adjoin t u) {e' : Expr} : ¬∃ limits, Expr.parseWith limits text = .ok e' := by
  rintro ⟨limits, haccepted⟩
  obtain ⟨all, d, w, hall, he, -, -⟩ := sentence_of_parseWith haccepted
  obtain rfl := Except.ok.inj (htokens.symm.trans hall)
  exact h (List.isChain_append_cons_cons.1 he.adjoining).2.1

private theorem IsTruthValue.eq_singleton (h : IsTruthValue text e) (htokens : tokenize text = .ok ts)
    (hus : us.map Token.content = ts.map Token.content) : ∃ t, us = [t] ∧ t.kind.isTruthWord := by
  obtain ⟨t, htokens', ht, -⟩ := h.exists_token
  obtain rfl := Except.ok.inj (htokens'.symm.trans htokens)
  obtain ⟨u, rfl, hu⟩ := List.map_eq_singleton_iff.1 hus
  have hkind : u.kind = t.kind := congrArg Prod.fst hu
  exact ⟨u, rfl, by rw [hkind, ht]⟩

private theorem IsOperand.derives (h : IsOperand text e) (htokens : tokenize text = .ok ts)
    (hus : us.map Token.content = ts.map Token.content) : ∃ d w, Derives .operand us e d w := by
  obtain ⟨ts', d, w, htokens', he⟩ := h
  obtain rfl := Except.ok.inj (htokens'.symm.trans htokens)
  exact ⟨d, w, he.of_contents hus⟩

private theorem isArithmetic_kind (hop : op.isArithmetic) : op.kind.isArithmetic := by
  cases op <;> first | rfl | cases hop

/-- On the right of an operator of arithmetic stand operands, of any other one truth values too. -/
private theorem exists_right (hy : IsOperand y right ∨ IsTruthValue y right)
    (hlegal : op.isArithmetic → IsOperand y right) (htokens : tokenize y = .ok ts)
    (hus : us.map Token.content = ts.map Token.content) : ∃ d w, Derives op.level.operand us right d w := by
  cases hop : op.isArithmetic with
  | true =>
    obtain ⟨d, w, he⟩ := (hlegal hop).derives htokens hus
    exact ⟨d, w, he.operand_of_operand op.level⟩
  | false =>
    obtain ⟨ts', d, w, htokens', he⟩ := exists_boolean hy
    obtain rfl := Except.ok.inj (htokens'.symm.trans htokens)
    exact ⟨d, w, .operand_of_boolean hop (he.of_contents hus)⟩

variable (hx : IsOperand x left ∨ IsTruthValue x left) (hy : IsOperand y right ∨ IsTruthValue y right)
include hx hy

/-- A `!` takes the left operand of an operation that is not one of arithmetic. -/
private theorem accepted_not_iff (hop : op.isArithmetic = false) :
    (∃ limits, Expr.parseWith limits ("!" ++ x ++ (" " ++ op.symbol ++ " ") ++ y) = .ok e) ↔
      e = .binary op (.not left) right := by
  obtain ⟨ts, d, w, hts, hl⟩ := exists_boolean hx
  obtain ⟨us, d', w', hus, hr⟩ := exists_boolean hy
  obtain ⟨n, ts', t, us', htokens, hn, ht, hleft, hright⟩ :=
    tokenize_marked op hts hus fun rest => spells_not (head_ne_equalSign hts hl rest)
  have hnegation : Derives .boolean (n :: ts') (.not left) (d + 1) w := .negation n hn (hl.of_contents hleft)
  exact accepted_iff htokens (.expression_of_chain (.operation (.operand_of_boolean hop hnegation) ht
    (.operand_of_boolean hop (hr.of_contents hright))))

/-- A `!` takes all of an operation of arithmetic, if it is one: its operands must be no truth values. -/
private theorem accepted_not_arithmetic_iff (hop : op.isArithmetic) :
    (∃ limits, Expr.parseWith limits ("!" ++ x ++ (" " ++ op.symbol ++ " ") ++ y) = .ok e) ↔
      IsOperand x left ∧ IsOperand y right ∧ e = .not (.binary op left right) := by
  obtain ⟨ts, d, w, hts, hl⟩ := exists_boolean hx
  obtain ⟨us, d', w', hus, hr⟩ := exists_boolean hy
  obtain ⟨n, ts', t, us', htokens, hn, ht, hleft, hright⟩ :=
    tokenize_marked op hts hus fun rest => spells_not (head_ne_equalSign hts hl rest)
  have hsymbol : t.kind.isArithmetic := ht ▸ isArithmetic_kind hop
  rcases hx with hx | hx
  · rcases hy with hy | hy
    · obtain ⟨dl, wl, hl'⟩ := hx.derives hts hleft
      obtain ⟨dr, wr, hr'⟩ := hy.derives hus hright
      have hoperation : Derives (.chain op.level) (ts' ++ t :: us') (.binary op left right) _ _ :=
        .operation (hl'.operand_of_operand _) ht (hr'.operand_of_operand _)
      rw [accepted_iff htokens (.expression_of_boolean (.negation n hn (.boolean_of_arithmetic hop hoperation)))]
      exact ⟨fun h => ⟨hx, hy, h⟩, fun h => h.2.2⟩
    · obtain ⟨u, rfl, hu⟩ := hy.eq_singleton hus hright
      exact iff_of_false (not_accepted (n :: ts') htokens fun h => h.2 ⟨hsymbol, hu⟩) fun h => hy.not_isOperand h.2.1
  · obtain ⟨u, rfl, hu⟩ := hx.eq_singleton hts hleft
    exact iff_of_false (not_accepted [n] htokens fun h => h.1 ⟨hu, hsymbol⟩) fun h => hx.not_isOperand h.1

private theorem accepted_sign_iff (sign : Sign) :
    (∃ limits, Expr.parseWith limits (sign.symbol ++ x ++ (" " ++ op.symbol ++ " ") ++ y) = .ok e) ↔
      IsOperand x left ∧ (op.isArithmetic → IsOperand y right) ∧ e = .binary op (.signed sign left) right := by
  obtain ⟨ts, d, w, hts, hl⟩ := exists_boolean hx
  obtain ⟨us, d', w', hus, hr⟩ := exists_boolean hy
  obtain ⟨n, ts', t, us', htokens, hn, ht, hleft, hright⟩ :=
    tokenize_marked op hts hus fun rest => sign.spells (x.toList ++ rest)
  have hsign : Sign.ofKind? n.kind = some sign := hn ▸ sign.ofKind?_kind
  rcases hx with hx | hx
  · obtain ⟨dl, wl, hl'⟩ := hx.derives hts hleft
    by_cases hlegal : op.isArithmetic → IsOperand y right
    · obtain ⟨dr, wr, hr'⟩ := exists_right hy hlegal hus hright
      have hsigned : Derives .signed (n :: ts') (.signed sign left) (dl + 1) wl := .sign n hsign hl'
      rw [accepted_iff htokens (.expression_of_chain (.operation (hsigned.operand_of_signed _) ht hr'))]
      exact ⟨fun h => ⟨hx, hlegal, h⟩, fun h => h.2.2⟩
    · obtain ⟨hop, hno⟩ := Classical.not_imp.1 hlegal
      obtain ⟨u, rfl, hu⟩ := (hy.resolve_left hno).eq_singleton hus hright
      have hsymbol : t.kind.isArithmetic := ht ▸ isArithmetic_kind hop
      exact iff_of_false (not_accepted (n :: ts') htokens fun h => h.2 ⟨hsymbol, hu⟩) fun h => hlegal h.2.1
  · obtain ⟨u, rfl, hu⟩ := hx.eq_singleton hts hleft
    have hsymbol : n.kind.isArithmetic := by
      rw [hn]
      cases sign <;> rfl
    exact iff_of_false (not_accepted [] htokens fun h => h.2 ⟨hsymbol, hu⟩) fun h => hx.not_isOperand h.1

end

/-- The negation of an operation of arithmetic has no value: it asks for a boolean and gets a number. -/
private theorem eval_not_arithmetic {op : BinOp} (hop : op.isArithmetic) (left right : Expr) (doc : Document)
    (v : Value) : (Expr.not (.binary op left right)).eval doc ≠ .ok v := by
  rw [Expr.eval_not, Expr.eval_binary]
  cases op with
  | add | subtract | multiply | divide =>
    cases left.eval doc with
    | error e => rintro ⟨⟩
    | ok u => cases right.eval doc <;> rintro ⟨⟩
  | and | or | equal | notEqual | less | greater | lessEqual | greaterEqual => cases hop

/-- How far a mark in front of an operation reaches, where the operands `x` and `y` of the operation are strings, field
paths, `null`, numbers, accepted texts in parentheses, or truth values.  A `!` takes `x` if the operator is a comparison
or a logical one, and the tree is the operation on the negation.  If the operator is one of arithmetic then the `!`
takes the operation, and the tree is its negation, which has no value over any document; with a truth value for an
operand the text is not accepted under any limits.  A sign takes `x` before every operator, unless `x` is a truth
value, or `y` is one and the operator one of arithmetic; then the text is never accepted. -/
theorem parseWith_marked (op : BinOp) {x y : String} {left right : Expr}
    (hx : IsOperand x left ∨ IsTruthValue x left) (hy : IsOperand y right ∨ IsTruthValue y right) :
    (op.isArithmetic = false → ∀ e,
      (∃ limits, Expr.parseWith limits ("!" ++ x ++ (" " ++ op.symbol ++ " ") ++ y) = .ok e) ↔
        e = .binary op (.not left) right) ∧
    (op.isArithmetic →
      (∀ e, (∃ limits, Expr.parseWith limits ("!" ++ x ++ (" " ++ op.symbol ++ " ") ++ y) = .ok e) ↔
        IsOperand x left ∧ IsOperand y right ∧ e = .not (.binary op left right)) ∧
      ∀ doc v, (Expr.not (.binary op left right)).eval doc ≠ .ok v) ∧
    ∀ (sign : Sign) e,
      (∃ limits, Expr.parseWith limits (sign.symbol ++ x ++ (" " ++ op.symbol ++ " ") ++ y) = .ok e) ↔
        IsOperand x left ∧ (op.isArithmetic → IsOperand y right) ∧ e = .binary op (.signed sign left) right :=
  ⟨fun hop _ => accepted_not_iff hx hy hop,
    fun hop => ⟨fun _ => accepted_not_arithmetic_iff hx hy hop, eval_not_arithmetic hop left right⟩,
    fun sign _ => accepted_sign_iff hx hy sign⟩

/-- A group and a truth value, with `==` and with `*` between them. -/
theorem parseWith_marked_group :
    let group : Expr := .binary .or (.field (.last "a")) (.field (.last "b"))
    let c : Expr := .field (.last "c")
    IsOperand "(a | b)" group ∧ IsOperand "c" c ∧ IsTruthValue "true" (.bool true) ∧
      (∃ limits, Expr.parseWith limits "!(a | b) == true" = .ok (.binary .equal (.not group) (.bool true))) ∧
      (∃ limits, Expr.parseWith limits "!(a | b) * c" = .ok (.not (.binary .multiply group c))) ∧
      (∃ limits, Expr.parseWith limits "-(a | b) * c" = .ok (.binary .multiply (.signed .minus group) c)) ∧
      ∀ e, ¬∃ limits, Expr.parseWith limits "!(a | b) * true" = .ok e := by
  intro group c
  have haccepted : Expr.parseWith .standard "a | b" = .ok group := rfl
  have hgroup : IsOperand "(a | b)" group := isOperand_enclose haccepted
  have hpath : DerivesPath [⟨.identifier, "c", 0, 1⟩] (.last "c") 0 := .last _ rfl
  have hc : IsOperand "c" c := ⟨_, 0, 0, rfl, .path hpath⟩
  have htrue : IsTruthValue "true" (.bool true) := ⟨⟨.trueWord, "true", 0, 4⟩, true, rfl, rfl, rfl⟩
  have hequal := parseWith_marked .equal (.inl hgroup) (.inr htrue)
  have hmultiply := parseWith_marked .multiply (.inl hgroup) (.inl hc)
  have htruth := parseWith_marked .multiply (.inl hgroup) (.inr htrue)
  refine ⟨hgroup, hc, htrue, (hequal.1 rfl _).2 rfl, ((hmultiply.2.1 rfl).1 _).2 ⟨hgroup, hc, rfl⟩,
    (hmultiply.2.2 .minus _).2 ⟨hgroup, fun _ => hc, rfl⟩, fun e haccepted => ?_⟩
  exact htrue.not_isOperand (((htruth.2.1 rfl).1 e).1 haccepted).2.1

/-- Before a sum the `!` does not take the operand behind it, as a sign does. -/
theorem not_takes_sum :
    let a : Expr := .field (.last "a")
    let b : Expr := .field (.last "b")
    IsOperand "a" a ∧ IsOperand "b" b ∧
      Expr.parseWith .standard "!a + b" = .ok (.not (.binary .add a b)) ∧
      Expr.not (.binary .add a b) ≠ .binary .add (.not a) b ∧
      Expr.parseWith .standard "-a + b" = .ok (.binary .add (.signed .minus a) b) :=
  ⟨⟨[⟨.identifier, "a", 0, 1⟩], 0, 0, rfl, .path (.last _ rfl)⟩,
    ⟨[⟨.identifier, "b", 0, 1⟩], 0, 0, rfl, .path (.last _ rfl)⟩, rfl, nofun, rfl⟩

end Grammar
end DocFilter
