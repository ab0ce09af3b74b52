import DocFilter.Proofs.Grammar.Reporting
import DocFilter.Proofs.Token.Radix
import DocFilter.Proofs.Token.Tiling

/-!
# Integers without values

An integer token without a value ends the whole parse where a number may stand: no alternative is tried, and nothing
behind the token is looked at (`parseWith_invalidNumber`).  The proof compares two runs of a rule, on streams with
tokens of the same kinds up to such a token; in the second stream a number may stand in its place.  As long as the first
run has not come to the token both have the same fate, unless the second fails on a token of its own; once it has come
there it fails, and the error goes through all rules unchanged.

The error names nothing but such tokens (`literal_of_invalidNumber`): no rule rejects a literal that has a value.
-/

namespace DocFilter

/-- If the token is of a kind of number then it is one. -/
def Token.HasValue (t : Token) : Prop :=
  (t.kind = .integer → ∃ n, Numeral.integer? t.text.toList = some n) ∧
    (t.kind = .decimal → ∃ x, Numeral.decimal? t.text.toList = some x)

namespace Grammar

/-- The streams have tokens of the same kinds at their heads up to the token `bad` of the first one, and the tokens of
the first one before it have values. -/
inductive AgreesUpTo (bad : Token) : TokenStream → TokenStream → Prop where
  | here (start start' : Nat) {head' : Token} (hkind : bad.kind = head'.kind) (rest rest' : TokenStream) :
      AgreesUpTo bad (.token start bad rest) (.token start' head' rest')
  | token (start start' : Nat) {head head' : Token} (hkind : head.kind = head'.kind) (hvalue : head.HasValue)
      {rest rest' : TokenStream} (h : AgreesUpTo bad rest rest') :
      AgreesUpTo bad (.token start head rest) (.token start' head' rest')

/-- How the answers of two runs on such streams are bound: unless the second is an error, the first has come to `bad`
and fails on it, or both leave streams that agree again. -/
inductive Halting (bad : Token) {α : Type} :
    Except ParseError (α × TokenStream) → Except ParseError (α × TokenStream) → Prop where
  | ok (a a' : α) {rest rest' : TokenStream} (h : AgreesUpTo bad rest rest') :
      Halting bad (.ok (a, rest)) (.ok (a', rest'))
  | halted (y : Except ParseError (α × TokenStream)) : Halting bad (.error (.invalidNumber bad)) y
  | failed (x : Except ParseError (α × TokenStream)) (e : ParseError) : Halting bad x (.error e)

/-- The answers of the rules on two streams that agree are bound. -/
def RuleHalts (bad : Token) {α : Type} (rule rule' : Rule α) : Prop :=
  ∀ ⦃stream stream' : TokenStream⦄, AgreesUpTo bad stream stream' → Halting bad (rule stream) (rule' stream')

variable {bad : Token} {stream stream' rest : TokenStream} {α β : Type}

theorem Halting.bind {x y : Except ParseError (α × TokenStream)}
    {f f' : α × TokenStream → Except ParseError (β × TokenStream)} (h : Halting bad x y)
    (hf : ∀ a a' rest rest', AgreesUpTo bad rest rest' → Halting bad (f (a, rest)) (f' (a', rest'))) :
    Halting bad (x >>= f) (y >>= f') := by
  cases h with
  | ok a a' h => exact hf a a' _ _ h
  | halted y => exact .halted _
  | failed x e => exact .failed _ e

/-! ### Building blocks -/

private theorem operator?_integer (level : Level) : level.operator? .integer = none := by
  cases level <;> rfl

section

variable (hbad : bad.kind = .integer) (hvalue : Numeral.integer? bad.text.toList = none)
include hbad

/-- Streams that agree begin with tokens of the same kind.  They agree behind them too, unless the first one is `bad`;
so they do if it is no integer. -/
theorem AgreesUpTo.cases_head (h : AgreesUpTo bad stream stream') :
    ∃ start start' head head' rest rest', stream = .token start head rest ∧ stream' = .token start' head' rest' ∧
      head.kind = head'.kind ∧ (head.kind ≠ .integer → AgreesUpTo bad rest rest') ∧
      (head = bad ∨ head.HasValue ∧ AgreesUpTo bad rest rest') := by
  cases h with
  | here start start' hkind rest rest' =>
    exact ⟨_, _, _, _, rest, rest', rfl, rfl, hkind, fun hk => absurd hbad hk, .inl rfl⟩
  | token start start' hkind hvalue h => exact ⟨_, _, _, _, _, _, rfl, rfl, hkind, fun _ => h, .inr ⟨hvalue, h⟩⟩

theorem expect_halts {k : TokenKind} (hk : k ≠ .integer) : RuleHalts bad (Rule.expect k) (Rule.expect k) := by
  intro stream stream' h
  obtain ⟨start, start', head, head', rest, rest', rfl, rfl, hkind, hrest, -⟩ := h.cases_head hbad
  rw [Rule.expect, Rule.expect, ← hkind]
  split
  · rename_i hk'
    exact .ok head head' (hrest (hk' ▸ hk))
  · exact .failed _ _

theorem chainFrom_halts (limits : Limits) (level : Level) {operand : Rule Expr} (h : RuleHalts bad operand operand)
    (budget : Nat) (left left' : Expr) :
    RuleHalts bad (Rule.chainFrom limits level.operator? operand budget left)
      (Rule.chainFrom limits level.operator? operand budget left') := by
  induction budget generalizing left left' with
  | zero =>
    intro stream stream' hstream
    obtain ⟨start, start', head, head', rest, rest', rfl, rfl, hkind, -⟩ := hstream.cases_head hbad
    rw [Rule.chainFrom, Rule.chainFrom, Rule.operatorAhead?, Rule.operatorAhead?, ← hkind]
    cases level.operator? head.kind with
    | none => exact .ok left left' hstream
    | some op => exact .failed _ _
  | succ budget ih =>
    intro stream stream' hstream
    obtain ⟨start, start', head, head', rest, rest', rfl, rfl, hkind, hrest, -⟩ := hstream.cases_head hbad
    rw [Rule.chainFrom, Rule.chainFrom, Rule.operatorAhead?, Rule.operatorAhead?, ← hkind]
    cases hop : level.operator? head.kind with
    | none => exact .ok left left' hstream
    | some op =>
      have hother : head.kind ≠ .integer := by
        intro hk
        rw [hk, operator?_integer] at hop
        cases hop
      exact (h (hrest hother)).bind fun right right' behind behind' hbehind => ih _ _ hbehind

theorem chain_halts (limits : Limits) (level : Level) {operand : Rule Expr} (h : RuleHalts bad operand operand) :
    RuleHalts bad (Rule.chain limits level.operator? operand) (Rule.chain limits level.operator? operand) := by
  intro stream stream' hstream
  exact (h hstream).bind fun left left' rest rest' hrest =>
    chainFrom_halts hbad limits level h limits.maxChain left left' hrest

theorem pathFrom_halts (limits : Limits) (budget : Nat) (key key' : String) :
    RuleHalts bad (Rule.pathFrom limits budget key) (Rule.pathFrom limits budget key') := by
  induction budget generalizing key key' with
  | zero =>
    intro stream stream' hstream
    obtain ⟨start, start', head, head', rest, rest', rfl, rfl, hkind, -⟩ := hstream.cases_head hbad
    rw [Rule.pathFrom, Rule.pathFrom, Rule.behindDot?, Rule.behindDot?, ← hkind]
    by_cases hdot : head.kind = .dot
    · rw [if_pos hdot, if_pos hdot]
      exact .failed _ _
    · rw [if_neg hdot, if_neg hdot]
      exact .ok _ _ hstream
  | succ budget ih =>
    intro stream stream' hstream
    obtain ⟨start, start', head, head', rest, rest', rfl, rfl, hkind, hrest, -⟩ := hstream.cases_head hbad
    rw [Rule.pathFrom, Rule.pathFrom, Rule.behindDot?, Rule.behindDot?, ← hkind]
    by_cases hdot : head.kind = .dot
    · rw [if_pos hdot, if_pos hdot]
      have hbehind := hrest (by rw [hdot]; decide)
      refine (expect_halts hbad (by decide) hbehind).bind fun next next' behind behind' hbehind => ?_
      exact (ih next.text next'.text hbehind).bind fun path path' rest rest' hrest => .ok _ _ hrest
    · rw [if_neg hdot, if_neg hdot]
      exact .ok _ _ hstream

theorem path_halts (limits : Limits) : RuleHalts bad (Rule.path limits) (Rule.path limits) := by
  intro stream stream' hstream
  exact (expect_halts hbad (by decide) hstream).bind fun first first' rest rest' hrest =>
    pathFrom_halts hbad limits limits.maxChain first.text first'.text hrest

omit hbad in
private theorem number_halts {head : Token} {value? : Option Float} (value?' : Option Float) (head' : Token)
    {rest rest' : TokenStream}
    (h : head = bad ∧ value? = none ∨ (∃ x, value? = some x) ∧ AgreesUpTo bad rest rest') :
    Halting bad ((Rule.number head value?).map fun e => (e, rest))
      ((Rule.number head' value?').map fun e => (e, rest')) := by
  rcases h with ⟨rfl, rfl⟩ | ⟨⟨x, rfl⟩, hrest⟩
  · exact .halted _
  · cases value?' with
    | none => exact .failed _ _
    | some x' => exact .ok _ _ hrest

include hvalue in
theorem primary_halts (limits : Limits) {group : Rule Expr} (h : RuleHalts bad group group) :
    RuleHalts bad (Rule.primary limits group) (Rule.primary limits group) := by
  intro stream stream' hstream
  obtain ⟨start, start', head, head', rest, rest', rfl, rfl, hkind, hrest, hcases⟩ := hstream.cases_head hbad
  rw [Rule.primary, Rule.primary, ← hkind]
  split
  · rename_i hk
    exact .ok _ _ (hrest (by rw [hk]; decide))
  · have hpath := path_halts hbad limits hstream
    revert hpath
    generalize Rule.path limits (.token start head rest) = x
    generalize Rule.path limits (.token start' head' rest') = y
    rintro (⟨path, path', hbehind⟩ | ⟨_⟩ | ⟨_, e⟩)
    · exact .ok _ _ hbehind
    · exact .halted _
    · exact .failed _ _
  · rename_i hk
    exact .ok _ _ (hrest (by rw [hk]; decide))
  · rename_i hk
    rcases hcases with rfl | ⟨hnumber, hbehind⟩
    · exact absurd (hk.symm.trans hbad) (by decide)
    · obtain ⟨x, hx⟩ := hnumber.2 hk
      exact number_halts _ _ (.inr ⟨⟨_, by rw [hx]; rfl⟩, hbehind⟩)
  · rename_i hk
    rcases hcases with rfl | ⟨hnumber, hbehind⟩
    · exact number_halts _ _ (.inl ⟨rfl, by rw [hvalue]; rfl⟩)
    · obtain ⟨n, hn⟩ := hnumber.1 hk
      exact number_halts _ _ (.inr ⟨⟨_, by rw [hn]; rfl⟩, hbehind⟩)
  · rename_i hk
    refine (h (hrest (by rw [hk]; decide))).bind fun inner inner' behind behind' hbehind => ?_
    exact (expect_halts hbad (by decide) hbehind).bind fun _ _ rest rest' hrest => .ok inner inner' hrest
  · exact .failed _ _

theorem signed_halts {operand deeper : Rule Expr} (h : RuleHalts bad operand operand)
    (hdeeper : RuleHalts bad deeper deeper) :
    RuleHalts bad (Rule.signed operand deeper) (Rule.signed operand deeper) := by
  intro stream stream' hstream
  obtain ⟨start, start', head, head', rest, rest', rfl, rfl, hkind, hrest, -⟩ := hstream.cases_head hbad
  rw [Rule.signed, Rule.signed, ← hkind]
  split
  · rename_i sign hsign
    have hother : head.kind ≠ .integer := by
      intro hk
      rw [hk] at hsign
      cases hsign
    exact (hdeeper (hrest hother)).bind fun e e' rest rest' hrest => .ok _ _ hrest
  · exact h hstream

theorem boolean_halts {arithmetic deeper : Rule Expr} (h : RuleHalts bad arithmetic arithmetic)
    (hdeeper : RuleHalts bad deeper deeper) :
    RuleHalts bad (Rule.boolean arithmetic deeper) (Rule.boolean arithmetic deeper) := by
  intro stream stream' hstream
  obtain ⟨start, start', head, head', rest, rest', rfl, rfl, hkind, hrest, -⟩ := hstream.cases_head hbad
  rw [Rule.boolean, Rule.boolean, ← hkind]
  split
  · rename_i hk
    exact .ok _ _ (hrest (by rw [hk]; decide))
  · rename_i hk
    exact .ok _ _ (hrest (by rw [hk]; decide))
  · rename_i hk
    exact (hdeeper (hrest (by rw [hk]; decide))).bind fun e e' rest rest' hrest => .ok _ _ hrest
  · exact h hstream
  · have hsum := h hstream
    revert hsum
    generalize arithmetic (.token start head rest) = x
    generalize arithmetic (.token start' head' rest') = y
    -- a bad number is no error that another alternative could repair
    rintro (⟨e, e', hbehind⟩ | ⟨_⟩ | ⟨_, e⟩)
    · exact .ok e e' hbehind
    · exact .halted _
    · exact .failed _ _

/-! ### The grammar -/

include hvalue in
theorem expression_halts (limits : Limits) (levels : Nat) :
    RuleHalts bad (expression limits levels) (expression limits levels) := by
  refine (rule_induction limits (P := fun _ _ rule => RuleHalts bad rule rule) ?_ ?_ ?_ ?_ ?_ levels).2.2
  · exact fun _ _ _ _ => .failed _ _
  · exact fun level _ _ h => chain_halts hbad limits level h
  · exact fun h => primary_halts hbad hvalue limits h
  · exact fun h hdeeper => signed_halts hbad h hdeeper
  · exact fun h hdeeper => boolean_halts hbad h hdeeper

end

/-! ### Rejected literals -/

/-- The rule rejects a literal only if it is no number. -/
def RejectsOnlyBad {α : Type} (rule : Rule α) : Prop :=
  ∀ ⦃stream : TokenStream⦄ ⦃literal : Token⦄, rule stream = .error (.invalidNumber literal) → ¬literal.HasValue

theorem expect_rejectsOnlyBad (k : TokenKind) : RejectsOnlyBad (Rule.expect k) := by
  intro stream literal h
  cases stream with
  | stop start reason => cases reason <;> cases h
  | token start head rest =>
    rw [Rule.expect] at h
    split at h <;> cases h

theorem chainFrom_rejectsOnlyBad (limits : Limits) (operator? : TokenKind → Option BinOp) {operand : Rule Expr}
    (h : RejectsOnlyBad operand) (budget : Nat) (left : Expr) :
    RejectsOnlyBad (Rule.chainFrom limits operator? operand budget left) := by
  induction budget generalizing left with
  | zero =>
    intro stream literal herror
    rw [Rule.chainFrom] at herror
    split at herror <;> cases herror
  | succ budget ih =>
    intro stream literal herror
    rw [Rule.chainFrom] at herror
    split at herror
    · cases herror
    · rcases bind_eq_error herror with hright | ⟨p, -, hmore⟩
      · exact h hright
      · exact ih _ hmore

theorem chain_rejectsOnlyBad (limits : Limits) (operator? : TokenKind → Option BinOp) {operand : Rule Expr}
    (h : RejectsOnlyBad operand) : RejectsOnlyBad (Rule.chain limits operator? operand) := by
  intro stream literal herror
  rcases bind_eq_error herror with hleft | ⟨p, -, hmore⟩
  · exact h hleft
  · exact chainFrom_rejectsOnlyBad limits operator? h limits.maxChain p.1 hmore

theorem pathFrom_rejectsOnlyBad (limits : Limits) (budget : Nat) (key : String) :
    RejectsOnlyBad (Rule.pathFrom limits budget key) := by
  induction budget generalizing key with
  | zero =>
    intro stream literal herror
    rw [Rule.pathFrom] at herror
    split at herror <;> cases herror
  | succ budget ih =>
    intro stream literal herror
    rw [Rule.pathFrom] at herror
    split at herror
    · cases herror
    · rcases bind_eq_error herror with hnext | ⟨p, -, hmore⟩
      · exact expect_rejectsOnlyBad .identifier hnext
      · rcases bind_eq_error hmore with hpath | ⟨p', -, hreturn⟩
        · exact ih _ hpath
        · cases hreturn

theorem path_rejectsOnlyBad (limits : Limits) : RejectsOnlyBad (Rule.path limits) := by
  intro stream literal herror
  rcases bind_eq_error herror with hfirst | ⟨p, -, hmore⟩
  · exact expect_rejectsOnlyBad .identifier hfirst
  · exact pathFrom_rejectsOnlyBad limits limits.maxChain p.1.text hmore

private theorem number_eq_error {t literal : Token} {value? : Option Float}
    (h : Rule.number t value? = .error (.invalidNumber literal)) : literal = t ∧ value? = none := by
  cases value? with
  | some x => cases h
  | none => exact ⟨(ParseError.invalidNumber.inj (Except.error.inj h)).symm, rfl⟩

theorem primary_rejectsOnlyBad (limits : Limits) {group : Rule Expr} (h : RejectsOnlyBad group) :
    RejectsOnlyBad (Rule.primary limits group) := by
  intro stream literal herror
  cases stream with
  | stop start reason => cases reason <;> cases herror
  | token start head rest =>
    rw [Rule.primary] at herror
    split at herror
    · cases herror
    · split at herror
      · cases herror
      · rename_i e hpath
        split at herror
        · cases herror
        · obtain rfl := Except.error.inj herror
          exact path_rejectsOnlyBad limits hpath
    · cases herror
    · rename_i hk
      obtain ⟨rfl, hnone⟩ := number_eq_error (map_eq_error herror)
      rintro ⟨-, hdecimal⟩
      obtain ⟨x, hx⟩ := hdecimal hk
      rw [hx] at hnone
      cases hnone
    · rename_i hk
      obtain ⟨rfl, hnone⟩ := number_eq_error (map_eq_error herror)
      rintro ⟨hinteger, -⟩
      obtain ⟨n, hn⟩ := hinteger hk
      rw [hn] at hnone
      cases hnone
    · rcases bind_eq_error herror with hgroup | ⟨p, -, hmore⟩
      · exact h hgroup
      · rcases bind_eq_error hmore with hclosing | ⟨p', -, hreturn⟩
        · exact expect_rejectsOnlyBad .rightParen hclosing
        · cases hreturn
    · cases herror

theorem signed_rejectsOnlyBad {operand deeper : Rule Expr} (h : RejectsOnlyBad operand)
    (hdeeper : RejectsOnlyBad deeper) : RejectsOnlyBad (Rule.signed operand deeper) := by
  intro stream literal herror
  cases stream with
  | stop start reason => cases reason <;> cases herror
  | token start head rest =>
    rw [Rule.signed] at herror
    split at herror
    · rcases bind_eq_error herror with hoperand | ⟨p, -, hreturn⟩
      · exact hdeeper hoperand
      · cases hreturn
    · exact h herror

theorem boolean_rejectsOnlyBad {arithmetic deeper : Rule Expr} (h : RejectsOnlyBad arithmetic)
    (hdeeper : RejectsOnlyBad deeper) : RejectsOnlyBad (Rule.boolean arithmetic deeper) := by
  intro stream literal herror
  cases stream with
  | stop start reason => cases reason <;> cases herror
  | token start head rest =>
    rw [Rule.boolean] at herror
    split at herror
    · cases herror
    · cases herror
    · rcases bind_eq_error herror with hoperand | ⟨p, -, hreturn⟩
      · exact hdeeper hoperand
      · cases hreturn
    · exact h herror
    · split at herror
      · cases herror
      · rename_i e hsum
        split at herror
        · cases herror
        · obtain rfl := Except.error.inj herror
          exact h hsum

theorem expression_rejectsOnlyBad (limits : Limits) (levels : Nat) : RejectsOnlyBad (expression limits levels) := by
  refine (rule_induction limits (P := fun _ _ rule => RejectsOnlyBad rule) ?_ ?_ ?_ ?_ ?_ levels).2.2
  · exact fun _ _ _ h => by cases h
  · exact fun level _ _ h => chain_rejectsOnlyBad limits level.operator? h
  · exact fun h => primary_rejectsOnlyBad limits h
  · exact fun h hdeeper => signed_rejectsOnlyBad h hdeeper
  · exact fun h hdeeper => boolean_rejectsOnlyBad h hdeeper

/-! ### Texts -/

/-- Passages over tokens of the same kinds lead from streams that agree, if what is passed before `bad` has values. -/
private theorem AgreesUpTo.of_passes {ts us : List Token} {stream' rest' : TokenStream}
    (h : stream.Passes (ts ++ [bad]) rest) (h' : stream'.Passes us rest')
    (hkinds : (ts ++ [bad]).map Token.kind <+: us.map Token.kind) (hvalues : ∀ t ∈ ts, t.HasValue) :
    AgreesUpTo bad stream stream' := by
  induction ts generalizing stream us stream' with
  | nil =>
    obtain ⟨start, next, rfl, -⟩ := TokenStream.Passes.cons_iff.1 h
    cases us with
    | nil => simp at hkinds
    | cons u us =>
      obtain ⟨start', next', rfl, -⟩ := TokenStream.Passes.cons_iff.1 h'
      exact .here start start' (List.cons_prefix_cons.1 hkinds).1 next next'
  | cons t ts ih =>
    obtain ⟨start, next, rfl, hnext⟩ := TokenStream.Passes.cons_iff.1 h
    cases us with
    | nil => simp at hkinds
    | cons u us =>
      obtain ⟨start', next', rfl, hnext'⟩ := TokenStream.Passes.cons_iff.1 h'
      obtain ⟨hkind, hmore⟩ := List.cons_prefix_cons.1 hkinds
      exact .token start start' hkind (hvalues t (.head _))
        (ih hnext hnext' hmore fun t' ht' => hvalues t' (.tail _ ht'))

private theorem hasValue_of_mem {text : List Char} {t : Token} (ht : t ∈ (TokenStream.read 0 text).tokens)
    (hinteger : t.kind = .integer → ∃ n, Numeral.integer? t.text.toList = some n) : t.HasValue := by
  refine ⟨hinteger, fun hk => ?_⟩
  obtain ⟨c, rest, lexeme, -, hread, hkind, htext, -⟩ := TokenStream.exists_read_of_mem ht
  obtain ⟨span, more, -, -, hlexeme⟩ := Lexeme.exists_isLexeme_of_read hread
  rw [← hkind, ← htext, hk] at hlexeme
  rw [hlexeme.text_eq (by decide), String.toList_ofList]
  exact hlexeme.exists_decimal rfl

/-- An integer token without a value ends the parse where a number may stand, whatever comes behind it. -/
theorem parseWith_invalidNumber {limits : Limits} {text other : String} {ts us : List Token} {e : Expr}
    (hpass : (TokenStream.read 0 text.toList).Passes (ts ++ [bad]) rest) (hbad : bad.kind = .integer)
    (hvalue : Numeral.integer? bad.text.toList = none)
    (hbefore : ∀ t ∈ ts, t.kind = .integer → ∃ n, Numeral.integer? t.text.toList = some n)
    (hother : Expr.parseWith limits other = .ok e) (htokens : tokenize other = .ok us)
    (hkinds : (ts ++ [bad]).map Token.kind <+: us.map Token.kind) :
    Expr.parseWith limits text = .error (.invalidNumber bad) := by
  obtain ⟨all, d, w, hall, he, hd, hw⟩ := sentence_of_parseWith hother
  obtain rfl := Except.ok.inj (htokens.symm.trans hall)
  obtain ⟨start, position, hpass'⟩ := tokenize_eq_ok_iff.1 htokens
  have hread := (rule_complete limits he (limits.maxDepth + 1) _ _ hpass' (Part.endsBefore_stop _ _ _)).1
    ⟨Nat.lt_succ_of_le hd, hw⟩
  have hvalues : ∀ t ∈ ts, t.HasValue := fun t ht => by
    have hmem : t ∈ (TokenStream.read 0 text.toList).tokens := by
      rw [hpass.tokens_eq]
      exact List.mem_append_left _ (List.mem_append_left _ ht)
    exact hasValue_of_mem hmem (hbefore t ht)
  have hhalting := expression_halts hbad hvalue limits (limits.maxDepth + 1)
    (AgreesUpTo.of_passes hpass hpass' hkinds hvalues)
  change Halting bad _ ((Part.chain .logical).rule limits (limits.maxDepth + 1) _) at hhalting
  rw [hread] at hhalting
  rw [parseWith_eq_conclude]
  generalize expression limits (limits.maxDepth + 1) (.read 0 text.toList) = x at hhalting
  cases hhalting with
  | ok a a' h => cases h
  | halted => rfl

/-- A literal that is reported as no number is an integer of the text without a value. -/
theorem literal_of_invalidNumber {limits : Limits} {text : String} {literal : Token}
    (h : Expr.parseWith limits text = .error (.invalidNumber literal)) :
    literal ∈ (TokenStream.read 0 text.toList).tokens ∧ literal.kind = .integer ∧
      Numeral.integer? literal.text.toList = none := by
  have hmem : literal ∈ (TokenStream.read 0 text.toList).tokens := by
    have hreported := parseWith_reported h
    generalize herror : ParseError.invalidNumber literal = e at hreported
    cases hreported with
    | stop => cases hreason : (TokenStream.read 0 text.toList).reason <;> rw [hreason] at herror <;> cases herror
    | limit hlimit =>
      subst herror
      cases hlimit
    | number hmem =>
      obtain rfl := ParseError.invalidNumber.inj herror
      exact hmem
    | unexpected | trailing | alternatives => cases herror
  have hbad : ¬literal.HasValue := by
    rw [parseWith_eq_conclude] at h
    rcases bind_eq_error h with hread | ⟨⟨e, rest⟩, -, hrest⟩
    · exact expression_rejectsOnlyBad limits _ hread
    · unfold conclude at hrest
      split at hrest <;> cases hrest
  by_cases hvalue : literal.kind = .integer → ∃ n, Numeral.integer? literal.text.toList = some n
  · exact absurd (hasValue_of_mem hmem hvalue) hbad
  · obtain ⟨hkind, hnone⟩ := Classical.not_imp.1 hvalue
    exact ⟨hmem, hkind, Option.eq_none_iff_forall_ne_some.2 fun n hn => hnone ⟨n, hn⟩⟩

end Grammar
end DocFilter
