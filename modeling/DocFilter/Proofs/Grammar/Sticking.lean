import DocFilter.Proofs.Grammar.Unfinished

/-!
# Where a rule sticks

A rule that fails for the syntax has passed some tokens and sticks at what stands behind them (`expression_sticks`).
If these tokens do not end in a dot, the place is what the error names: the end of the text or the next token.  Behind a
dot it sticks where no key follows, and the error names the first key of the path.

That nothing else happens behind a dot is because what a rule has read never ends in one (`Derives.not_endsInDot`).
-/

namespace DocFilter

/-- The position that a syntax error names: where the text has ended too early, or where a token stands that may not
stand there.  Alternatives that have failed have the position of what they report. -/
def ParseError.syntaxPosition? (e : ParseError) : Option Nat :=
  match e.innermost with
  | endOfStream position => some position
  | unexpectedToken _ found => some found.position
  | trailingInput found => some found.position
  | _ => none

namespace Grammar

/-! ### Dots -/

/-- The last of the tokens is a dot. -/
def EndsInDot (ts : List Token) : Prop :=
  ∃ front dot, ts = front ++ [dot] ∧ dot.kind = .dot

/-- Behind each dot stands an identifier. -/
def DotsLead (ts : List Token) : Prop :=
  ∀ front dot back, ts = front ++ dot :: back → dot.kind = .dot →
    ∃ key more, back = key :: more ∧ key.kind = .identifier

variable {ts us : List Token} {t : Token}

private theorem not_endsInDot_nil : ¬EndsInDot [] := by
  rintro ⟨front, dot, hsplit, -⟩
  simp at hsplit

private theorem not_endsInDot_append (h : ¬EndsInDot ts) (h' : ¬EndsInDot us) : ¬EndsInDot (ts ++ us) := by
  rintro ⟨front, dot, hsplit, hdot⟩
  rcases List.eq_nil_or_concat' us with rfl | ⟨us, last, rfl⟩
  · exact h ⟨front, dot, by simpa using hsplit, hdot⟩
  · rw [← List.append_assoc] at hsplit
    obtain ⟨-, hlast⟩ := List.append_inj' hsplit rfl
    obtain rfl : last = dot := by simpa using hlast
    exact h' ⟨us, last, rfl, hdot⟩

private theorem DotsLead.single (ht : t.kind ≠ .dot) : DotsLead [t] := by
  intro front dot back hsplit hdot
  cases front with
  | nil =>
    obtain ⟨rfl, -⟩ := List.cons.inj hsplit
    exact absurd hdot ht
  | cons t' front => simp at hsplit

private theorem DotsLead.append (h : DotsLead ts) (h' : DotsLead us) : DotsLead (ts ++ us) := by
  intro front dot back hsplit hdot
  rcases List.append_eq_append_iff.1 hsplit with ⟨middle, rfl, hus⟩ | ⟨middle, hts, hback⟩
  · exact h' middle dot back hus hdot
  · cases middle with
    | nil => exact h' [] dot back hback.symm hdot
    | cons t middle =>
      obtain ⟨rfl, rfl⟩ := List.cons.inj hback
      obtain ⟨key, more, rfl, hkey⟩ := h front dot middle hts hdot
      exact ⟨key, more ++ us, rfl, hkey⟩

private theorem DotsLead.not_endsInDot (h : DotsLead ts) : ¬EndsInDot ts := by
  rintro ⟨front, dot, hsplit, hdot⟩
  obtain ⟨key, more, hnil, -⟩ := h front dot [] hsplit hdot
  cases hnil

private theorem DotsLead.behindDot {key : Token} (h : DotsLead (key :: ts)) (hkey : key.kind = .identifier)
    (dot : Token) : DotsLead (dot :: key :: ts) := by
  intro front dot' back hsplit hdot'
  cases front with
  | nil =>
    obtain ⟨-, rfl⟩ := List.cons.inj hsplit
    exact ⟨key, ts, rfl, hkey⟩
  | cons t front =>
    obtain ⟨-, hsplit⟩ := List.cons.inj hsplit
    exact h front dot' back hsplit hdot'

private theorem DerivesPath.dotsLead {path : FieldPath} {dots : Nat} (h : DerivesPath ts path dots) :
    DotsLead ts := by
  induction h with
  | last t ht => exact .single (by rw [ht]; decide)
  | @step t dot ts path dots ht _ hrest ih =>
    obtain ⟨key, more, rfl, hkey⟩ := hrest.opening
    have hfirst : DotsLead [t] := .single (by rw [ht]; decide)
    exact hfirst.append (ih.behindDot hkey dot)

private theorem operator_ne_dot {level : Level} {op : BinOp} (ht : level.operator? t.kind = some op) :
    t.kind ≠ .dot := by
  intro hdot
  rw [hdot] at ht
  cases level <;> cases ht

private theorem sign_ne_dot {sign : Sign} (ht : Sign.ofKind? t.kind = some sign) : t.kind ≠ .dot := by
  intro hdot
  rw [hdot] at ht
  cases ht

/-- In a part of an expression, a key stands behind each dot. -/
theorem Derives.dotsLead {part : Part} {e : Expr} {d w : Nat} (h : Derives part ts e d w) : DotsLead ts := by
  have hother {t : Token} {k : TokenKind} (ht : t.kind = k) (hk : k ≠ .dot) : DotsLead [t] :=
    .single (ht ▸ hk)
  induction h with
  | one _ ih => exact ih
  | link _ ht _ ihl ihr => exact ihl.append ((DotsLead.single (operator_ne_dot ht)).append ihr)
  | chain _ ih => exact ih
  | trueWord t ht => exact hother ht (by decide)
  | falseWord t ht => exact hother ht (by decide)
  | arithmetic _ ih => exact ih
  | negation t ht _ ih => exact (hother ht (by decide)).append ih
  | booleanGroup opening closing ho _ hc ih =>
    exact (hother ho (by decide)).append (ih.append (hother hc (by decide)))
  | unsigned _ ih => exact ih
  | sign t ht _ ih => exact (DotsLead.single (sign_ne_dot ht)).append ih
  | string t ht => exact hother ht (by decide)
  | path h => exact h.dotsLead
  | nullWord t ht => exact hother ht (by decide)
  | decimal t ht _ => exact hother ht (by decide)
  | integer t ht _ => exact hother ht (by decide)
  | group opening closing ho _ hc ih =>
    exact (hother ho (by decide)).append (ih.append (hother hc (by decide)))

theorem Derives.not_endsInDot {part : Part} {e : Expr} {d w : Nat} (h : Derives part ts e d w) : ¬EndsInDot ts :=
  h.dotsLead.not_endsInDot

theorem EndsInDot.append (ts : List Token) (h : EndsInDot us) : EndsInDot (ts ++ us) := by
  obtain ⟨front, dot, rfl, hdot⟩ := h
  exact ⟨ts ++ front, dot, (List.append_assoc ..).symm, hdot⟩

theorem BrokenPath.endsInDot (h : BrokenPath ts) : EndsInDot ts := by
  induction h with
  | @last key dot _ hdot => exact ⟨[key], dot, rfl, hdot⟩
  | @step key dot _ _ _ _ ih =>
    obtain ⟨front, last, rfl, hlast⟩ := ih
    exact ⟨key :: dot :: front, last, rfl, hlast⟩

/-! ### Places -/

/-- The innermost error is about what stands at the head of the stream, behind the tokens `ts`: it ends there or begins
with a token that is refused.  Behind a dot there is no key, and the error names the path. -/
inductive Stuck (ts : List Token) : TokenStream → ParseError → Prop where
  | ended (start position : Nat) (h : ¬EndsInDot ts) :
      Stuck ts (.stop start (.endOfInput position)) (.endOfStream position)
  | refused (start : Nat) {head : Token} {expected : TokenKind} (rest : TokenStream) (h : ¬EndsInDot ts)
      (hhead : ¬(expected = .leftParen ∧ head.kind = .identifier)) :
      Stuck ts (.token start head rest) (.unexpectedToken expected head)
  | path (before : List Token) {after : List Token} {key : Token} {rest : TokenStream}
      (htokens : ts = before ++ key :: after) (h : BrokenPath (key :: after))
      (hrest : rest.headKind? ≠ some .identifier) : Stuck ts rest (.unexpectedToken .leftParen key)

/-- A failure on the stream: some tokens are passed and the error is about what stands behind them, or the error is
final and none of syntax. -/
inductive Sticks (stream : TokenStream) : ParseError → Prop where
  | stuck {ts : List Token} {rest : TokenStream} {e : ParseError} (hb : e.isBacktrackable)
      (hpass : stream.Passes ts rest) (h : Stuck ts rest e.innermost) : Sticks stream e
  | final {e : ParseError} (hb : e.isBacktrackable = false) (hposition : e.syntaxPosition? = none) : Sticks stream e

/-- All failures of the rule are of this kind. -/
def RuleSticks {α : Type} (rule : Rule α) : Prop :=
  ∀ ⦃stream : TokenStream⦄ ⦃e : ParseError⦄, rule stream = .error e → Sticks stream e

variable {stream rest : TokenStream} {e : ParseError}

private theorem Stuck.behind (hts : ¬EndsInDot ts) (h : Stuck us rest e) : Stuck (ts ++ us) rest e := by
  cases h with
  | ended start position h => exact .ended start position (not_endsInDot_append hts h)
  | refused start rest h hhead => exact .refused start rest (not_endsInDot_append hts h) hhead
  | path before htokens h hrest => exact .path (ts ++ before) (by rw [htokens, List.append_assoc]) h hrest

namespace Sticks

theorem behind (hpass : stream.Passes ts rest) (hts : ¬EndsInDot ts) (h : Sticks rest e) : Sticks stream e := by
  cases h with
  | stuck hb hlast h => exact .stuck hb (hpass.append hlast) (h.behind hts)
  | final hb hposition => exact .final hb hposition

theorem behindHead {head : Token} (hhead : head.kind ≠ .dot) (start : Nat) (h : Sticks rest e) :
    Sticks (.token start head rest) e :=
  h.behind (.cons start head (.nil rest)) (DotsLead.single hhead).not_endsInDot

theorem ofStop (start : Nat) (reason : Stop) : Sticks (.stop start reason) (.ofStop reason) := by
  cases reason with
  | endOfInput position => exact .stuck rfl (.nil _) (.ended start position not_endsInDot_nil)
  | malformed fault => exact .final rfl rfl

theorem refused {start : Nat} {head : Token} {expected : TokenKind} {rest : TokenStream}
    (hhead : ¬(expected = .leftParen ∧ head.kind = .identifier)) :
    Sticks (.token start head rest) (.unexpectedToken expected head) :=
  .stuck rfl (.nil _) (.refused start rest not_endsInDot_nil hhead)

end Sticks

/-! ### Building blocks -/

variable {limits : Limits} {levels : Nat} {rule : Rule Expr}

theorem expect_rightParen_sticks : RuleSticks (Rule.expect .rightParen) := by
  intro stream e h
  unfold Rule.expect at h
  split at h
  · obtain rfl := Except.error.inj h
    exact .ofStop _ _
  · split at h
    · cases h
    · obtain rfl := Except.error.inj h
      exact .refused fun hhead => TokenKind.noConfusion hhead.1

private theorem chainFrom_sticks (level : Level) (hsound : Sound limits levels level.operand rule)
    (h : RuleSticks rule) (budget : Nat) (left : Expr) :
    RuleSticks (Rule.chainFrom limits level.operator? rule budget left) := by
  induction budget generalizing left with
  | zero =>
    intro stream e hrule
    unfold Rule.chainFrom at hrule
    split at hrule
    · cases hrule
    · obtain rfl := Except.error.inj hrule
      exact .final rfl rfl
  | succ budget ih =>
    intro stream e hrule
    unfold Rule.chainFrom at hrule
    split at hrule
    · cases hrule
    · rename_i op rest hop
      obtain ⟨start, t, rfl, ht⟩ := operatorAhead?_eq_some hop
      refine Sticks.behindHead (operator_ne_dot ht) start ?_
      dsimp only at hrule
      rcases bind_eq_error hrule with hright | ⟨⟨right, behind⟩, hright, hmore⟩
      · exact h hright
      · obtain ⟨us, d, w, hpass, hus, -, -⟩ := hsound _ _ _ hright
        exact (ih _ hmore).behind hpass hus.not_endsInDot

theorem chain_sticks (level : Level) (hsound : Sound limits levels level.operand rule) (h : RuleSticks rule) :
    RuleSticks (Rule.chain limits level.operator? rule) := by
  intro stream e hrule
  rcases bind_eq_error hrule with hleft | ⟨⟨left, rest⟩, hleft, hmore⟩
  · exact h hleft
  · obtain ⟨ts, d, w, hpass, hts, -, -⟩ := hsound _ _ _ hleft
    exact (chainFrom_sticks level hsound h _ left hmore).behind hpass hts.not_endsInDot

/-- A path fails behind one of its dots, where no key follows, or with a final error. -/
private theorem pathFrom_sticks {budget : Nat} {key : Token} (hkey : key.kind = .identifier)
    (h : Rule.pathFrom limits budget key.text stream = .error e) :
    (e.isBacktrackable = false ∧ e.syntaxPosition? = none) ∨ e.isBacktrackable ∧
      ∃ after rest, stream.Passes after rest ∧ BrokenPath (key :: after) ∧ rest.headKind? ≠ some .identifier := by
  induction budget generalizing key stream with
  | zero =>
    unfold Rule.pathFrom at h
    split at h
    · cases h
    · obtain rfl := Except.error.inj h
      exact .inl ⟨rfl, rfl⟩
  | succ budget ih =>
    unfold Rule.pathFrom at h
    split at h
    · cases h
    · rename_i rest hrest
      obtain ⟨start, dot, rfl, hdot⟩ := behindDot?_eq_some hrest
      dsimp only at h
      rcases bind_eq_error h with hnext | ⟨⟨next, behind⟩, hnext, hthen⟩
      · have hpass : (TokenStream.token start dot rest).Passes [dot] rest := .cons start dot (.nil rest)
        unfold Rule.expect at hnext
        split at hnext
        · rename_i start' reason
          obtain rfl := Except.error.inj hnext
          cases reason with
          | endOfInput position => exact .inr ⟨rfl, [dot], _, hpass, .last hkey hdot, nofun⟩
          | malformed fault => exact .inl ⟨rfl, rfl⟩
        · split at hnext
          · cases hnext
          · rename_i hother
            obtain rfl := Except.error.inj hnext
            exact .inr ⟨rfl, [dot], _, hpass, .last hkey hdot, fun hhead => hother (Option.some.inj hhead)⟩
      · obtain ⟨start', rfl, hk⟩ := expect_eq_ok hnext
        rcases bind_eq_error hthen with hpath | ⟨_, -, hlast⟩
        · refine (ih hk hpath).imp_right (.imp_right ?_)
          rintro ⟨after, rest, hpass, hbroken, hhead⟩
          exact ⟨dot :: next :: after, rest, .cons _ _ (.cons _ _ hpass), .step hkey hdot hbroken, hhead⟩
        · cases hlast

theorem primary_sticks {group : Rule Expr} (hsound : Sound limits levels (.chain .logical) group)
    (h : RuleSticks group) : RuleSticks (Rule.primary limits group) := by
  intro stream e hrule
  unfold Rule.primary at hrule
  split at hrule
  · obtain rfl := Except.error.inj hrule
    exact .ofStop _ _
  · rename_i start head rest
    split at hrule
    · cases hrule
    · rename_i hk
      rw [path_eq_pathFrom limits start hk] at hrule
      split at hrule
      · cases hrule
      · rename_i e' hpath
        obtain rfl := Except.error.inj hrule
        rcases pathFrom_sticks hk hpath with ⟨hb, hposition⟩ | ⟨hb, after, rest', hpass, hbroken, hhead⟩
        · rw [hb]
          exact .final hb hposition
        · rw [if_pos hb]
          exact .stuck rfl (.cons start head hpass) (.path [] rfl hbroken hhead)
    · cases hrule
    · obtain rfl := eq_of_number_eq_error hrule
      exact .final rfl rfl
    · obtain rfl := eq_of_number_eq_error hrule
      exact .final rfl rfl
    · rename_i hopening
      refine Sticks.behindHead (by rw [hopening]; decide) start ?_
      rcases bind_eq_error hrule with hinner | ⟨⟨inner, behind⟩, hinner, hclose⟩
      · exact h hinner
      · obtain ⟨ts, d, w, hpass, hts, -, -⟩ := hsound _ _ _ hinner
        rcases bind_eq_error hclose with hclosing | ⟨_, -, hlast⟩
        · exact (expect_rightParen_sticks hclosing).behind hpass hts.not_endsInDot
        · cases hlast
    · rename_i hidentifier _ _ _ _
      obtain rfl := Except.error.inj hrule
      exact .refused fun hhead => hidentifier hhead.2

theorem signed_sticks {operand deeper : Rule Expr} (h : RuleSticks operand) (hdeeper : RuleSticks deeper) :
    RuleSticks (Rule.signed operand deeper) := by
  intro stream e hrule
  unfold Rule.signed at hrule
  split at hrule
  · obtain rfl := Except.error.inj hrule
    exact .ofStop _ _
  · rename_i start head rest
    split at hrule
    · rename_i sign hsign
      rcases bind_eq_error hrule with hoperand | ⟨_, -, hlast⟩
      · exact .behindHead (sign_ne_dot hsign) start (hdeeper hoperand)
      · cases hlast
    · exact h hrule

theorem boolean_sticks {arithmetic deeper : Rule Expr} (h : RuleSticks arithmetic) (hdeeper : RuleSticks deeper) :
    RuleSticks (Rule.boolean arithmetic deeper) := by
  intro stream e hrule
  unfold Rule.boolean at hrule
  split at hrule
  · obtain rfl := Except.error.inj hrule
    exact .ofStop _ _
  · rename_i start head rest
    split at hrule
    · cases hrule
    · cases hrule
    · rename_i hnot
      rcases bind_eq_error hrule with hoperand | ⟨_, -, hlast⟩
      · exact .behindHead (by rw [hnot]; decide) start (hdeeper hoperand)
      · cases hlast
    · exact h hrule
    · split at hrule
      · cases hrule
      · rename_i e' harithmetic
        obtain rfl := Except.error.inj hrule
        cases h harithmetic with
        | stuck hb hpass hstuck =>
          rw [if_pos hb]
          exact .stuck rfl hpass hstuck
        | final hb hposition =>
          rw [hb]
          exact .final hb hposition

/-! ### The grammar -/

theorem expression_sticks (limits : Limits) (levels : Nat) : RuleSticks (expression limits levels) := by
  refine (rule_induction limits (P := fun levels part rule => Sound limits levels part rule ∧ RuleSticks rule)
    ?_ ?_ ?_ ?_ ?_ levels).2.2.2
  · refine fun part => ⟨nofun, fun stream e h => ?_⟩
    obtain rfl := Except.error.inj h
    exact .final rfl rfl
  · exact fun level _ _ ⟨hsound, h⟩ => ⟨hsound.chain, chain_sticks level hsound h⟩
  · exact fun ⟨hsound, h⟩ => ⟨hsound.primary, primary_sticks hsound h⟩
  · exact fun ⟨hsound, h⟩ ⟨hdeeper, h'⟩ => ⟨hsound.signed hdeeper, signed_sticks h h'⟩
  · exact fun ⟨hsound, h⟩ ⟨hdeeper, h'⟩ => ⟨hsound.boolean hdeeper, boolean_sticks h h'⟩

end Grammar
end DocFilter
