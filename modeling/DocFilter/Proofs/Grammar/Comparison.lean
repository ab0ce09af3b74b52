import DocFilter.Proofs.Grammar.Language
import DocFilter.Proofs.Token.Relocation

/-!
# Two readings compared

What the rules do depends on the kinds of the tokens, on the texts of those that are no strings, and on the limits; it
depends neither on where tokens stand nor on what strings contain.  So a second reading of a relocated stream
`Follows` the first one: it succeeds where the first one does and leaves the same tokens, or it fails with the same
error, relocated.  The second reading may have other limits or another grammar if certain errors of the first one are
declared free, which bind the second one to nothing.

Each building block of the grammar follows if the rules that it is given do; `expression_follows` and
`parseWith_follows` put the blocks together for the grammar itself.
-/

namespace DocFilter

/-- Whether the error is that a limit is exceeded. -/
def ParseError.isLimit : ParseError → Bool
  | tooDeep _ | chainTooLong _ => true
  | _ => false

/-- The error in the other text. -/
def Relocation.error (m : Relocation) : ParseError → ParseError
  | .endOfStream p => .endOfStream (m.position p)
  | .unexpectedToken expected found => .unexpectedToken expected (m.token found)
  | .scan e => .scan (m.lexError e)
  | .noAlternative p source => .noAlternative (m.position p) (m.error source)
  | .invalidNumber literal => .invalidNumber (m.token literal)
  | .trailingInput found => .trailingInput (m.token found)
  | .tooDeep maxDepth => .tooDeep maxDepth
  | .chainTooLong maxChain => .chainTooLong maxChain

@[simp] theorem Relocation.error_identity (e : ParseError) : Relocation.identity.error e = e := by
  induction e with
  | noAlternative p source ih => exact congrArg _ ih
  | unexpectedToken expected found => simp [error]
  | invalidNumber literal => simp [error]
  | trailingInput found => simp [error]
  | _ => rfl

@[simp] theorem Relocation.isBacktrackable_error (m : Relocation) (e : ParseError) :
    (m.error e).isBacktrackable = e.isBacktrackable := by
  cases e <;> rfl

theorem Relocation.error_ofStop (m : Relocation) (reason : Stop) :
    m.error (.ofStop reason) = .ofStop (m.stop reason) := by
  cases reason <;> rfl

namespace Grammar

/-- How the result of a second reading follows from that of a first one: the values correspond by `R`, or the errors
are the same, relocated, or the error of the first reading is free. -/
inductive Follows (m : Relocation) (free : ParseError → Prop) {α β : Type} (R : α → β → Prop) :
    Except ParseError α → Except ParseError β → Prop where
  | ok {a : α} {b : β} (h : R a b) : Follows m free R (.ok a) (.ok b)
  | error (e : ParseError) : Follows m free R (.error e) (.error (m.error e))
  | free {e : ParseError} (result : Except ParseError β) (h : free e) : Follows m free R (.error e) result

/-- The second rule follows the first one on relocated streams. -/
def RuleFollows (m : Relocation) (free : ParseError → Prop) {α β : Type} (rule : Rule α) (rule' : Rule β) : Prop :=
  ∀ ⦃stream stream' : TokenStream⦄, stream.Relocated m stream' →
    Follows m free (fun p q => p.2.Relocated m q.2) (rule stream) (rule' stream')

/-- The second reading works under the same limits and has as much left, or it has no less left and limits are free. -/
def Leaves (free : ParseError → Prop) (limits limits' : Limits) (left left' : Nat) : Prop :=
  limits = limits' ∧ left = left' ∨ left ≤ left' ∧ ∀ e : ParseError, e.isLimit → free e

variable {m : Relocation} {free : ParseError → Prop} {α β γ δ : Type}

theorem Follows.bind {R : α → β → Prop} {S : γ → δ → Prop} {x : Except ParseError α} {y : Except ParseError β}
    {f : α → Except ParseError γ} {g : β → Except ParseError δ} (h : Follows m free R x y)
    (hfg : ∀ a b, R a b → Follows m free S (f a) (g b)) : Follows m free S (x >>= f) (y >>= g) := by
  cases h with
  | ok h => exact hfg _ _ h
  | error e => exact .error e
  | free result h => exact .free _ h

/-- If no error is free, an error of the first reading is one of the second. -/
theorem Follows.eq_error {R : α → β → Prop} {e : ParseError} {y : Except ParseError β}
    (h : Follows m (fun _ => False) R (.error e) y) : y = .error (m.error e) := by
  cases h with
  | error => rfl
  | free _ h => exact h.elim

/-- A stop is the same error in both readings. -/
theorem Follows.ofStop {R : α → β → Prop} (reason : Stop) :
    Follows m free R (.error (.ofStop reason)) (.error (.ofStop (m.stop reason))) := by
  rw [← m.error_ofStop]
  exact .error _

namespace Leaves

variable {limits limits' : Limits} {left left' : Nat}

/-- What is left is left to the second reading too. -/
theorem succ (h : Leaves free limits limits' (left + 1) left') :
    ∃ next, left' = next + 1 ∧ Leaves free limits limits' left next := by
  rcases h with ⟨rfl, rfl⟩ | ⟨hle, hfree⟩
  · exact ⟨left, rfl, .inl ⟨rfl, rfl⟩⟩
  · exact ⟨left' - 1, by omega, .inr ⟨by omega, hfree⟩⟩

/-- Where the first reading has nothing left, the second one has nothing left either, or the first one is free. -/
theorem zero {R : α → β → Prop} {e : ParseError} {y : Except ParseError β} (h : Leaves free limits limits' 0 left')
    (he : e.isLimit) (hy : limits = limits' → left' = 0 → y = .error (m.error e)) :
    Follows m free R (.error e) y := by
  rcases h with ⟨hlimits, hleft⟩ | ⟨-, hfree⟩
  · rw [hy hlimits hleft.symm]
    exact .error e
  · exact .free _ (hfree e he)

end Leaves

/-! ### Building blocks -/

-- an alternative hides the errors that it may repair, so these are free only if all errors are
variable {limits limits' : Limits} (hfree : ∀ e e' : ParseError, free e → e.isBacktrackable → free e')
  (hchain : Leaves free limits limits' limits.maxChain limits'.maxChain)

theorem expect_follows (k : TokenKind) : RuleFollows m free (Rule.expect k) (Rule.expect k) := by
  intro stream stream' h
  cases h with
  | stop start start' reason => exact .ofStop reason
  | token start start' head hrest =>
    rw [Rule.expect, Rule.expect, m.kind_token]
    split
    · exact .ok hrest
    · exact .error (.unexpectedToken k head)

/-- Both streams begin with the same operator, or none of them with one. -/
theorem operatorAhead?_follows (operator? : TokenKind → Option BinOp) {stream stream' : TokenStream}
    (h : stream.Relocated m stream') :
    (Rule.operatorAhead? operator? stream = none ∧ Rule.operatorAhead? operator? stream' = none) ∨
      ∃ op rest rest', Rule.operatorAhead? operator? stream = some (op, rest) ∧
        Rule.operatorAhead? operator? stream' = some (op, rest') ∧ rest.Relocated m rest' := by
  cases h with
  | stop start start' reason => exact .inl ⟨rfl, rfl⟩
  | @token start start' head rest rest' hrest =>
    rw [Rule.operatorAhead?, Rule.operatorAhead?, m.kind_token]
    cases operator? head.kind with
    | none => exact .inl ⟨rfl, rfl⟩
    | some op => exact .inr ⟨op, rest, rest', rfl, rfl, hrest⟩

theorem chainFrom_follows (operator? : TokenKind → Option BinOp) {operand operand' : Rule Expr}
    (h : RuleFollows m free operand operand') {budget budget' : Nat}
    (hbudget : Leaves free limits limits' budget budget') (left left' : Expr) :
    RuleFollows m free (Rule.chainFrom limits operator? operand budget left)
      (Rule.chainFrom limits' operator? operand' budget' left') := by
  induction budget generalizing budget' left left' with
  | zero =>
    intro stream stream' hstream
    unfold Rule.chainFrom
    rcases operatorAhead?_follows operator? hstream with ⟨ho, ho'⟩ | ⟨op, rest, rest', ho, ho', hrest⟩
    · rw [ho, ho']
      exact .ok hstream
    · rw [ho, ho']
      refine hbudget.zero rfl ?_
      rintro rfl rfl
      rfl
  | succ budget ih =>
    obtain ⟨next, rfl, hnext⟩ := hbudget.succ
    intro stream stream' hstream
    unfold Rule.chainFrom
    rcases operatorAhead?_follows operator? hstream with ⟨ho, ho'⟩ | ⟨op, rest, rest', ho, ho', hrest⟩
    · rw [ho, ho']
      exact .ok hstream
    · rw [ho, ho']
      exact (h hrest).bind fun p q hpq => ih hnext _ _ hpq

include hchain in
theorem chain_follows (operator? : TokenKind → Option BinOp) {operand operand' : Rule Expr}
    (h : RuleFollows m free operand operand') :
    RuleFollows m free (Rule.chain limits operator? operand) (Rule.chain limits' operator? operand') := by
  intro stream stream' hstream
  exact (h hstream).bind fun p q hpq => chainFrom_follows operator? h hchain _ _ hpq

theorem pathFrom_follows {budget budget' : Nat} (hbudget : Leaves free limits limits' budget budget')
    (key key' : String) :
    RuleFollows m free (Rule.pathFrom limits budget key) (Rule.pathFrom limits' budget' key') := by
  have hdot {stream stream' : TokenStream} (h : stream.Relocated m stream') :
      (Rule.behindDot? stream = none ∧ Rule.behindDot? stream' = none) ∨
        ∃ rest rest', Rule.behindDot? stream = some rest ∧ Rule.behindDot? stream' = some rest' ∧
          rest.Relocated m rest' := by
    cases h with
    | stop start start' reason => exact .inl ⟨rfl, rfl⟩
    | @token start start' head rest rest' hrest =>
      rw [Rule.behindDot?, Rule.behindDot?, m.kind_token]
      split
      · exact .inr ⟨rest, rest', rfl, rfl, hrest⟩
      · exact .inl ⟨rfl, rfl⟩
  induction budget generalizing budget' key key' with
  | zero =>
    intro stream stream' hstream
    unfold Rule.pathFrom
    rcases hdot hstream with ⟨hd, hd'⟩ | ⟨rest, rest', hd, hd', hrest⟩
    · rw [hd, hd']
      exact .ok hstream
    · rw [hd, hd']
      refine hbudget.zero rfl ?_
      rintro rfl rfl
      rfl
  | succ budget ih =>
    obtain ⟨next, rfl, hnext⟩ := hbudget.succ
    intro stream stream' hstream
    unfold Rule.pathFrom
    rcases hdot hstream with ⟨hd, hd'⟩ | ⟨rest, rest', hd, hd', hrest⟩
    · rw [hd, hd']
      exact .ok hstream
    · rw [hd, hd']
      refine (expect_follows .identifier hrest).bind fun p q hpq => ?_
      exact (ih hnext _ _ hpq).bind fun p q hpq => .ok hpq

include hchain in
theorem path_follows : RuleFollows m free (Rule.path limits) (Rule.path limits') := by
  intro stream stream' hstream
  exact (expect_follows .identifier hstream).bind fun p q hpq => pathFrom_follows hchain _ _ hpq

/-- A number is the same in both readings: its text stays as it is. -/
theorem number_follows (head : Token) (value? : Option Float) {rest rest' : TokenStream}
    (hrest : rest.Relocated m rest') :
    Follows m free (fun p q : Expr × TokenStream => p.2.Relocated m q.2)
      ((Rule.number head value?).map fun e => (e, rest))
      ((Rule.number (m.token head) value?).map fun e => (e, rest')) := by
  cases value? with
  | some x => exact .ok hrest
  | none => exact .error (.invalidNumber head)

/-- An alternative that reports the errors that it may repair as `report` does so in both readings. -/
theorem report_follows {R : α → β → Prop} (e report : ParseError) :
    Follows m free R (.error (if e.isBacktrackable then report else e))
      (.error (if (m.error e).isBacktrackable then m.error report else m.error e)) := by
  rw [m.isBacktrackable_error]
  split
  · exact .error report
  · exact .error e

include hfree in
theorem report_free {e : ParseError} (h : free e) (report : ParseError) :
    free (if e.isBacktrackable then report else e) := by
  split
  · rename_i hb
    exact hfree e report h hb
  · exact h

include hfree hchain in
theorem primary_follows {group group' : Rule Expr} (h : RuleFollows m free group group') :
    RuleFollows m free (Rule.primary limits group) (Rule.primary limits' group') := by
  intro stream stream' hstream
  cases hstream with
  | stop start start' reason => exact .ofStop reason
  | token start start' head hrest =>
    rw [Rule.primary, Rule.primary, m.kind_token]
    have hstream := hrest.token start start' head
    split
    · exact .ok hrest
    · have hpath := path_follows hchain hstream
      revert hpath
      generalize Rule.path limits _ = x
      generalize Rule.path limits' _ = y
      rintro (hpath | e | ⟨_, he⟩)
      · exact .ok hpath
      · exact report_follows e (.unexpectedToken .leftParen head)
      · exact .free _ (report_free hfree he _)
    · exact .ok hrest
    · rename_i hk
      have htext : (m.token head).text = head.text := m.text_token fun h => by rw [hk] at h; cases h
      rw [Rule.decimal, Rule.decimal, htext]
      exact number_follows head _ hrest
    · rename_i hk
      have htext : (m.token head).text = head.text := m.text_token fun h => by rw [hk] at h; cases h
      rw [Rule.integer, Rule.integer, htext]
      exact number_follows head _ hrest
    · refine (h hrest).bind fun p q hpq => ?_
      exact (expect_follows .rightParen hpq).bind fun p q hpq => .ok hpq
    · exact .error (.unexpectedToken .leftParen head)

theorem signed_follows {operand operand' deeper deeper' : Rule Expr} (h : RuleFollows m free operand operand')
    (hdeeper : RuleFollows m free deeper deeper') :
    RuleFollows m free (Rule.signed operand deeper) (Rule.signed operand' deeper') := by
  intro stream stream' hstream
  cases hstream with
  | stop start start' reason => exact .ofStop reason
  | token start start' head hrest =>
    rw [Rule.signed, Rule.signed, m.kind_token]
    split
    · exact (hdeeper hrest).bind fun p q hpq => .ok hpq
    · exact h (hrest.token start start' head)

include hfree in
theorem boolean_follows {arithmetic arithmetic' deeper deeper' : Rule Expr}
    (h : RuleFollows m free arithmetic arithmetic') (hdeeper : RuleFollows m free deeper deeper') :
    RuleFollows m free (Rule.boolean arithmetic deeper) (Rule.boolean arithmetic' deeper') := by
  intro stream stream' hstream
  cases hstream with
  | stop start start' reason => exact .ofStop reason
  | token start start' head hrest =>
    rw [Rule.boolean, Rule.boolean, m.kind_token]
    have hstream := hrest.token start start' head
    split
    · exact .ok hrest
    · exact .ok hrest
    · exact (hdeeper hrest).bind fun p q hpq => .ok hpq
    · exact h hstream
    · have harithmetic := h hstream
      revert harithmetic
      generalize arithmetic _ = x
      generalize arithmetic' _ = y
      rintro (hread | e | ⟨_, he⟩)
      · exact .ok hread
      · exact report_follows e (.noAlternative head.position e)
      · exact .free _ (report_free hfree he _)

include hchain in
theorem sum_follows {operand operand' : Rule Expr} (h : RuleFollows m free operand operand') :
    RuleFollows m free (Rule.sum limits operand) (Rule.sum limits' operand') :=
  chain_follows hchain _ (chain_follows hchain _ h)

include hchain in
theorem logical_follows {operand operand' : Rule Expr} (h : RuleFollows m free operand operand') :
    RuleFollows m free (Rule.logical limits operand) (Rule.logical limits' operand') :=
  chain_follows hchain _ (chain_follows hchain _ h)

/-! ### The grammar -/

include hfree hchain in
private theorem boolean_and_operand_follows {levels levels' : Nat} (h : Leaves free limits limits' levels levels') :
    RuleFollows m free (boolean limits levels) (boolean limits' levels') ∧
      RuleFollows m free (operand limits levels) (operand limits' levels') := by
  induction levels generalizing levels' with
  | zero =>
    constructor
    · intro stream stream' _
      refine h.zero rfl ?_
      rintro rfl rfl
      rfl
    · intro stream stream' _
      refine h.zero rfl ?_
      rintro rfl rfl
      rfl
  | succ levels ih =>
    obtain ⟨next, rfl, hnext⟩ := h.succ
    obtain ⟨hboolean, hoperand⟩ := ih hnext
    have hgroup : RuleFollows m free (operand limits (levels + 1)) (operand limits' (next + 1)) :=
      primary_follows hfree hchain (logical_follows hchain hboolean)
    exact ⟨boolean_follows hfree (sum_follows hchain (signed_follows hgroup hoperand)) hboolean, hgroup⟩

include hfree hchain in
theorem expression_follows {levels levels' : Nat} (h : Leaves free limits limits' levels levels') :
    RuleFollows m free (expression limits levels) (expression limits' levels') :=
  logical_follows hchain (boolean_and_operand_follows hfree hchain h).1

/-- What is left behind an expression leads to the same conclusion. -/
theorem conclude_follows (e e' : Expr) {rest rest' : TokenStream} (h : rest.Relocated m rest') :
    Follows m free (fun _ _ => True) (conclude e rest) (conclude e' rest') := by
  cases h with
  | stop start start' reason =>
    cases reason with
    | endOfInput p => exact .ok trivial
    | malformed error => exact .error (.scan error)
  | token start start' head _ => exact .error (.trailingInput head)

include hfree in
/-- Reading a complete expression from a stream follows reading one from a stream of which it is a relocation. -/
theorem conclusion_follows {stream stream' : TokenStream} (hstream : stream.Relocated m stream')
    (hdepth : Leaves free limits limits' (limits.maxDepth + 1) (limits'.maxDepth + 1))
    (hchain : Leaves free limits limits' limits.maxChain limits'.maxChain) :
    Follows m free (fun _ _ => True)
      (expression limits (limits.maxDepth + 1) stream >>= fun p => conclude p.1 p.2)
      (expression limits' (limits'.maxDepth + 1) stream' >>= fun p => conclude p.1 p.2) :=
  (expression_follows hfree hchain hdepth hstream).bind fun p q hpq => conclude_follows p.1 q.1 hpq

include hfree in
/-- Parsing a text follows parsing a text of which it is a relocation. -/
theorem parseWith_follows {text text' : String}
    (hstream : (TokenStream.read 0 text.toList).Relocated m (.read 0 text'.toList))
    (hdepth : Leaves free limits limits' (limits.maxDepth + 1) (limits'.maxDepth + 1))
    (hchain : Leaves free limits limits' limits.maxChain limits'.maxChain) :
    Follows m free (fun _ _ => True) (Expr.parseWith limits text) (Expr.parseWith limits' text') := by
  rw [parseWith_eq_conclude, parseWith_eq_conclude]
  exact conclusion_follows hfree hstream hdepth hchain

end Grammar
end DocFilter
