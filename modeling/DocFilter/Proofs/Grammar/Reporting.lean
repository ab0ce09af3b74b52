import DocFilter.Proofs.Grammar.Comparison
import DocFilter.Proofs.Token.Malformed

/-!
# What errors report

A rule that fails reports something about the stream that it was given: why the stream stops, one of its tokens, or an
exceeded limit (`Reported`).  It never takes one for the other: that a stream stops at malformed text is seen by no
rule as the end of the input, and an alternative hides only errors that it may repair.  Each building block of the
grammar accounts for its answer in this way if the rules that it is given do.

So parsing recovers from no lexical error (`parseWith_malformed`).
-/

namespace DocFilter

namespace ParseError

/-- The places in the text that an error names. -/
def positions : ParseError → List Nat
  | endOfStream p => [p]
  | unexpectedToken _ found => [found.position]
  | scan e => [e.position]
  | noAlternative p source => p :: source.positions
  | invalidNumber literal => [literal.position]
  | trailingInput found => [found.position]
  | tooDeep _ => []
  | chainTooLong _ => []

/-- Different stops are different errors. -/
theorem ofStop_inj {reason reason' : Stop} (h : ofStop reason = ofStop reason') : reason = reason' := by
  cases reason <;> cases reason' <;> cases h <;> rfl

/-- Another alternative repairs no exceeded limit. -/
theorem isLimit_of_isBacktrackable {e : ParseError} (h : e.isBacktrackable) : e.isLimit = false := by
  cases e with
  | tooDeep => cases h
  | chainTooLong => cases h
  | _ => rfl

/-- A limit does not stand for the end of the input. -/
theorem isEndOfStream_innermost_of_isLimit {e : ParseError} (h : e.isLimit) :
    e.innermost.isEndOfStream = false := by
  cases e with
  | tooDeep => rfl
  | chainTooLong => rfl
  | _ => cases h

end ParseError

namespace Grammar

/-- What a rule can report about a stream. -/
inductive Reported (stream : TokenStream) : ParseError → Prop where
  | stop : Reported stream (.ofStop stream.reason)
  | limit {e : ParseError} (h : e.isLimit) : Reported stream e
  | unexpected (expected : TokenKind) {found : Token} (h : found ∈ stream.tokens) :
      Reported stream (.unexpectedToken expected found)
  | number {literal : Token} (h : literal ∈ stream.tokens) : Reported stream (.invalidNumber literal)
  | trailing {found : Token} (h : found ∈ stream.tokens) : Reported stream (.trailingInput found)
  | alternatives {first : Token} {source : ParseError} (h : first ∈ stream.tokens) (hsource : Reported stream source)
      (hb : source.isBacktrackable) : Reported stream (.noAlternative first.position source)

/-- The answer of a rule is a passage of the stream or a report about it. -/
inductive Accounted (stream : TokenStream) {α : Type} : Except ParseError (α × TokenStream) → Prop where
  | ok (a : α) {ts : List Token} {rest : TokenStream} (h : stream.Passes ts rest) : Accounted stream (.ok (a, rest))
  | error {e : ParseError} (h : Reported stream e) : Accounted stream (.error e)

/-- The rule accounts for all its answers. -/
def Accounts {α : Type} (rule : Rule α) : Prop :=
  ∀ stream, Accounted stream (rule stream)

variable {α β : Type} {stream rest : TokenStream} {ts : List Token}

/-- What holds of the rest of a stream holds of the stream. -/
theorem Reported.behind (h : stream.Passes ts rest) {e : ParseError} (he : Reported rest e) : Reported stream e := by
  have hmem {t : Token} (ht : t ∈ rest.tokens) : t ∈ stream.tokens := h.tokens_suffix.subset ht
  induction he with
  | stop =>
    rw [← h.reason_eq]
    exact .stop
  | limit h => exact .limit h
  | unexpected expected h => exact .unexpected expected (hmem h)
  | number h => exact .number (hmem h)
  | trailing h => exact .trailing (hmem h)
  | alternatives h _ hb ih => exact .alternatives (hmem h) ih hb

/-- A token that an alternative has not found is one of the stream. -/
theorem Reported.mem_of_innermost {e : ParseError} (h : Reported stream e) {expected : TokenKind} {t : Token}
    (ht : e.innermost = .unexpectedToken expected t) : t ∈ stream.tokens := by
  induction h with
  | stop => cases hreason : stream.reason <;> rw [hreason] at ht <;> cases ht
  | @limit e hlimit => cases e <;> cases hlimit <;> cases ht
  | unexpected _ hfound =>
    cases ht
    exact hfound
  | number _ => cases ht
  | trailing _ => cases ht
  | alternatives _ _ _ ih => exact ih ht

namespace Accounted

theorem behind (h : stream.Passes ts rest) {x : Except ParseError (α × TokenStream)} (hx : Accounted rest x) :
    Accounted stream x := by
  cases hx with
  | ok a h' => exact .ok a (h.append h')
  | error he => exact .error (he.behind h)

theorem bind {x : Except ParseError (α × TokenStream)} {f : α × TokenStream → Except ParseError (β × TokenStream)}
    (h : Accounted stream x) (hf : ∀ a rest, Accounted rest (f (a, rest))) : Accounted stream (x >>= f) := by
  cases h with
  | ok a h => exact (hf a _).behind h
  | error he => exact .error he

/-- The reported stop of a stream that has stopped. -/
theorem ofStop (start : Nat) (reason : Stop) :
    Accounted (α := α) (.stop start reason) (.error (.ofStop reason)) :=
  .error .stop

/-- Answers that leave what stands behind the first token. -/
theorem behindHead (start : Nat) (head : Token) (stream : TokenStream) (a : α) :
    Accounted (.token start head stream) (.ok (a, stream)) :=
  .ok a (.cons start head (.nil stream))

end Accounted

theorem Accounts.reported {rule : Rule α} (h : Accounts rule) {e : ParseError} (hrule : rule stream = .error e) :
    Reported stream e := by
  have haccounted := h stream
  rw [hrule] at haccounted
  cases haccounted with
  | error he => exact he

/-! ### Building blocks -/

theorem expect_accounts (k : TokenKind) : Accounts (Rule.expect k) := by
  intro stream
  cases stream with
  | stop start reason => exact .ofStop start reason
  | token start head rest =>
    rw [Rule.expect]
    split
    · exact .behindHead start head rest head
    · exact .error (.unexpected k (.head _))

theorem chainFrom_accounts (limits : Limits) (operator? : TokenKind → Option BinOp) {operand : Rule Expr}
    (h : Accounts operand) (budget : Nat) (left : Expr) :
    Accounts (Rule.chainFrom limits operator? operand budget left) := by
  induction budget generalizing left with
  | zero =>
    intro stream
    unfold Rule.chainFrom
    split
    · exact .ok left (.nil stream)
    · exact .error (.limit rfl)
  | succ budget ih =>
    intro stream
    unfold Rule.chainFrom
    split
    · exact .ok left (.nil stream)
    · rename_i op rest hop
      obtain ⟨start, t, rfl, -⟩ := operatorAhead?_eq_some hop
      refine ((h rest).bind fun right behind => ?_).behind (.cons start t (.nil rest))
      exact ih _ behind

theorem chain_accounts (limits : Limits) (operator? : TokenKind → Option BinOp) {operand : Rule Expr}
    (h : Accounts operand) : Accounts (Rule.chain limits operator? operand) :=
  fun stream => (h stream).bind fun left => chainFrom_accounts limits operator? h limits.maxChain left

theorem pathFrom_accounts (limits : Limits) (budget : Nat) (key : String) :
    Accounts (Rule.pathFrom limits budget key) := by
  induction budget generalizing key with
  | zero =>
    intro stream
    unfold Rule.pathFrom
    split
    · exact .ok _ (.nil stream)
    · exact .error (.limit rfl)
  | succ budget ih =>
    intro stream
    unfold Rule.pathFrom
    split
    · exact .ok _ (.nil stream)
    · rename_i rest hrest
      obtain ⟨start, t, rfl, -⟩ := behindDot?_eq_some hrest
      refine ((expect_accounts .identifier rest).bind fun next behind => ?_).behind (.cons start t (.nil rest))
      exact (ih next.text behind).bind fun path rest => .ok _ (.nil rest)

theorem path_accounts (limits : Limits) : Accounts (Rule.path limits) :=
  fun stream => (expect_accounts .identifier stream).bind fun first => pathFrom_accounts limits _ first.text

/-- The literal at the head of a stream is a number or is reported. -/
theorem number_accounted (start : Nat) (head : Token) (rest : TokenStream) (value? : Option Float) :
    Accounted (.token start head rest) ((Rule.number head value?).map fun e => (e, rest)) := by
  cases value? with
  | some x => exact .behindHead start head rest _
  | none => exact .error (.number (.head _))

theorem primary_accounts (limits : Limits) {group : Rule Expr} (h : Accounts group) :
    Accounts (Rule.primary limits group) := by
  intro stream
  cases stream with
  | stop start reason => exact .ofStop start reason
  | token start head rest =>
    rw [Rule.primary]
    split
    · exact .behindHead start head rest _
    · have hpath := path_accounts limits (.token start head rest)
      revert hpath
      generalize Rule.path limits (.token start head rest) = x
      rintro (⟨path, hpass⟩ | he)
      · exact .ok _ hpass
      · dsimp only
        split
        · exact .error (.unexpected .leftParen (.head _))
        · exact .error he
    · exact .behindHead start head rest _
    · exact number_accounted start head rest _
    · exact number_accounted start head rest _
    · refine ((h rest).bind fun inner behind => ?_).behind (.cons start head (.nil rest))
      exact (expect_accounts .rightParen behind).bind fun _ rest => .ok inner (.nil rest)
    · exact .error (.unexpected .leftParen (.head _))

theorem signed_accounts {operand deeper : Rule Expr} (h : Accounts operand) (hdeeper : Accounts deeper) :
    Accounts (Rule.signed operand deeper) := by
  intro stream
  cases stream with
  | stop start reason => exact .ofStop start reason
  | token start head rest =>
    rw [Rule.signed]
    split
    · refine ((hdeeper rest).bind fun e behind => ?_).behind (.cons start head (.nil rest))
      exact .ok _ (.nil behind)
    · exact h (.token start head rest)

theorem boolean_accounts {arithmetic deeper : Rule Expr} (h : Accounts arithmetic) (hdeeper : Accounts deeper) :
    Accounts (Rule.boolean arithmetic deeper) := by
  intro stream
  cases stream with
  | stop start reason => exact .ofStop start reason
  | token start head rest =>
    rw [Rule.boolean]
    split
    · exact .behindHead start head rest _
    · exact .behindHead start head rest _
    · refine ((hdeeper rest).bind fun e behind => ?_).behind (.cons start head (.nil rest))
      exact .ok _ (.nil behind)
    · exact h (.token start head rest)
    · have harithmetic := h (.token start head rest)
      revert harithmetic
      generalize arithmetic (.token start head rest) = x
      rintro (⟨e, hpass⟩ | he)
      · exact .ok e hpass
      · dsimp only
        split
        · rename_i hb
          exact .error (.alternatives (.head _) he hb)
        · exact .error he

/-! ### The grammar -/

theorem expression_accounts (limits : Limits) (levels : Nat) : Accounts (expression limits levels) := by
  refine (rule_induction limits (P := fun _ _ rule => Accounts rule) ?_ ?_ ?_ ?_ ?_ levels).2.2
  · exact fun _ _ => .error (.limit rfl)
  · exact fun level _ _ h => chain_accounts limits level.operator? h
  · exact fun h => primary_accounts limits h
  · exact fun h hdeeper => signed_accounts h hdeeper
  · exact fun h hdeeper => boolean_accounts h hdeeper

private theorem reported_of_conclude {expr : Expr} {e : ParseError} (h : conclude expr stream = .error e) :
    Reported stream e := by
  cases stream with
  | stop start reason =>
    cases reason with
    | endOfInput p => cases h
    | malformed error =>
      obtain rfl := Except.error.inj h
      exact .stop
  | token start head rest =>
    obtain rfl := Except.error.inj h
    exact .trailing (.head _)

/-- Parsing reports something about the stream of the text. -/
theorem parseWith_reported {limits : Limits} {text : String} {e : ParseError}
    (h : Expr.parseWith limits text = .error e) : Reported (.read 0 text.toList) e := by
  rw [parseWith_eq_conclude] at h
  have hread := expression_accounts limits (limits.maxDepth + 1) (.read 0 text.toList)
  revert hread h
  generalize expression limits (limits.maxDepth + 1) (.read 0 text.toList) = x
  rintro h (⟨expr, hpass⟩ | he)
  · exact (reported_of_conclude h).behind hpass
  · obtain rfl := Except.error.inj h
    exact he

/-! ### Lexical errors -/

/-- A reported stop is why the stream stops. -/
theorem Reported.reason_of_ofStop {reason : Stop} (h : Reported stream (.ofStop reason)) : stream.reason = reason := by
  generalize herror : ParseError.ofStop reason = error at h
  cases h with
  | stop => exact (ParseError.ofStop_inj herror).symm
  | limit h =>
    subst herror
    cases reason <;> cases h
  | _ => cases reason <;> cases herror

/-- A scan error is why the stream stops. -/
theorem Reported.reason_of_scan {e : LexError} (h : Reported stream (.scan e)) : stream.reason = .malformed e :=
  reason_of_ofStop (show Reported stream (.ofStop (.malformed e)) from h)

/-- Where a stream stops at malformed text, an error that is neither that of the text nor a limit names tokens only. -/
theorem Reported.of_malformed {e : LexError} (hreason : stream.reason = .malformed e) {error : ParseError}
    (h : Reported stream error) :
    error.innermost.isEndOfStream = false ∧
      (error = .scan e ∨ error.isLimit ∨ ∀ p ∈ error.positions, ∃ t ∈ stream.tokens, t.position = p) := by
  induction h with
  | stop =>
    rw [hreason]
    exact ⟨rfl, .inl rfl⟩
  | limit h => exact ⟨ParseError.isEndOfStream_innermost_of_isLimit h, .inr (.inl h)⟩
  | @unexpected _ found h => exact ⟨rfl, .inr (.inr (by simpa [ParseError.positions] using ⟨found, h, rfl⟩))⟩
  | @number literal h => exact ⟨rfl, .inr (.inr (by simpa [ParseError.positions] using ⟨literal, h, rfl⟩))⟩
  | @trailing found h => exact ⟨rfl, .inr (.inr (by simpa [ParseError.positions] using ⟨found, h, rfl⟩))⟩
  | @alternatives first source h hsource hb ih =>
    obtain ⟨hinnermost, rfl | hlimit | hpositions⟩ := ih
    · cases hb
    · rw [ParseError.isLimit_of_isBacktrackable hb] at hlimit
      cases hlimit
    · refine ⟨hinnermost, .inr (.inr fun p hp => ?_)⟩
      rcases List.mem_cons.1 hp with rfl | hp
      · exact ⟨first, h, rfl⟩
      · exact hpositions p hp

/-- Parsing recovers from no lexical error.  A text that is accepted has tokens to its end, and a scan error is the one
of tokenizing.  If the text is malformed, parsing fails, and not because it takes the place for the end of the input:
its error is that of the text, a limit, or one that names only places before the lexeme that is none. -/
theorem parseWith_malformed (limits : Limits) (text : String) :
    (∀ expr, Expr.parseWith limits text = .ok expr → ∃ ts, tokenize text = .ok ts) ∧
      (∀ e, Expr.parseWith limits text = .error (.scan e) → tokenize text = .error e) ∧
      ∀ e, tokenize text = .error e → ∃ error ts offset, Expr.parseWith limits text = .error error ∧
        MalformedAt text ts offset e ∧ error.innermost.isEndOfStream = false ∧
        (error = .scan e ∨ error.isLimit ∨ ∀ p ∈ error.positions, p < offset) := by
  have hok : ∀ expr, Expr.parseWith limits text = .ok expr → ∃ ts, tokenize text = .ok ts := by
    intro expr h
    obtain ⟨ts, -, -, htokens, -⟩ := sentence_of_parseWith h
    exact ⟨ts, htokens⟩
  refine ⟨hok, fun e h => tokenize_eq_error_iff_reason.2 (parseWith_reported h).reason_of_scan, fun e h => ?_⟩
  · cases hparse : Expr.parseWith limits text with
    | ok expr =>
      obtain ⟨ts, htokens⟩ := hok expr hparse
      rw [htokens] at h
      cases h
    | error error =>
      obtain ⟨offset, hmalformed, hstop⟩ := exists_malformedAt h
      obtain ⟨hinnermost, hplaces⟩ := (parseWith_reported hparse).of_malformed (tokenize_eq_error_iff_reason.1 h)
      refine ⟨error, _, offset, rfl, hmalformed, hinnermost, hplaces.imp_right (.imp_right fun hpositions p hp => ?_)⟩
      obtain ⟨t, ht, rfl⟩ := hpositions p hp
      have hbounds := TokenStream.mem_tokens_readFrom ht
      have := hstop t ht
      omega

end Grammar
end DocFilter
