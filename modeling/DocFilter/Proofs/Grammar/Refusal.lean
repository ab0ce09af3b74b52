import DocFilter.Proofs.Grammar.Completeness
import DocFilter.Proofs.Grammar.Reporting

/-!
# Refused tokens

A rule that refuses a token has not looked behind it, so it fails on every stream that has tokens of the same kinds up
to there.  The proof compares two runs of a rule.  As long as the first has not passed the token, both succeed or the
second fails; once the first has passed it, the token is in none of its errors, and the second is of no interest.

So if an expression begins with tokens of the same kinds as the stream, the rule for expressions does not refuse the
last of them, whatever it is that follows (`not_refuses_of_derives`).
-/

namespace DocFilter

/-- The error is that the token is none of those that may stand where it does.  The first key of a broken path is named
as if it were refused too, and is not meant here. -/
def ParseError.Refuses (e : ParseError) (t : Token) : Prop :=
  ∃ expected, e.innermost = .unexpectedToken expected t ∧ ¬(expected = .leftParen ∧ t.kind = .identifier)

namespace Grammar

/-- The streams have tokens of the same kinds at their heads, and `last` is not among the others of the first one. -/
inductive AgreesThrough (last : Token) : TokenStream → TokenStream → Prop where
  | passed {stream : TokenStream} (h : last ∉ stream.tokens) (stream' : TokenStream) :
      AgreesThrough last stream stream'
  | token (start start' : Nat) {head head' : Token} (hkind : head.kind = head'.kind) {rest rest' : TokenStream}
      (h : AgreesThrough last rest rest') : AgreesThrough last (.token start head rest) (.token start' head' rest')

/-- How the answers of two runs on such streams are bound: if the first one refuses `last`, the second is an error too,
and what is left by both agrees again. -/
inductive Parallel (last : Token) {α : Type} :
    Except ParseError (α × TokenStream) → Except ParseError (α × TokenStream) → Prop where
  | ok (a a' : α) {rest rest' : TokenStream} (h : AgreesThrough last rest rest') :
      Parallel last (.ok (a, rest)) (.ok (a', rest'))
  | passed (a : α) {rest : TokenStream} (h : last ∉ rest.tokens) (y : Except ParseError (α × TokenStream)) :
      Parallel last (.ok (a, rest)) y
  | failed (x : Except ParseError (α × TokenStream)) (e : ParseError) : Parallel last x (.error e)
  | free {e : ParseError} (h : ¬e.Refuses last) (y : Except ParseError (α × TokenStream)) :
      Parallel last (.error e) y

/-- The answers of the rules on two streams that agree are parallel. -/
def RuleParallel {α : Type} (rule rule' : Rule α) : Prop :=
  ∀ ⦃last : Token⦄ ⦃stream stream' : TokenStream⦄, AgreesThrough last stream stream' →
    Parallel last (rule stream) (rule' stream')

variable {last : Token} {stream rest : TokenStream} {α β : Type}

private theorem Reported.mem_of_refuses {e : ParseError} (h : Reported stream e) {t : Token} (ht : e.Refuses t) :
    t ∈ stream.tokens := by
  obtain ⟨expected, hinnermost, -⟩ := ht
  exact h.mem_of_innermost hinnermost

namespace Parallel

/-- A run that begins behind `last` does not refuse it. -/
theorem behind {x : Except ParseError (α × TokenStream)} (h : Accounted rest x) (hlast : last ∉ rest.tokens)
    (y : Except ParseError (α × TokenStream)) : Parallel last x y := by
  cases h with
  | ok a h => exact .passed a (fun hmem => hlast (h.tokens_suffix.subset hmem)) y
  | error h => exact .free (fun hrefuses => hlast (h.mem_of_refuses hrefuses)) y

theorem bind {x y : Except ParseError (α × TokenStream)}
    {f f' : α × TokenStream → Except ParseError (β × TokenStream)} (h : Parallel last x y)
    (haccounts : ∀ a rest, Accounted rest (f (a, rest)))
    (hf : ∀ a a' rest rest', AgreesThrough last rest rest' → Parallel last (f (a, rest)) (f' (a', rest'))) :
    Parallel last (x >>= f) (y >>= f') := by
  cases h with
  | ok a a' h => exact hf a a' _ _ h
  | passed a h y => exact behind (haccounts a _) h _
  | failed x e => exact .failed _ e
  | free h y => exact .free h _

end Parallel

/-! ### Building blocks -/

theorem expect_parallel (k : TokenKind) : RuleParallel (Rule.expect k) (Rule.expect k) := by
  intro last stream stream' h
  cases h with
  | passed h => exact .behind (expect_accounts k stream) h _
  | @token start start' head head' hkind _ _ h =>
    rw [Rule.expect, Rule.expect, hkind]
    split
    · exact .ok head head' h
    · exact .failed _ _

theorem chainFrom_parallel (limits : Limits) (operator? : TokenKind → Option BinOp) {operand : Rule Expr}
    (haccounts : Accounts operand) (h : RuleParallel operand operand) (budget : Nat) (left left' : Expr) :
    RuleParallel (Rule.chainFrom limits operator? operand budget left)
      (Rule.chainFrom limits operator? operand budget left') := by
  induction budget generalizing left left' with
  | zero =>
    intro last stream stream' hstream
    cases hstream with
    | passed hlast => exact .behind (chainFrom_accounts limits operator? haccounts 0 left stream) hlast _
    | @token start start' head head' hkind _ _ hrest =>
      rw [Rule.chainFrom, Rule.chainFrom, Rule.operatorAhead?, Rule.operatorAhead?, hkind]
      cases operator? head'.kind with
      | none => exact .ok left left' (.token start start' hkind hrest)
      | some op => exact .failed _ _
  | succ budget ih =>
    intro last stream stream' hstream
    cases hstream with
    | passed hlast => exact .behind (chainFrom_accounts limits operator? haccounts (budget + 1) left stream) hlast _
    | @token start start' head head' hkind _ _ hrest =>
      rw [Rule.chainFrom, Rule.chainFrom, Rule.operatorAhead?, Rule.operatorAhead?, hkind]
      cases operator? head'.kind with
      | none => exact .ok left left' (.token start start' hkind hrest)
      | some op =>
        refine (h hrest).bind (fun right => ?_) fun right right' behind behind' hbehind => ih _ _ hbehind
        exact chainFrom_accounts limits operator? haccounts budget (.binary op left right)

theorem chain_parallel (limits : Limits) (operator? : TokenKind → Option BinOp) {operand : Rule Expr}
    (haccounts : Accounts operand) (h : RuleParallel operand operand) :
    RuleParallel (Rule.chain limits operator? operand) (Rule.chain limits operator? operand) := by
  intro last stream stream' hstream
  refine (h hstream).bind (fun left => ?_) fun left left' rest rest' hrest => ?_
  · exact chainFrom_accounts limits operator? haccounts limits.maxChain left
  · exact chainFrom_parallel limits operator? haccounts h limits.maxChain left left' hrest

theorem pathFrom_parallel (limits : Limits) (budget : Nat) (key key' : String) :
    RuleParallel (Rule.pathFrom limits budget key) (Rule.pathFrom limits budget key') := by
  induction budget generalizing key key' with
  | zero =>
    intro last stream stream' hstream
    cases hstream with
    | passed hlast => exact .behind (pathFrom_accounts limits 0 key stream) hlast _
    | @token start start' head head' hkind _ _ hrest =>
      rw [Rule.pathFrom, Rule.pathFrom, Rule.behindDot?, Rule.behindDot?, hkind]
      by_cases hdot : head'.kind = .dot
      · rw [if_pos hdot, if_pos hdot]
        exact .failed _ _
      · rw [if_neg hdot, if_neg hdot]
        exact .ok _ _ (.token start start' hkind hrest)
  | succ budget ih =>
    intro last stream stream' hstream
    cases hstream with
    | passed hlast => exact .behind (pathFrom_accounts limits (budget + 1) key stream) hlast _
    | @token start start' head head' hkind _ _ hrest =>
      rw [Rule.pathFrom, Rule.pathFrom, Rule.behindDot?, Rule.behindDot?, hkind]
      by_cases hdot : head'.kind = .dot
      · rw [if_pos hdot, if_pos hdot]
        refine (expect_parallel .identifier hrest).bind (fun next behind => ?_)
          fun next next' behind behind' hbehind => ?_
        · exact (pathFrom_accounts limits budget next.text behind).bind fun path rest => .ok _ (.nil rest)
        · refine (ih next.text next'.text hbehind).bind (fun path rest => .ok _ (.nil rest)) ?_
          exact fun path path' rest rest' hrest => .ok _ _ hrest
      · rw [if_neg hdot, if_neg hdot]
        exact .ok _ _ (.token start start' hkind hrest)

theorem path_parallel (limits : Limits) : RuleParallel (Rule.path limits) (Rule.path limits) := by
  intro last stream stream' hstream
  refine (expect_parallel .identifier hstream).bind (fun first => ?_) fun first first' rest rest' hrest => ?_
  · exact pathFrom_accounts limits limits.maxChain first.text
  · exact pathFrom_parallel limits limits.maxChain first.text first'.text hrest

/-- A literal that is no number is not refused as a token. -/
private theorem number_parallel (head head' : Token) (value? value?' : Option Float) {rest rest' : TokenStream}
    (h : AgreesThrough last rest rest') :
    Parallel last ((Rule.number head value?).map fun e => (e, rest))
      ((Rule.number head' value?').map fun e => (e, rest')) := by
  cases value? with
  | none => exact .free (fun ⟨_, hinnermost, _⟩ => ParseError.noConfusion hinnermost) _
  | some x =>
    cases value?' with
    | none => exact .failed _ _
    | some x' => exact .ok _ _ h

/-- A broken path is reported at its first key or for an exceeded limit, neither of which refuses a token. -/
private theorem not_refuses_of_path {head : Token} (hk : head.kind = .identifier) (e : ParseError) (t : Token) :
    ¬(if e.isBacktrackable then .unexpectedToken .leftParen head else e : ParseError).Refuses t := by
  rintro ⟨expected, hinnermost, hnot⟩
  split at hinnermost
  · cases hinnermost
    exact hnot ⟨rfl, hk⟩
  · rename_i hb
    cases e with
    | unexpectedToken | noAlternative => exact hb rfl
    | _ => cases hinnermost

theorem primary_parallel (limits : Limits) {group : Rule Expr} (haccounts : Accounts group)
    (h : RuleParallel group group) : RuleParallel (Rule.primary limits group) (Rule.primary limits group) := by
  intro last stream stream' hstream
  cases hstream with
  | passed hlast => exact .behind (primary_accounts limits haccounts stream) hlast _
  | @token start start' head head' hkind rest rest' hrest =>
    rw [Rule.primary, Rule.primary, ← hkind]
    split
    · exact .ok _ _ hrest
    · rename_i hk
      have hpath := path_parallel limits (.token start start' hkind hrest)
      revert hpath
      generalize Rule.path limits (.token start head rest) = x
      generalize Rule.path limits (.token start' head' rest') = y
      rintro (⟨path, path', hbehind⟩ | ⟨path, hlast, _⟩ | ⟨_, e⟩ | ⟨_, _⟩)
      · exact .ok _ _ hbehind
      · exact .passed _ hlast _
      · exact .failed _ _
      · exact .free (not_refuses_of_path hk _ last) _
    · exact .ok _ _ hrest
    · exact number_parallel head head' _ _ hrest
    · exact number_parallel head head' _ _ hrest
    · refine (h hrest).bind (fun inner behind => ?_) fun inner inner' behind behind' hbehind => ?_
      · exact (expect_accounts .rightParen behind).bind fun _ rest => .ok inner (.nil rest)
      · refine (expect_parallel .rightParen hbehind).bind (fun _ rest => .ok inner (.nil rest)) ?_
        exact fun _ _ rest rest' hrest => .ok inner inner' hrest
    · exact .failed _ _

theorem signed_parallel {operand deeper : Rule Expr} (hoperand : Accounts operand) (h : RuleParallel operand operand)
    (hdeeper : Accounts deeper) (h' : RuleParallel deeper deeper) :
    RuleParallel (Rule.signed operand deeper) (Rule.signed operand deeper) := by
  intro last stream stream' hstream
  cases hstream with
  | passed hlast => exact .behind (signed_accounts hoperand hdeeper stream) hlast _
  | token start start' hkind hrest =>
    rw [Rule.signed, Rule.signed, ← hkind]
    split
    · refine (h' hrest).bind (fun e rest => .ok _ (.nil rest)) ?_
      exact fun e e' rest rest' hrest => .ok _ _ hrest
    · exact h (.token start start' hkind hrest)

theorem boolean_parallel {arithmetic deeper : Rule Expr} (harithmetic : Accounts arithmetic)
    (h : RuleParallel arithmetic arithmetic) (hdeeper : Accounts deeper) (h' : RuleParallel deeper deeper) :
    RuleParallel (Rule.boolean arithmetic deeper) (Rule.boolean arithmetic deeper) := by
  intro last stream stream' hstream
  cases hstream with
  | passed hlast => exact .behind (boolean_accounts harithmetic hdeeper stream) hlast _
  | @token start start' head head' hkind rest rest' hrest =>
    rw [Rule.boolean, Rule.boolean, ← hkind]
    split
    · exact .ok _ _ hrest
    · exact .ok _ _ hrest
    · refine (h' hrest).bind (fun e rest => .ok _ (.nil rest)) ?_
      exact fun e e' rest rest' hrest => .ok _ _ hrest
    · exact h (.token start start' hkind hrest)
    · have hsum := h (.token start start' hkind hrest)
      revert hsum
      generalize arithmetic (.token start head rest) = x
      generalize arithmetic (.token start' head' rest') = y
      rintro (⟨e, e', hbehind⟩ | ⟨e, hlast, _⟩ | ⟨_, e⟩ | ⟨hfree, _⟩)
      · exact .ok e e' hbehind
      · exact .passed e hlast _
      · exact .failed _ _
      · -- the source of the report is what refuses a token, or not
        refine .free ?_ _
        split
        · exact hfree
        · exact hfree

/-! ### The grammar -/

theorem expression_parallel (limits : Limits) (levels : Nat) :
    RuleParallel (expression limits levels) (expression limits levels) := by
  refine (rule_induction limits (P := fun _ _ rule => Accounts rule ∧ RuleParallel rule rule)
    ?_ ?_ ?_ ?_ ?_ levels).2.2.2
  · exact fun _ => ⟨fun _ => .error (.limit rfl), fun _ _ _ _ => .failed _ _⟩
  · exact fun level _ _ ⟨ha, h⟩ => ⟨chain_accounts limits _ ha, chain_parallel limits _ ha h⟩
  · exact fun ⟨ha, h⟩ => ⟨primary_accounts limits ha, primary_parallel limits ha h⟩
  · exact fun ⟨ha, h⟩ ⟨ha', h'⟩ => ⟨signed_accounts ha ha', signed_parallel ha h ha' h'⟩
  · exact fun ⟨ha, h⟩ ⟨ha', h'⟩ => ⟨boolean_accounts ha ha', boolean_parallel ha h ha' h'⟩

/-! ### Derivations -/

private theorem AgreesThrough.of_passes {ts us : List Token} {stream' rest' : TokenStream} (h : stream.Passes ts rest)
    (h' : stream'.Passes us rest') (hkinds : ts.map Token.kind <+: us.map Token.kind) (hlast : last ∉ rest.tokens) :
    AgreesThrough last stream stream' := by
  induction h generalizing us stream' with
  | nil stream => exact .passed hlast stream'
  | cons start head _ ih =>
    cases us with
    | nil => simp at hkinds
    | cons u us =>
      obtain ⟨hkind, hrest⟩ := List.cons_prefix_cons.1 hkinds
      obtain ⟨start', next', rfl, hnext⟩ := TokenStream.Passes.cons_iff.1 h'
      exact .token start start' hkind (ih hnext hrest hlast)

private theorem exists_passes (ts : List Token) (rest : TokenStream) : ∃ stream, TokenStream.Passes stream ts rest := by
  induction ts with
  | nil => exact ⟨rest, .nil rest⟩
  | cons t ts ih =>
    obtain ⟨stream, h⟩ := ih
    exact ⟨.token 0 t stream, .cons 0 t h⟩

variable {limits : Limits} {levels : Nat} {ts us : List Token} {t : Token} {e : Expr} {d w : Nat}

/-- The run on a stream that begins as an expression does is bound by the run that reads the expression. -/
private theorem parallel_of_derives (hpass : stream.Passes (ts ++ [t]) rest) (ht : t ∉ rest.tokens)
    (hkinds : (ts ++ [t]).map Token.kind <+: us.map Token.kind) (he : Derives (.chain .logical) us e d w)
    (hd : d < levels) (hw : w ≤ limits.maxChain) :
    Parallel t (expression limits levels stream) (.ok (e, .stop 0 (.endOfInput 0))) := by
  obtain ⟨stream', hpass'⟩ := exists_passes us (.stop 0 (.endOfInput 0))
  have hread : expression limits levels stream' = .ok (e, .stop 0 (.endOfInput 0)) :=
    (rule_complete limits he levels stream' _ hpass' (Part.endsBefore_stop _ _ _)).1 ⟨hd, hw⟩
  rw [← hread]
  exact expression_parallel limits levels (.of_passes hpass hpass' hkinds ht)

/-- What an expression within the limits begins with is not refused. -/
theorem not_refuses_of_derives (hpass : stream.Passes (ts ++ [t]) rest) (ht : t ∉ rest.tokens)
    (hkinds : (ts ++ [t]).map Token.kind <+: us.map Token.kind) (he : Derives (.chain .logical) us e d w)
    (hd : d < levels) (hw : w ≤ limits.maxChain) {error : ParseError}
    (h : expression limits levels stream = .error error) : ¬error.Refuses t := by
  have hparallel := parallel_of_derives hpass ht hkinds he hd hw
  rw [h] at hparallel
  cases hparallel with
  | free hfree _ => exact hfree

/-- What an expression within the limits begins with is not left behind. -/
theorem not_mem_of_derives (hpass : stream.Passes (ts ++ [t]) rest) (ht : t ∉ rest.tokens)
    (hkinds : (ts ++ [t]).map Token.kind <+: us.map Token.kind) (he : Derives (.chain .logical) us e d w)
    (hd : d < levels) (hw : w ≤ limits.maxChain) {e' : Expr} {rest' : TokenStream}
    (h : expression limits levels stream = .ok (e', rest')) : t ∉ rest'.tokens := by
  have hparallel := parallel_of_derives hpass ht hkinds he hd hw
  rw [h] at hparallel
  cases hparallel with
  | ok _ _ hagree =>
    cases hagree with
    | passed hlast _ => exact hlast
  | passed _ hlast _ => exact hlast

end Grammar
end DocFilter
