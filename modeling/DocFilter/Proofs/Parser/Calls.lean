import DocFilter.Proofs.Grammar.Completeness
import DocFilter.Proofs.Parser.Backtracking

/-!
# Calling a parser again

Backtracking is exact: a production that fails leaves the cursor where it was, and one that succeeds moves it forward
to the end of a token of the input (`Procedure.Exact`).  So a call of a parser either changes nothing, and then every
later call gives the same error, or it moves the cursor forward.  As the cursor does not leave the input, the answers
are the same for good after as many calls as there are characters (`Parser.backtracking_exact`).
-/

namespace DocFilter

/-! ### Exact procedures -/

/-- The procedure does what the rule does where it is run, and it moves the cursor exactly if it succeeds. -/
structure Procedure.Exact {α : Type} (p : Procedure α) (rule : Rule α) : Prop where
  /-- Running the rule is running the procedure. -/
  run_eq : ∀ q : Parser, q.run rule = ((p q.lexer).1, { q with lexer := (p q.lexer).2 })
  /-- An error leaves the lexer as it was. -/
  of_error : ∀ (l next : Lexer) (e : ParseError), p l = (.error e, next) → next = l
  /-- A result leaves the cursor further along in the input, at the end of the last token taken. -/
  of_ok : ∀ (l next : Lexer) (a : α), p l = (.ok a, next) →
    next.input = l.input ∧ l.position < next.position ∧ next.position ≤ l.input.length ∧
      ∃ ts t, l.stream.Passes (ts ++ [t]) next.stream ∧ next.position = t.stop

namespace Procedure

open Grammar

/-- The rule takes at least one token when it succeeds. -/
private def Takes {α : Type} (rule : Rule α) : Prop :=
  ∀ (stream rest : TokenStream) (a : α), rule stream = .ok (a, rest) → ∃ ts, ts ≠ [] ∧ stream.Passes ts rest

private theorem Takes.of_sound {limits : Limits} {levels : Nat} {part : Part} {rule : Rule Expr}
    (h : Sound limits levels part rule) : Takes rule := by
  intro stream rest e hread
  obtain ⟨ts, d, w, hpass, he, -, -⟩ := h _ _ _ hread
  obtain ⟨t, us, rfl, -⟩ := he.opening
  exact ⟨t :: us, List.cons_ne_nil t us, hpass⟩

private theorem Takes.path (limits : Limits) : Takes (Rule.path limits) := by
  intro stream rest path hread
  obtain ⟨ts, dots, hpass, hpath, -⟩ := path_sound hread
  refine ⟨ts, ?_, hpass⟩
  cases hpath <;> exact List.cons_ne_nil _ _

private theorem Implements.exact {α : Type} {p : Procedure α} {rule : Rule α} (h : Implements p rule)
    (hrule : Takes rule) : Exact p rule where
  run_eq := Backtracking.run_eq_of_implements h
  of_error l next e hread := (h.rule_of_error hread).2
  of_ok l next a hread := by
    obtain ⟨hanswer, hinput⟩ := h.rule_of_ok hread
    obtain ⟨ts, hne, hpass⟩ := hrule _ _ _ hanswer
    rcases List.eq_nil_or_concat ts with rfl | ⟨front, last, rfl⟩
    · exact absurd rfl hne
    · rw [List.concat_eq_append] at hpass
      have hbounds := hpass.end_bounds
      rw [next.position_stream] at hbounds
      exact ⟨hinput, by omega, by omega, front, last, hpass, hbounds.1⟩

end Procedure

namespace Backtracking

open Grammar Procedure

section

variable (limits : Limits) (depth : Nat)

theorem boolean_exact : Exact (boolean limits depth) (Grammar.boolean limits (levelsAt limits depth)) :=
  (boolean_implements limits depth).exact (.of_sound (boolean_and_operand_sound limits _).1)

theorem operand_exact : Exact (operand limits depth) (Grammar.operand limits (levelsAt limits depth)) :=
  (operand_implements limits depth).exact (.of_sound (boolean_and_operand_sound limits _).2)

theorem signed_exact : Exact (signed limits depth) (Grammar.signed limits (levelsAt limits depth)) :=
  (signed_implements limits depth).exact (.of_sound (signed_sound limits _))

theorem product_exact : Exact (product limits depth) (Grammar.product limits (levelsAt limits depth)) :=
  (product_implements limits depth).exact (.of_sound (product_sound limits _))

theorem sum_exact : Exact (sum limits depth) (Grammar.sum limits (levelsAt limits depth)) :=
  (sum_implements limits depth).exact (.of_sound (sum_sound limits _))

theorem comparison_exact :
    Exact (comparison limits depth) (Grammar.comparison limits (levelsAt limits depth)) :=
  (comparison_implements limits depth).exact (.of_sound (comparison_sound limits _))

theorem expression_exact :
    Exact (expression limits depth) (Grammar.expression limits (levelsAt limits depth)) :=
  (expression_implements limits depth).exact (.of_sound (expression_sound limits _))

theorem path_exact : Exact (path limits) (Rule.path limits) :=
  (path_implements limits).exact (.path limits)

end

end Backtracking

/-! ### One call -/

namespace Parser

variable {p : Parser}

/-- A call fails without a trace, or it reads an expression and then scans once more. -/
private theorem parse_cases (p : Parser) :
    (∃ e, p.parse = (.error e, p)) ∨
      ∃ e next, next.input = p.lexer.input ∧ p.lexer.position < next.position ∧
        next.position ≤ next.input.length ∧
        p.parse = ((Backtracking.conclude e next).1, { p with lexer := next.scan.2 }) := by
  rw [Backtracking.parse_eq]
  rcases hread : Backtracking.expression p.limits 0 p.lexer with ⟨e | e, next⟩
  · obtain rfl := (Backtracking.expression_exact p.limits 0).of_error _ _ _ hread
    refine .inl ⟨e, ?_⟩
    rw [Backtracking.parse, Procedure.bind_error hread]
  · obtain ⟨hinput, hforward, hwithin, -⟩ := (Backtracking.expression_exact p.limits 0).of_ok _ _ _ hread
    refine .inr ⟨e, next, hinput, hforward, hinput ▸ hwithin, ?_⟩
    have hcursor : (Backtracking.conclude e next).2 = next.scan.2 := by
      unfold Backtracking.conclude
      rcases next.scan with ⟨(position | fault) | token, last⟩ <;> rfl
    rw [Backtracking.parse, Procedure.bind_ok hread, hcursor]

/-- A call changes neither the input nor the limits. -/
theorem parse_keeps (p : Parser) : p.parse.2.lexer.input = p.lexer.input ∧ p.parse.2.limits = p.limits := by
  rcases p.parse_cases with ⟨e, hparse⟩ | ⟨e, next, hinput, -, -, hparse⟩
  · rw [hparse]
    exact ⟨rfl, rfl⟩
  · rw [hparse]
    exact ⟨next.scan_input.trans hinput, rfl⟩

/-- A call fails and changes nothing, or it moves the cursor forward in the input. -/
theorem parse_still_or_forward (p : Parser) :
    (∃ e, p.parse = (.error e, p)) ∨
      p.lexer.position < p.parse.2.lexer.position ∧ p.parse.2.lexer.position ≤ p.lexer.input.length := by
  rcases p.parse_cases with hstill | ⟨e, next, hinput, hforward, hwithin, hparse⟩
  · exact .inl hstill
  · have hbounds := Lexer.scan_bounds hwithin
    rw [hparse]
    rw [hinput] at hbounds
    exact .inr ⟨by dsimp only; omega, hbounds.2⟩

/-- A call that succeeds leaves the cursor at the end of the input. -/
theorem position_of_parse_ok {e : Expr} (h : p.parse.1 = .ok e) :
    p.parse.2.lexer.position = p.lexer.input.length := by
  rcases p.parse_cases with ⟨e', hparse⟩ | ⟨e', next, hinput, -, hwithin, hparse⟩
  · rw [hparse] at h
    cases h
  · rw [hparse] at h ⊢
    unfold Backtracking.conclude at h
    rcases hscan : next.scan with ⟨(position | fault) | token, last⟩
    · have := Lexer.scan_end hscan
      rw [hinput] at this hwithin
      dsimp only
      omega
    · rw [hscan] at h
      cases h
    · rw [hscan] at h
      cases h

/-- At the end of the input, or behind it, a call finds nothing. -/
theorem parse_at_end (h : p.lexer.input.length ≤ p.lexer.position) :
    p.parse = (.error (.endOfStream p.lexer.position), p) := by
  have hahead : p.lexer.ahead = [] := List.drop_eq_nil_of_le h
  have hstream : p.lexer.stream = .stop p.lexer.position (.endOfInput p.lexer.position) := by
    rw [Lexer.stream, hahead]
    rfl
  unfold Parser.parse Parser.run
  rw [hstream]
  rfl

/-! ### One call after the other -/

/-- The parser after `n` calls. -/
def after (p : Parser) : Nat → Parser
  | 0 => p
  | n + 1 => (p.after n).parse.2

/-- The answer of the call before which there have been `n` others. -/
def answer (p : Parser) (n : Nat) : Except ParseError Expr :=
  (p.after n).parse.1

/-- The input and the limits stay the same over all calls. -/
theorem after_keeps (p : Parser) (n : Nat) :
    (p.after n).lexer.input = p.lexer.input ∧ (p.after n).limits = p.limits := by
  induction n with
  | zero => exact ⟨rfl, rfl⟩
  | succ n ih =>
    obtain ⟨hinput, hlimits⟩ := (p.after n).parse_keeps
    exact ⟨hinput.trans ih.1, hlimits.trans ih.2⟩

/-- Behind a call that fails and changes nothing all calls fail in the same way. -/
theorem answer_of_still {n : Nat} {e : ParseError} (h : (p.after n).parse = (.error e, p.after n)) {m : Nat}
    (hm : n ≤ m) : p.answer m = .error e := by
  have hafter : p.after m = p.after n := by
    induction hm with
    | refl => rfl
    | step _ ih => rw [after, ih, h]
  rw [answer, hafter, h]

/-- Among the first calls one has changed nothing, or each of them has moved the cursor forward. -/
private theorem still_or_position_le (p : Parser) (n : Nat) :
    (∃ k e, k < n ∧ (p.after k).parse = (.error e, p.after k)) ∨ n ≤ (p.after n).lexer.position := by
  induction n with
  | zero => exact .inr (Nat.zero_le _)
  | succ n ih =>
    rcases ih with ⟨k, e, hk, hstill⟩ | hposition
    · exact .inl ⟨k, e, by omega, hstill⟩
    · rcases (p.after n).parse_still_or_forward with ⟨e, hstill⟩ | ⟨hforward, -⟩
      · exact .inl ⟨n, e, by omega, hstill⟩
      · exact .inr (by rw [after]; omega)

/-- Not all of the first calls can move the cursor, because it does not leave the input. -/
private theorem exists_still (p : Parser) :
    ∃ n e, n ≤ p.lexer.input.length ∧ (p.after n).parse = (.error e, p.after n) := by
  rcases p.still_or_position_le p.lexer.input.length with ⟨n, e, hn, hstill⟩ | hend
  · exact ⟨n, e, Nat.le_of_lt hn, hstill⟩
  · have hinput : (p.after p.lexer.input.length).lexer.input = p.lexer.input := (p.after_keeps _).1
    exact ⟨_, _, Nat.le_refl _, parse_at_end (by rw [hinput]; exact hend)⟩

open Backtracking in
/-- Backtracking is exact at every depth.  Of the calls of one parser each leaves the cursor where it is, and then
this call and all later ones give the same error, or it moves the cursor forward in the input; after a call that
succeeds the cursor is at the end of the input and all later calls find the end there.  The answer of the call that
as many others precede as there are characters is an error and that of all calls after it. -/
theorem backtracking_exact (p : Parser) :
    (∀ depth,
      Procedure.Exact (expression p.limits depth) (Grammar.expression p.limits (levelsAt p.limits depth)) ∧
      Procedure.Exact (comparison p.limits depth) (Grammar.comparison p.limits (levelsAt p.limits depth)) ∧
      Procedure.Exact (boolean p.limits depth) (Grammar.boolean p.limits (levelsAt p.limits depth)) ∧
      Procedure.Exact (sum p.limits depth) (Grammar.sum p.limits (levelsAt p.limits depth)) ∧
      Procedure.Exact (product p.limits depth) (Grammar.product p.limits (levelsAt p.limits depth)) ∧
      Procedure.Exact (signed p.limits depth) (Grammar.signed p.limits (levelsAt p.limits depth)) ∧
      Procedure.Exact (operand p.limits depth) (Grammar.operand p.limits (levelsAt p.limits depth)) ∧
      Procedure.Exact (Procedure.path p.limits) (Rule.path p.limits)) ∧
    (∀ n, Backtracking.parse p.limits (p.after n).lexer = (p.answer n, (p.after (n + 1)).lexer)) ∧
    (∀ n, (p.after (n + 1) = p.after n ∧ ∃ e, ∀ m, n ≤ m → p.answer m = .error e) ∨
      (p.after n).lexer.position < (p.after (n + 1)).lexer.position ∧
        (p.after (n + 1)).lexer.position ≤ p.lexer.input.length) ∧
    (∀ n e, p.answer n = .ok e → (p.after (n + 1)).lexer.position = p.lexer.input.length ∧
      ∀ m, n < m → p.answer m = .error (.endOfStream p.lexer.input.length)) ∧
    ∃ e, ∀ n, p.lexer.input.length ≤ n → p.answer n = .error e := by
  refine ⟨fun depth => ?_, fun n => ?_, fun n => ?_, fun n e hanswer => ?_, ?_⟩
  · exact ⟨expression_exact .., comparison_exact .., boolean_exact .., sum_exact .., product_exact ..,
      signed_exact .., operand_exact .., path_exact ..⟩
  · rw [answer, after, parse_eq, (p.after_keeps n).2]
  · rcases (p.after n).parse_still_or_forward with ⟨e, hstill⟩ | hforward
    · refine .inl ⟨?_, e, fun m hm => answer_of_still hstill hm⟩
      rw [after, hstill]
    · rw [(p.after_keeps n).1] at hforward
      exact .inr hforward
  · have hposition : (p.after (n + 1)).lexer.position = p.lexer.input.length := by
      rw [after, position_of_parse_ok hanswer, (p.after_keeps n).1]
    have hend : (p.after (n + 1)).lexer.input.length = (p.after (n + 1)).lexer.position := by
      rw [(p.after_keeps (n + 1)).1, hposition]
    have hstill := parse_at_end (Nat.le_of_eq hend)
    rw [hposition] at hstill
    exact ⟨hposition, fun m hm => answer_of_still hstill hm⟩
  · obtain ⟨n, e, hn, hstill⟩ := p.exists_still
    exact ⟨e, fun m hm => answer_of_still hstill (Nat.le_trans hn hm)⟩

end Parser

end DocFilter
