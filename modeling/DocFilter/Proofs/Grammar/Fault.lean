import DocFilter.Proofs.Grammar.Limits
import DocFilter.Proofs.Grammar.Refusal
import DocFilter.Proofs.Grammar.Sticking

/-!
# Where a text is at fault

Reading a text from the left, its first fault is the token with which it ceases to be the beginning of an expression, or
its end if there is no such token.  A syntax error names the first fault, unless the fault is that no key follows on a
dot: then it names the first key of the path (`parseWith_syntaxPosition`).

What stands before the place where a rule sticks is the beginning of an expression, because the rule fails for the end
of the text if the text is cut off there, and then it can be finished.  No expression goes on with what stands behind,
because the run that reads the expression would have refused it as well.
-/

namespace DocFilter
namespace Grammar

/-- Some expression, whatever limits it may exceed, has tokens of these kinds at its head. -/
def BeginsExpression (ts : List Token) : Prop :=
  ∃ us e d w, ts.map Token.kind <+: us.map Token.kind ∧ Derives (.chain .logical) us e d w

/-- The tokens before the first fault of a text with the tokens `all` and the given length, and the position of the
fault. -/
inductive FirstFault (all : List Token) (length : Nat) : (ts : List Token) → (position : Nat) → Prop where
  | token {ts : List Token} {t : Token} {rest : List Token} (htokens : all = ts ++ t :: rest)
      (hbefore : BeginsExpression ts) (hfault : ¬BeginsExpression (ts ++ [t])) : FirstFault all length ts t.position
  | ending (h : BeginsExpression all) : FirstFault all length all length

/-- The position `p` is that of the fault at `place`, or if the tokens before the fault end in a dot, that of the first
key of the path with this dot. -/
structure NamesFault (ts : List Token) (place p : Nat) : Prop where
  fault : ¬EndsInDot ts → p = place
  brokenPath : EndsInDot ts → ∃ before key after, ts = before ++ key :: after ∧ BrokenPath (key :: after) ∧
    p = key.position

variable {ts us : List Token}

theorem BeginsExpression.of_derives {e : Expr} {d w : Nat} (h : Derives (.chain .logical) (ts ++ us) e d w) :
    BeginsExpression ts :=
  ⟨ts ++ us, e, d, w, (List.prefix_append ts us).map Token.kind, h⟩

theorem BeginsExpression.of_append (h : BeginsExpression (ts ++ us)) : BeginsExpression ts := by
  obtain ⟨vs, e, d, w, hkinds, he⟩ := h
  exact ⟨vs, e, d, w, ((List.prefix_append ts us).map Token.kind).trans hkinds, he⟩

/-- Behind a dot no expression goes on without a key. -/
theorem not_beginsExpression_of_dot {t : Token} (hdot : EndsInDot ts) (ht : t.kind ≠ .identifier) :
    ¬BeginsExpression (ts ++ [t]) := by
  rintro ⟨us, e, d, w, ⟨more, hkinds⟩, he⟩
  obtain ⟨front, dot, rfl, hdot⟩ := hdot
  have hsplit : us.map Token.kind = front.map Token.kind ++ dot.kind :: t.kind :: more := by
    simpa using hkinds.symm
  obtain ⟨front', back, rfl, -, hback⟩ := List.map_eq_append_iff.1 hsplit
  obtain ⟨dot', behind, rfl, hdot', hbehind⟩ := List.map_eq_cons_iff.1 hback
  obtain ⟨t', rest, rfl, ht', -⟩ := List.map_eq_cons_iff.1 hbehind
  obtain ⟨key, more', hkey', hkey⟩ := he.dotsLead front' dot' (t' :: rest) rfl (hdot'.trans hdot)
  obtain ⟨rfl, -⟩ := List.cons.inj hkey'
  exact ht (ht'.symm.trans hkey)

namespace FirstFault

variable {all : List Token} {length p p' : Nat}

private theorem not_beginsExpression_of_fault {t : Token} (hfault : ¬BeginsExpression (ts ++ [t])) (rest : List Token) :
    ¬BeginsExpression (ts ++ t :: rest) := by
  intro h
  rw [List.append_cons] at h
  exact hfault h.of_append

/-- What begins an expression does not reach over the first fault. -/
private theorem length_le {t : Token} {rest rest' : List Token} (h : ts ++ t :: rest = us ++ rest')
    (hfault : ¬BeginsExpression (ts ++ [t])) (hbegins : BeginsExpression us) : us.length ≤ ts.length := by
  by_contra hlonger
  have hfront : ts ++ [t] <+: us ++ rest' := ⟨rest, by rw [← h, List.append_assoc, List.singleton_append]⟩
  have hlength : (ts ++ [t]).length ≤ us.length := by
    rw [List.length_append, List.length_singleton]
    omega
  obtain ⟨more, rfl⟩ := List.prefix_of_prefix_length_le hfront (List.prefix_append us rest') hlength
  exact hfault hbegins.of_append

/-- A text has only one first fault. -/
theorem unique (h : FirstFault all length ts p) (h' : FirstFault all length us p') : ts = us ∧ p = p' := by
  cases h with
  | @token _ t rest htokens hbefore hfault =>
    cases h' with
    | @token _ u rest' htokens' hbefore' hfault' =>
      have hsame : ts ++ t :: rest = us ++ u :: rest' := htokens.symm.trans htokens'
      have hlength : ts.length = us.length :=
        Nat.le_antisymm (length_le hsame.symm hfault' hbefore) (length_le hsame hfault hbefore')
      obtain ⟨rfl, hrest⟩ := List.append_inj hsame hlength
      obtain ⟨rfl, -⟩ := List.cons.inj hrest
      exact ⟨rfl, rfl⟩
    | ending hall =>
      subst htokens
      exact absurd hall (not_beginsExpression_of_fault hfault rest)
  | ending hall =>
    cases h' with
    | @token _ u rest' htokens' hbefore' hfault' =>
      subst htokens'
      exact absurd hall (not_beginsExpression_of_fault hfault' rest')
    | ending => exact ⟨rfl, rfl⟩

end FirstFault

/-! ### Streams that are cut off -/

variable {limits : Limits} {levels : Nat} {stream rest : TokenStream} {e : ParseError}

private theorem exists_cut (h : stream.Passes ts rest) :
    ∃ cut : TokenStream, cut.Prolonged stream ∧ cut.tokens = ts ∧ cut.reason = .endOfInput 0 := by
  induction h with
  | nil stream => exact ⟨.stop 0 (.endOfInput 0), .opened 0 rfl stream, rfl, rfl⟩
  | cons start head _ ih =>
    obtain ⟨cut, hcut, htokens, hreason⟩ := ih
    exact ⟨.token start head cut, .token start head hcut, congrArg (head :: ·) htokens, hreason⟩

private theorem Unfinished.of_innermost (h : Unfinished ts e.innermost) : Unfinished ts e := by
  induction e with
  | noAlternative position source ih => exact (ih h).alternatives position
  | _ => exact h

private theorem beginsExpression_of_unfinished {cut : TokenStream} (hnodup : cut.tokens.Nodup)
    (h : expression limits levels cut = .error e) (he : Unfinished cut.tokens e) : BeginsExpression cut.tokens := by
  obtain ⟨-, x, -, hfits⟩ := expression_finishable hnodup limits levels (List.suffix_refl _) h he
  obtain ⟨expr, d, w, hexpr, -, -⟩ := hfits (x.kinds.map fun k => ⟨k, "", 0, 0⟩) (by simp [Function.comp_def])
  exact .of_derives hexpr

/-- The tokens before the place where the rule for expressions sticks begin an expression. -/
private theorem beginsExpression_of_stuck (hnodup : stream.tokens.Nodup) (hpass : stream.Passes ts rest)
    (h : expression limits levels stream = .error e) (hstuck : Stuck ts rest e.innermost) : BeginsExpression ts := by
  obtain ⟨cut, hcut, rfl, hreason⟩ := exists_cut hpass
  have hnodup' : (cut.tokens ++ rest.tokens).Nodup := hpass.tokens_eq ▸ hnodup
  obtain ⟨hcutnodup, -, hdisjoint⟩ := List.nodup_append.1 hnodup'
  have hpersists := expression_persists limits levels hcut
  rw [h] at hpersists
  generalize hread : expression limits levels cut = x at hpersists
  cases hpersists with
  | undecided hundecided =>
    cases hundecided with
    | ok expr start hopen =>
      obtain ⟨us, d, w, hwhole, hexpr, -, -⟩ := expression_sound limits levels _ _ _ hread
      obtain rfl : cut.tokens = us := by simpa [TokenStream.tokens] using hwhole.tokens_eq
      exact ⟨_, expr, d, w, List.prefix_refl _, hexpr⟩
    | error hshort =>
      cases hshort with
      | unfinished he => exact beginsExpression_of_unfinished hcutnodup hread he
      | openString position =>
        rw [((expression_accounts limits levels).reported hread).reason_of_scan] at hreason
        cases hreason
  | error =>
    generalize hinnermost : e.innermost = e' at hstuck
    cases hstuck with
    | ended start position hlast =>
      exact beginsExpression_of_unfinished hcutnodup hread (.of_innermost (hinnermost ▸ .stop position))
    | refused start rest hlast hhead =>
      -- the token is not in the stream that is cut off, so it is not reported there
      have hmem := ((expression_accounts limits levels).reported hread).mem_of_innermost hinnermost
      exact absurd rfl (hdisjoint _ hmem _ (.head _))
    | path before htokens hbroken hhead =>
      refine beginsExpression_of_unfinished hcutnodup hread (.of_innermost ?_)
      rw [hinnermost]
      exact .hidden (.path before htokens hbroken)

/-! ### Tokens that are refused -/

variable {text : String} {t : Token} {start : Nat}

private theorem syntaxPosition?_of_refuses (h : e.Refuses t ∨ e = .trailingInput t) :
    e.syntaxPosition? = some t.position := by
  rcases h with ⟨expected, hinnermost, -⟩ | rfl
  · rw [ParseError.syntaxPosition?, hinnermost]
  · rfl

private theorem isLimit_of_refuses (h : e.Refuses t ∨ e = .trailingInput t) : e.isLimit = false := by
  rcases h with ⟨expected, hinnermost, -⟩ | rfl
  · cases e <;> first | rfl | cases hinnermost
  · rfl

/-- A syntax error behind an expression is about the token that stands there. -/
private theorem trailingInput_of_conclude {expr : Expr} {p : Nat} (h : conclude expr stream = .error e)
    (hp : e.syntaxPosition? = some p) : ∃ start t rest, stream = .token start t rest ∧ e = .trailingInput t := by
  unfold conclude at h
  split at h
  · cases h
  · obtain rfl := Except.error.inj h
    cases hp
  · exact ⟨_, _, _, rfl, (Except.error.inj h).symm⟩

/-- No expression goes on with a token that the text is refused for, under whatever limits. -/
private theorem not_beginsExpression_of_refused
    (hpass : (TokenStream.read 0 text.toList).Passes ts (.token start t rest))
    (h : Expr.parseWith limits text = .error e) (he : e.Refuses t ∨ e = .trailingInput t) :
    ¬BeginsExpression (ts ++ [t]) := by
  rintro ⟨us, expr, d, w, hkinds, hexpr⟩
  let wide : Limits := ⟨max limits.maxDepth d, max limits.maxChain w⟩
  have hwide : Expr.parseWith wide text = .error e := by
    rw [parseWith_widen (Nat.le_max_left ..) (Nat.le_max_left ..), h]
    intro error herror
    obtain rfl := Except.error.inj (h.symm.trans herror)
    exact isLimit_of_refuses he
  have hover : (TokenStream.read 0 text.toList).Passes (ts ++ [t]) rest := hpass.append (.cons start t (.nil rest))
  have hlast : t ∉ rest.tokens := by
    have hnodup := TokenStream.nodup_tokens_readFrom 0 0 0 text.toList
    rw [← TokenStream.read, hpass.tokens_eq] at hnodup
    exact (List.nodup_cons.1 (List.nodup_append.1 hnodup).2.1).1
  have hd : d < wide.maxDepth + 1 := Nat.lt_succ_of_le (Nat.le_max_right ..)
  have hw : w ≤ wide.maxChain := Nat.le_max_right ..
  rw [parseWith_eq_conclude] at hwide
  rcases bind_eq_error hwide with hread | ⟨⟨expr', rest'⟩, hread, hconclude⟩
  · rcases he with hrefuses | rfl
    · exact not_refuses_of_derives hover hlast hkinds hexpr hd hw hread hrefuses
    · cases expression_sticks wide _ hread with
      | stuck hb _ _ => cases hb
      | final _ hposition => cases hposition
  · have hnot := not_mem_of_derives hover hlast hkinds hexpr hd hw hread
    obtain ⟨start', t', behind, rfl, rfl⟩ := trailingInput_of_conclude hconclude (syntaxPosition?_of_refuses he)
    rcases he with ⟨expected, hinnermost, -⟩ | hsame
    · cases hinnermost
    · obtain rfl := ParseError.trailingInput.inj hsame
      exact hnot (.head _)

/-! ### Syntax errors -/

variable {all : List Token} {p : Nat}

private theorem firstFault_of_token (htokens : tokenize text = .ok all)
    (hpass : (TokenStream.read 0 text.toList).Passes ts (.token start t rest)) (hbefore : BeginsExpression ts)
    (hfault : ¬BeginsExpression (ts ++ [t])) : FirstFault all text.length ts t.position := by
  have hsplit : all = ts ++ t :: rest.tokens := (tokens_of_tokenize htokens).symm.trans hpass.tokens_eq
  exact .token hsplit hbefore hfault

/-- A text without tokens that are at fault ends at its length. -/
private theorem firstFault_of_stop (htokens : tokenize text = .ok all) {reason : Stop}
    (hpass : (TokenStream.read 0 text.toList).Passes ts (.stop start reason)) (hbegins : BeginsExpression ts) :
    FirstFault all text.length ts text.length ∧ reason = .endOfInput text.length := by
  have hall : all = ts := by
    rw [← tokens_of_tokenize htokens, hpass.tokens_eq, TokenStream.tokens, List.append_nil]
  obtain ⟨start', position, hwhole⟩ := tokenize_eq_ok_iff.1 htokens
  have hreason : reason = .endOfInput position := hpass.reason_eq.symm.trans hwhole.reason_eq
  have hposition := TokenStream.position_of_endOfInput hwhole.reason_eq
  rw [Nat.zero_add, String.length_toList] at hposition
  subst hall
  exact ⟨.ending hbegins, hposition ▸ hreason⟩

/-- The first fault of a text is where the rule for expressions sticks. -/
private theorem firstFault_of_stuck (htokens : tokenize text = .ok all) (h : Expr.parseWith limits text = .error e)
    (hpass : (TokenStream.read 0 text.toList).Passes ts rest) (hbegins : BeginsExpression ts)
    (hstuck : Stuck ts rest e.innermost) (hp : e.syntaxPosition? = some p) :
    ∃ place, FirstFault all text.length ts place ∧ NamesFault ts place p := by
  rw [ParseError.syntaxPosition?] at hp
  generalize hinnermost : e.innermost = reason at hstuck hp
  cases hstuck with
  | ended start position hlast =>
    obtain rfl := Option.some.inj hp
    obtain ⟨hfault, hend⟩ := firstFault_of_stop htokens hpass hbegins
    exact ⟨_, hfault, fun _ => Stop.endOfInput.inj hend, fun hdot => absurd hdot hlast⟩
  | refused start rest hlast hhead =>
    obtain rfl := Option.some.inj hp
    have hrefused := not_beginsExpression_of_refused hpass h (.inl ⟨_, hinnermost, hhead⟩)
    exact ⟨_, firstFault_of_token htokens hpass hbegins hrefused, fun _ => rfl, fun hdot => absurd hdot hlast⟩
  | @path before after key _ hsplit hbroken hhead =>
    obtain rfl := Option.some.inj hp
    have hdot : EndsInDot ts := hsplit ▸ hbroken.endsInDot.append before
    have hnames (place : Nat) : NamesFault ts place key.position :=
      ⟨fun hno => absurd hdot hno, fun _ => ⟨before, key, after, hsplit, hbroken, rfl⟩⟩
    cases rest with
    | stop start reason => exact ⟨_, (firstFault_of_stop htokens hpass hbegins).1, hnames _⟩
    | token start t rest =>
      have ht : t.kind ≠ .identifier := fun hk => hhead (congrArg some hk)
      exact ⟨_, firstFault_of_token htokens hpass hbegins (not_beginsExpression_of_dot hdot ht), hnames _⟩

/-- The syntax error of a text that consists of tokens names the first fault of the text; only where a key should follow
on a dot, it names the first key of the path that is broken off there. -/
theorem parseWith_syntaxPosition (htokens : tokenize text = .ok all) (h : Expr.parseWith limits text = .error e)
    (hp : e.syntaxPosition? = some p) :
    ∃ ts place, FirstFault all text.length ts place ∧ NamesFault ts place p := by
  have hread := h
  rw [parseWith_eq_conclude] at hread
  rcases bind_eq_error hread with hrule | ⟨⟨expr, rest⟩, hrule, hconclude⟩
  · cases expression_sticks limits _ hrule with
    | final _ hposition =>
      rw [hposition] at hp
      cases hp
    | @stuck ts rest _ _ hpass hstuck =>
      have hnodup := TokenStream.nodup_tokens_readFrom 0 0 0 text.toList
      have hbegins : BeginsExpression ts := beginsExpression_of_stuck hnodup hpass hrule hstuck
      exact ⟨ts, firstFault_of_stuck htokens h hpass hbegins hstuck hp⟩
  · obtain ⟨start, t, behind, rfl, rfl⟩ := trailingInput_of_conclude hconclude hp
    obtain ⟨ts, d, w, hpass, hexpr, -, -⟩ := expression_sound limits _ _ _ _ hrule
    have hbegins : BeginsExpression ts := ⟨ts, expr, d, w, List.prefix_refl _, hexpr⟩
    have hrefused := not_beginsExpression_of_refused hpass h (.inr rfl)
    obtain rfl := Option.some.inj hp
    exact ⟨ts, _, firstFault_of_token htokens hpass hbegins hrefused, fun _ => rfl,
      fun hdot => absurd hdot hexpr.not_endsInDot⟩

/-- A group that is closed before its operand. -/
theorem parseWith_syntaxPosition_group :
    ∃ all e, tokenize "(1 + )" = .ok all ∧ Expr.parseWith .standard "(1 + )" = .error e ∧
      e.syntaxPosition? = some 5 ∧ ∃ ts place, FirstFault all "(1 + )".length ts place ∧ NamesFault ts place 5 := by
  have htokens : tokenize "(1 + )" = .ok (TokenStream.read 0 "(1 + )".toList).tokens := rfl
  have hparse : Expr.parseWith .standard "(1 + )" =
      .error (.noAlternative 1 (.unexpectedToken .leftParen ⟨.rightParen, ")", 5, 6⟩)) := rfl
  exact ⟨_, _, htokens, hparse, rfl, parseWith_syntaxPosition htokens hparse rfl⟩

/-- A number cannot follow on a dot, but it is not the place that the error names. -/
theorem syntaxPosition_behind_dot :
    ∃ all e ts, tokenize "a.1" = .ok all ∧ Expr.parseWith .standard "a.1" = .error e ∧
      e.syntaxPosition? = some 0 ∧ FirstFault all "a.1".length ts 2 := by
  let a : Token := ⟨.identifier, "a", 0, 1⟩
  let dot : Token := ⟨.dot, ".", 1, 2⟩
  let one : Token := ⟨.integer, "1", 2, 3⟩
  have hpath : Derives .operand ([a, dot] ++ [a]) _ 0 1 := .path (.step a dot rfl rfl (.last a rfl))
  have hbefore : BeginsExpression [a, dot] := .of_derives hpath.expression_of_operand
  have hfault : ¬BeginsExpression ([a, dot] ++ [one]) := not_beginsExpression_of_dot ⟨[a], dot, rfl, rfl⟩ (by decide)
  exact ⟨_, _, [a, dot], rfl, rfl, rfl, .token rfl hbefore hfault⟩

end Grammar
end DocFilter
