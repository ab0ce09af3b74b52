import DocFilter.Proofs.Parser.Procedure

/-!
# Productions

The building blocks of the grammar as procedures: chains and paths as loops, and the three kinds of operand as
alternatives that are tried in turn.  Each of them implements the rule of the same name if the procedures that it is
given implement the rules that the rule is given (`chain_implements`, `path_implements`, `primary_implements`,
`signed_implements`, `boolean_implements`).  The rules know from the first token which alternative it is; the
procedures find out by failing.
-/

namespace DocFilter
namespace Procedure

/-! ### Chains -/

/-- The operator at the cursor, if one of the level stands there; otherwise the cursor is put back. -/
def operator (operator? : TokenKind → Option BinOp) : Procedure (Option BinOp) := fun l =>
  let start := l.checkpoint
  match l.scan with
  | (.error _, next) => (.ok none, next.restore start)
  | (.ok token, next) =>
    match operator? token.kind with
    | none => (.ok none, next.restore start)
    | some op => (.ok (some op), next)

/-- Goes on with a chain that has `length` operators up to now. -/
def links (limits : Limits) (operator? : TokenKind → Option BinOp) (operand : Procedure Expr) (length : Nat)
    (left : Expr) : Procedure Expr := do
  match ← operator operator? with
  | none => return left
  | some op =>
    if length < limits.maxChain then
      let right ← operand
      links limits operator? operand (length + 1) (.binary op left right)
    else fail (.chainTooLong limits.maxChain)
termination_by limits.maxChain - length

/-- Operands with operators of one level between them, grouped from the left. -/
def chain (limits : Limits) (operator? : TokenKind → Option BinOp) (operand : Procedure Expr) : Procedure Expr :=
  attempt do
    let left ← operand
    links limits operator? operand 0 left

private theorem operator_cases (operator? : TokenKind → Option BinOp) (l : Lexer) :
    operator operator? l = (.ok none, l) ∧ Rule.operatorAhead? operator? l.stream = none ∨
      ∃ op t next, operator operator? l = (.ok (some op), next) ∧ l.stream.Passes [t] next.stream ∧
        next.input = l.input ∧ Rule.operatorAhead? operator? l.stream = some (op, next.stream) := by
  unfold operator
  rcases l.scan_cases with ⟨reason, next, hscan, hstream, hinput⟩ | ⟨t, next, hscan, hstream, hinput⟩
  · rw [hscan, hstream]
    dsimp only
    rw [restore_eq hinput]
    exact .inl ⟨rfl, rfl⟩
  · rw [hscan, hstream]
    dsimp only [Rule.operatorAhead?]
    cases operator? t.kind with
    | none => exact .inl ⟨by rw [restore_eq hinput], rfl⟩
    | some op => exact .inr ⟨op, t, next, rfl, .cons _ _ (.nil _), hinput, rfl⟩

/-- The loop for a chain follows the rule for what is left of the bound. -/
private theorem links_follows {limits : Limits} {operator? : TokenKind → Option BinOp} {operand : Procedure Expr}
    {rule : Rule Expr} (hoperand : Implements operand rule) {budget length : Nat}
    (hlength : length + budget = limits.maxChain) (left : Expr) :
    Follows (links limits operator? operand length left) (Rule.chainFrom limits operator? rule budget left) := by
  induction budget generalizing length left with
  | zero =>
    intro l
    rw [links, Rule.chainFrom]
    rcases operator_cases operator? l with ⟨hoperator, hahead⟩ | ⟨op, t, next, hoperator, hpass, hinput, hahead⟩
    · rw [bind_ok hoperator, hahead]
      exact return_follows left l
    · rw [bind_ok hoperator, hahead]
      dsimp only
      rw [if_neg (by omega)]
      exact .error _ hinput
  | succ budget ih =>
    intro l
    rw [links, Rule.chainFrom]
    rcases operator_cases operator? l with ⟨hoperator, hahead⟩ | ⟨op, t, next, hoperator, hpass, hinput, hahead⟩
    · rw [bind_ok hoperator, hahead]
      exact return_follows left l
    · rw [bind_ok hoperator, hahead]
      dsimp only
      rw [if_pos (by omega)]
      have hnext := hoperand.follows.bind (f := fun right => links limits operator? operand (length + 1)
        (.binary op left right)) fun right => ih (by omega) (.binary op left right)
      exact (hnext next).after hpass hinput

theorem chain_implements {limits : Limits} {operator? : TokenKind → Option BinOp} {operand : Procedure Expr}
    {rule : Rule Expr} (hoperand : Implements operand rule) :
    Implements (chain limits operator? operand) (Rule.chain limits operator? rule) :=
  (hoperand.follows.bind fun left => links_follows hoperand (Nat.zero_add _) left).attempt

/-! ### Paths -/

/-- Whether a dot stands at the cursor, which is then taken. -/
def dot : Procedure Bool := fun l =>
  match l.expect .dot with
  | (.ok _, next) => (.ok true, next)
  | (.error _, next) => (.ok false, next)

/-- Goes on with a path that has the keys `later` behind its first one up to now. -/
def keys (limits : Limits) (later : List String) : Procedure (List String) := do
  if ← dot then
    if later.length < limits.maxChain then
      let key ← expect .identifier
      keys limits (later ++ [key.text])
    else fail (.chainTooLong limits.maxChain)
  else return later
termination_by limits.maxChain - later.length
decreasing_by simp only [List.length_append, List.length_singleton]; omega

/-- Identifiers joined by dots. -/
def path (limits : Limits) : Procedure FieldPath :=
  attempt do
    let first ← expect .identifier
    let later ← keys limits []
    return .chain first.text later

private theorem dot_cases (l : Lexer) :
    dot l = (.ok false, l) ∧ Rule.behindDot? l.stream = none ∨
      ∃ t next, dot l = (.ok true, next) ∧ l.stream.Passes [t] next.stream ∧ next.input = l.input ∧
        Rule.behindDot? l.stream = some next.stream := by
  unfold dot Lexer.expect
  rcases l.scan_cases with ⟨reason, next, hscan, hstream, hinput⟩ | ⟨t, next, hscan, hstream, hinput⟩
  · rw [hscan, hstream]
    exact .inl ⟨rfl, rfl⟩
  · rw [hscan, hstream]
    dsimp only [Rule.behindDot?]
    by_cases hk : t.kind = .dot
    · rw [if_pos hk, if_pos hk]
      exact .inr ⟨t, next, rfl, .cons _ _ (.nil _), hinput, rfl⟩
    · rw [if_neg hk, if_neg hk]
      exact .inl ⟨rfl, rfl⟩

private theorem first_of_pathFrom {limits : Limits} {budget : Nat} {key : String} {stream rest : TokenStream}
    {path : FieldPath} (h : Rule.pathFrom limits budget key stream = .ok (path, rest)) : path.first = key := by
  unfold Rule.pathFrom at h
  split at h
  · obtain ⟨rfl, -⟩ := Prod.mk.inj (Except.ok.inj h)
    rfl
  · split at h
    · cases h
    · obtain ⟨_, _, hlater⟩ := bind_eq_ok h
      obtain ⟨_, _, hlast⟩ := bind_eq_ok hlater
      obtain ⟨rfl, -⟩ := Prod.mk.inj (Except.ok.inj hlast)
      rfl

/-- The keys that the rule for a path finds behind the first one, put behind those that are there already. -/
private def laterKeys (limits : Limits) (budget : Nat) (first : String) (later : List String) : Rule (List String) :=
  fun stream => do
    let (path, rest) ← Rule.pathFrom limits budget first stream
    return (later ++ path.later, rest)

private theorem laterKeys_dot {limits : Limits} {stream rest : TokenStream} (h : Rule.behindDot? stream = some rest)
    (budget : Nat) (first : String) (later : List String) :
    laterKeys limits (budget + 1) first later stream =
      Rule.expect .identifier rest >>= fun r => laterKeys limits budget r.1.text (later ++ [r.1.text]) r.2 := by
  unfold laterKeys
  rw [Rule.pathFrom, h]
  dsimp only
  cases Rule.expect .identifier rest with
  | error e => rfl
  | ok r =>
    show (Rule.pathFrom limits budget r.1.text r.2 >>= _) >>= _ = Rule.pathFrom limits budget r.1.text r.2 >>= _
    cases hpath : Rule.pathFrom limits budget r.1.text r.2 with
    | error e => rfl
    | ok r' =>
      show Except.ok (later ++ r'.1.first :: r'.1.later, r'.2) = .ok (later ++ [r.1.text] ++ r'.1.later, r'.2)
      rw [first_of_pathFrom hpath, List.append_assoc, List.singleton_append]

/-- The loop for a path follows the rule for what is left of the bound. -/
private theorem keys_follows {limits : Limits} {budget : Nat} {later : List String}
    (hlater : later.length + budget = limits.maxChain) (first : String) :
    Follows (keys limits later) (laterKeys limits budget first later) := by
  induction budget generalizing later first with
  | zero =>
    intro l
    rw [keys]
    rcases dot_cases l with ⟨hdot, hbehind⟩ | ⟨t, next, hdot, hpass, hinput, hbehind⟩
    · rw [bind_ok hdot, laterKeys, Rule.pathFrom, hbehind]
      show Agrees l _ (.ok later, l) (.ok (later ++ [], l.stream))
      rw [List.append_nil]
      exact return_follows later l
    · rw [bind_ok hdot, laterKeys, Rule.pathFrom, hbehind, if_pos rfl, if_neg (by omega)]
      exact .error _ hinput
  | succ budget ih =>
    intro l
    rw [keys]
    rcases dot_cases l with ⟨hdot, hbehind⟩ | ⟨t, next, hdot, hpass, hinput, hbehind⟩
    · rw [bind_ok hdot, laterKeys, Rule.pathFrom, hbehind]
      show Agrees l _ (.ok later, l) (.ok (later ++ [], l.stream))
      rw [List.append_nil]
      exact return_follows later l
    · rw [bind_ok hdot, laterKeys_dot hbehind, if_pos rfl, if_pos (by omega)]
      have hnext := (expect_implements .identifier).follows.bind (f := fun key => keys limits (later ++ [key.text]))
        fun key => ih (by simp only [List.length_append, List.length_singleton]; omega) key.text
      exact (hnext next).after hpass hinput

private theorem path_eq_keys (limits : Limits) (stream : TokenStream) :
    Rule.path limits stream =
      Rule.expect .identifier stream >>= fun r =>
        laterKeys limits limits.maxChain r.1.text [] r.2 >>= fun r' => .ok (.chain r.1.text r'.1, r'.2) := by
  rw [Rule.path]
  cases Rule.expect .identifier stream with
  | error e => rfl
  | ok r =>
    show Rule.pathFrom limits limits.maxChain r.1.text r.2 =
      (Rule.pathFrom limits limits.maxChain r.1.text r.2 >>= _) >>= _
    cases hpath : Rule.pathFrom limits limits.maxChain r.1.text r.2 with
    | error e => rfl
    | ok r' =>
      show Except.ok r' = .ok (.chain r.1.text ([] ++ r'.1.later), r'.2)
      rw [List.nil_append, ← first_of_pathFrom hpath, FieldPath.chain_segments]

theorem path_implements (limits : Limits) : Implements (path limits) (Rule.path limits) := by
  have hlater (first : Token) : Follows (do let later ← keys limits []; return FieldPath.chain first.text later)
      fun stream => laterKeys limits limits.maxChain first.text [] stream >>= fun r =>
        .ok (.chain first.text r.1, r.2) :=
    (keys_follows (Nat.zero_add _) first.text).bind fun later => return_follows (FieldPath.chain first.text later)
  have hpath := ((expect_implements .identifier).follows.bind hlater).attempt
  rwa [← funext (path_eq_keys limits)] at hpath

/-! ### Operands -/

/-- A group in parentheses. -/
def enclosed (group : Procedure Expr) : Procedure Expr := do
  let _ ← expect .leftParen
  let inner ← group
  let _ ← expect .rightParen
  return inner

/-- A number or a group in parentheses. -/
def numberOrGroup (group : Procedure Expr) : Procedure Expr := do
  let start ← checkpoint
  let token ← scan
  match token.kind with
  | .decimal => ofResult (Rule.decimal token)
  | .integer => ofResult (Rule.integer token)
  | _ =>
    restore start
    enclosed group

/-- A string, a path, `null`, a number or a group in parentheses. -/
def primary (limits : Limits) (group : Procedure Expr) : Procedure Expr :=
  attempt <|
    ifReads (expect .string) (fun token => return .string token.text) <|
    ifReads (path limits) (fun path => return .field path) <|
    ifReads (expect .nullWord) (fun _ => return .null) (numberOrGroup group)

/-- An operand with at most one sign in front. -/
def signed (operand deeper : Procedure Expr) : Procedure Expr :=
  attempt do
    let start ← checkpoint
    let token ← scan
    match Sign.ofKind? token.kind with
    | some sign =>
      let operand ← deeper
      return .signed sign operand
    | none =>
      restore start
      operand

/-- A negation, after arithmetic has failed.  At a parenthesis the error of arithmetic is left as it is. -/
def negation (deeper : Procedure Expr) (arithmetic : ParseError) : Procedure Expr := do
  let token ← scan
  match token.kind with
  | .notOp =>
    let operand ← deeper
    return .not operand
  | .leftParen => fail arithmetic
  | _ => fail (.noAlternative token.position arithmetic)

def arithmeticOrNegation (arithmetic deeper : Procedure Expr) : Procedure Expr := do
  match ← recover arithmetic with
  | .ok e => return e
  | .error e => negation deeper e

/-- A truth value, arithmetic or a negation. -/
def boolean (arithmetic deeper : Procedure Expr) : Procedure Expr :=
  attempt <|
    ifReads (expect .trueWord) (fun _ => return .bool true) <|
    ifReads (expect .falseWord) (fun _ => return .bool false) (arithmeticOrNegation arithmetic deeper)

section

variable {limits : Limits} {group : Procedure Expr} {rule : Rule Expr} {l next : Lexer} {t : Token}

/-- A scan that finds no number is taken back. -/
private theorem numberOrGroup_back (hscan : l.scan = (.ok t, next)) (hinput : next.input = l.input)
    (hdecimal : t.kind ≠ .decimal) (hinteger : t.kind ≠ .integer) : numberOrGroup group l = enclosed group l := by
  have hback : (do restore l.checkpoint; enclosed group) next = enclosed group l := bind_restore hinput
  rw [numberOrGroup, bind_checkpoint, bind_ok (scan_token hscan), ← hback]
  revert hdecimal hinteger
  cases t.kind <;> intro hdecimal hinteger
  case decimal => exact absurd rfl hdecimal
  case integer => exact absurd rfl hinteger
  all_goals rfl

private theorem numberOrGroup_other (hscan : l.scan = (.ok t, next)) (hinput : next.input = l.input)
    (hdecimal : t.kind ≠ .decimal) (hinteger : t.kind ≠ .integer) (hparen : t.kind ≠ .leftParen) :
    numberOrGroup group l = (.error (.unexpectedToken .leftParen t), l) := by
  rw [numberOrGroup_back hscan hinput hdecimal hinteger, enclosed, bind_error (expect_other hscan hparen)]

private theorem ofResult_agrees (hpass : l.stream.Passes [t] next.stream) (hinput : next.input = l.input)
    (x : Except ParseError Expr) :
    Agrees l (fun last => last.input = l.input) (ofResult x next) (x.map fun e => (e, next.stream)) := by
  cases x with
  | error e => exact .error e hinput
  | ok e => exact .ok e hpass hinput

/-- Where the first alternatives of an operand fail the rest of it follows the rule. -/
private theorem numberOrGroup_agrees (hgroup : Implements group rule) (hscan : l.scan = (.ok t, next))
    (hstream : l.stream = .token l.position t next.stream) (hinput : next.input = l.input)
    (hstring : t.kind ≠ .string) (hidentifier : t.kind ≠ .identifier) (hnull : t.kind ≠ .nullWord) :
    Agrees l (fun last => last.input = l.input) (numberOrGroup group l) (Rule.primary limits rule l.stream) := by
  have hpass := TokenStream.Passes.head hstream
  by_cases hdecimal : t.kind = .decimal
  · rw [numberOrGroup, bind_checkpoint, bind_ok (scan_token hscan), hdecimal, hstream, Rule.primary, hdecimal]
    exact ofResult_agrees hpass hinput _
  by_cases hinteger : t.kind = .integer
  · rw [numberOrGroup, bind_checkpoint, bind_ok (scan_token hscan), hinteger, hstream, Rule.primary, hinteger]
    exact ofResult_agrees hpass hinput _
  by_cases hparen : t.kind = .leftParen
  · rw [numberOrGroup_back hscan hinput hdecimal hinteger, enclosed, bind_ok (expect_token hscan hparen), hstream,
      Rule.primary, hparen]
    have hinside := hgroup.follows.bind fun inner =>
      (expect_implements .rightParen).follows.bind fun _ => return_follows inner
    exact (hinside next).after hpass hinput
  · have hrule : Rule.primary limits rule l.stream = .error (.unexpectedToken .leftParen t) := by
      rw [hstream, Rule.primary]
      revert hstring hidentifier hnull hdecimal hinteger hparen
      cases t.kind <;> simp
    rw [numberOrGroup_other hscan hinput hdecimal hinteger hparen, hrule]
    exact .error _ rfl

/-- An identifier begins a path.  If the path is given up, no later alternative takes the identifier. -/
private theorem identifier_agrees (hscan : l.scan = (.ok t, next))
    (hstream : l.stream = .token l.position t next.stream) (hinput : next.input = l.input)
    (hidentifier : t.kind = .identifier) :
    Agrees l (fun last => last.input = l.input)
      (ifReads (path limits) (fun path => return .field path)
        (ifReads (expect .nullWord) (fun _ => return .null) (numberOrGroup group)) l)
      (Rule.primary limits rule l.stream) := by
  cases hpath : Rule.path limits l.stream with
  | ok r =>
    obtain ⟨path, rest⟩ := r
    obtain ⟨last, ts, hread, rfl, hpass, hinput⟩ := (path_implements limits).of_ok hpath
    have hrule : Rule.primary limits rule l.stream = .ok (.field path, last.stream) := by
      rw [hstream] at hpath ⊢
      simp only [Rule.primary, hidentifier, hpath]
    rw [ifReads_ok hread, hrule]
    exact .ok _ hpass hinput
  | error e =>
    have hread := (path_implements limits).of_error hpath
    have hrule : Rule.primary limits rule l.stream =
        .error (if e.isBacktrackable then .unexpectedToken .leftParen t else e) := by
      rw [hstream] at hpath ⊢
      simp only [Rule.primary, hidentifier, hpath]
    rw [hrule]
    cases he : e.isBacktrackable with
    | false =>
      rw [ifReads_final hread he]
      exact .error e rfl
    | true =>
      have hnull : expect .nullWord l = (.error (.unexpectedToken .nullWord t), l) :=
        expect_other hscan (by rw [hidentifier]; decide)
      have hlast : numberOrGroup group l = (.error (.unexpectedToken .leftParen t), l) :=
        numberOrGroup_other hscan hinput (by rw [hidentifier]; decide) (by rw [hidentifier]; decide)
          (by rw [hidentifier]; decide)
      rw [ifReads_error hread he, ifReads_error hnull rfl, hlast]
      exact .error _ rfl

/-- What the first alternatives of an operand take is what the rule takes; otherwise the last one is left. -/
theorem primary_implements (hgroup : Implements group rule) :
    Implements (primary limits group) (Rule.primary limits rule) := by
  refine Follows.attempt fun l => ?_
  rcases l.scan_cases with ⟨reason, next, hscan, hstream, hinput⟩ | ⟨t, next, hscan, hstream, hinput⟩
  · -- all alternatives fail alike; a fault is final and ends the first one
    have hpath : path limits l = (.error (.ofStop reason), l) :=
      (path_implements limits).of_error (by rw [hstream]; rfl)
    rw [hstream, Rule.primary]
    cases reason with
    | endOfInput position =>
      rw [ifReads_error (expect_stop hscan _) rfl, ifReads_error hpath rfl, ifReads_error (expect_stop hscan _) rfl,
        numberOrGroup, bind_checkpoint, bind_error (scan_stop hscan)]
      exact .error _ hinput
    | malformed e =>
      rw [ifReads_final (expect_stop hscan _) rfl]
      exact .error _ rfl
  · have hpass := TokenStream.Passes.head hstream
    by_cases hstring : t.kind = .string
    · rw [ifReads_ok (expect_token hscan hstring), hstream, Rule.primary, hstring]
      exact .ok _ hpass hinput
    rw [ifReads_error (expect_other hscan hstring) rfl]
    by_cases hidentifier : t.kind = .identifier
    · exact identifier_agrees hscan hstream hinput hidentifier
    have hpath : path limits l = (.error (.unexpectedToken .identifier t), l) :=
      (path_implements limits).of_error (by rw [hstream, Rule.path, Rule.expect, if_neg hidentifier]; rfl)
    rw [ifReads_error hpath rfl]
    by_cases hnull : t.kind = .nullWord
    · rw [ifReads_ok (expect_token hscan hnull), hstream, Rule.primary, hnull]
      exact .ok _ hpass hinput
    rw [ifReads_error (expect_other hscan hnull) rfl]
    exact numberOrGroup_agrees hgroup hscan hstream hinput hstring hidentifier hnull

theorem signed_implements {operand deeper : Procedure Expr} {operandRule deeperRule : Rule Expr}
    (hoperand : Implements operand operandRule) (hdeeper : Implements deeper deeperRule) :
    Implements (signed operand deeper) (Rule.signed operandRule deeperRule) := by
  refine Follows.attempt fun l => ?_
  rw [bind_checkpoint]
  rcases l.scan_cases with ⟨reason, next, hscan, hstream, hinput⟩ | ⟨t, next, hscan, hstream, hinput⟩
  · rw [bind_error (scan_stop hscan), hstream]
    exact .error _ hinput
  · rw [bind_ok (scan_token hscan)]
    cases hsign : Sign.ofKind? t.kind with
    | some sign =>
      have hpass := TokenStream.Passes.head hstream
      have hbehind := hdeeper.follows.bind fun e => return_follows (Expr.signed sign e)
      rw [hstream, Rule.signed, hsign]
      exact (hbehind next).after hpass hinput
    | none =>
      dsimp only
      rw [bind_restore hinput, hstream, Rule.signed, hsign, ← hstream]
      exact hoperand.follows l

/-- The error where arithmetic has failed at the token `t` and no negation begins. -/
private def noBoolean (t : Token) (arithmetic : ParseError) : ParseError :=
  if t.kind = .leftParen then arithmetic else .noAlternative t.position arithmetic

private theorem negation_other {deeper : Procedure Expr} (hscan : l.scan = (.ok t, next)) (hk : t.kind ≠ .notOp)
    (e : ParseError) : negation deeper e l = (.error (noBoolean t e), next) := by
  rw [negation, bind_ok (scan_token hscan), noBoolean]
  revert hk
  cases t.kind <;> intro hk
  case notOp => exact absurd rfl hk
  all_goals rfl

private theorem boolean_rule_arithmetic {arithmetic deeper : Rule Expr} (start : Nat) (rest : TokenStream)
    (htrue : t.kind ≠ .trueWord) (hfalse : t.kind ≠ .falseWord) (hnot : t.kind ≠ .notOp) :
    Rule.boolean arithmetic deeper (.token start t rest) =
      match arithmetic (.token start t rest) with
      | .ok r => .ok r
      | .error e => .error (if e.isBacktrackable then noBoolean t e else e) := by
  rw [Rule.boolean]
  split
  · rename_i hk
    exact absurd hk htrue
  · rename_i hk
    exact absurd hk hfalse
  · rename_i hk
    exact absurd hk hnot
  · rename_i hk
    cases arithmetic (.token start t rest) with
    | ok r => rfl
    | error e => simp [noBoolean, hk]
  · rename_i hk
    cases arithmetic (.token start t rest) with
    | ok r => rfl
    | error e =>
      dsimp only
      rw [noBoolean, if_neg hk]

section

variable {arithmetic deeper : Procedure Expr} {arithmeticRule deeperRule : Rule Expr}
  (harithmetic : Implements arithmetic arithmeticRule)
include harithmetic

/-- Where no alternative but arithmetic begins, it decides. -/
private theorem arithmetic_agrees (hscan : l.scan = (.ok t, next))
    (hstream : l.stream = .token l.position t next.stream) (hinput : next.input = l.input)
    (htrue : t.kind ≠ .trueWord) (hfalse : t.kind ≠ .falseWord) (hnot : t.kind ≠ .notOp) :
    Agrees l (fun last => last.input = l.input) (arithmeticOrNegation arithmetic deeper l)
      (Rule.boolean arithmeticRule deeperRule l.stream) := by
  rw [arithmeticOrNegation, hstream, boolean_rule_arithmetic _ _ htrue hfalse hnot, ← hstream]
  cases hread : arithmeticRule l.stream with
  | ok r =>
    obtain ⟨e, rest⟩ := r
    obtain ⟨last, ts, hlast, rfl, hpass, hinput⟩ := harithmetic.of_ok hread
    rw [bind_ok (recover_ok hlast)]
    exact .ok e hpass hinput
  | error e =>
    have hlast := harithmetic.of_error hread
    cases he : e.isBacktrackable with
    | false =>
      rw [bind_error (recover_final hlast he)]
      simp only [he, Bool.false_eq_true, if_false]
      exact .error e rfl
    | true =>
      rw [bind_ok (recover_error hlast he)]
      simp only [negation_other hscan hnot, he, if_true]
      exact .error _ hinput

/-- Where arithmetic fails and an alternative may repair it, a negation is left. -/
private theorem arithmeticOrNegation_error {e : ParseError} (h : arithmeticRule l.stream = .error e)
    (he : e.isBacktrackable = true) : arithmeticOrNegation arithmetic deeper l = negation deeper e l :=
  bind_ok (recover_error (harithmetic.of_error h) he)

/-- Trying arithmetic before negation does no harm if no arithmetic begins with `!`. -/
theorem boolean_implements (hdeeper : Implements deeper deeperRule)
    (hend : ∀ start position, ∃ e, arithmeticRule (.stop start (.endOfInput position)) = .error e ∧
      e.isBacktrackable = true)
    (hnot : ∀ start head rest, head.kind = .notOp →
      ∃ e, arithmeticRule (.token start head rest) = .error e ∧ e.isBacktrackable = true) :
    Implements (boolean arithmetic deeper) (Rule.boolean arithmeticRule deeperRule) := by
  refine Follows.attempt fun l => ?_
  rcases l.scan_cases with ⟨reason, next, hscan, hstream, hinput⟩ | ⟨t, next, hscan, hstream, hinput⟩
  · cases reason with
    | endOfInput position =>
      obtain ⟨e, hfails, he⟩ := hend l.position position
      rw [← hstream] at hfails
      rw [ifReads_error (expect_stop hscan _) rfl, ifReads_error (expect_stop hscan _) rfl,
        arithmeticOrNegation_error harithmetic hfails he, negation, bind_error (scan_stop hscan), hstream]
      exact .error _ hinput
    | malformed e =>
      rw [ifReads_final (expect_stop hscan _) rfl, hstream]
      exact .error _ rfl
  · have hpass := TokenStream.Passes.head hstream
    by_cases htrue : t.kind = .trueWord
    · rw [ifReads_ok (expect_token hscan htrue), hstream, Rule.boolean, htrue]
      exact .ok _ hpass hinput
    rw [ifReads_error (expect_other hscan htrue) rfl]
    by_cases hfalse : t.kind = .falseWord
    · rw [ifReads_ok (expect_token hscan hfalse), hstream, Rule.boolean, hfalse]
      exact .ok _ hpass hinput
    rw [ifReads_error (expect_other hscan hfalse) rfl]
    by_cases hk : t.kind = .notOp
    · obtain ⟨e, hfails, he⟩ := hnot l.position t next.stream hk
      rw [← hstream] at hfails
      rw [arithmeticOrNegation_error harithmetic hfails he, negation, bind_ok (scan_token hscan), hk, hstream,
        Rule.boolean, hk]
      have hbehind := hdeeper.follows.bind fun e => return_follows (Expr.not e)
      exact (hbehind next).after hpass hinput
    exact arithmetic_agrees harithmetic hscan hstream hinput htrue hfalse hk

end

end

end Procedure
end DocFilter
