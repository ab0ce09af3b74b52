import DocFilter.Proofs.Grammar.Derivation
import DocFilter.Proofs.Token.Passage

/-!
# Completeness of the rules

A part that is derived from the tokens at the head of a stream is what its rule reads there, if the limits admit the
derivation; if they do not, the rule fails because of a limit and for no other reason (`rule_complete`).  So neither
the order of alternatives nor the greed of chains loses a sentence.

The rule has to stop where the derivation does.  What keeps it from reading on is the token behind the part, which
must not be able to continue it (`Part.EndsBefore`); what keeps it on the right alternative is the first token
(`Derives.opening`).  The group of a boolean is the exception: it is read as a group of an operand.
-/

namespace DocFilter
namespace Grammar

/-! ### First tokens -/

/-- Whether a token of the kind can be the first one of a part. -/
def Part.opens : Part → TokenKind → Bool
  | chain .logical, k | links .logical _, k | chain .relational, k | links .relational _, k | boolean, k =>
    k ∈ [.trueWord, .falseWord, .notOp, .plus, .minus, .string, .identifier, .nullWord, .decimal, .integer,
      .leftParen]
  | chain .additive, k | links .additive _, k | chain .multiplicative, k | links .multiplicative _, k | signed, k =>
    k ∈ [.plus, .minus, .string, .identifier, .nullWord, .decimal, .integer, .leftParen]
  | operand, k => k ∈ [.string, .identifier, .nullWord, .decimal, .integer, .leftParen]

private theorem opens_operand (level : Level) (n : Nat) : level.operand.opens = (Part.links level n).opens := by
  cases level <;> rfl

private theorem opens_chain (level : Level) (n : Nat) : (Part.chain level).opens = (Part.links level n).opens := by
  cases level <;> rfl

/-- A part has a first token, and it is one that can open the part. -/
theorem Derives.opening {part : Part} {ts : List Token} {e : Expr} {d w : Nat} (h : Derives part ts e d w) :
    ∃ t us, ts = t :: us ∧ part.opens t.kind = true := by
  induction h with
  | @one level _ _ _ _ _ ih => rwa [opens_operand level 0] at ih
  | @link level n _ _ _ _ _ _ _ _ _ _ _ _ _ ihl _ =>
    obtain ⟨t, us, rfl, ht⟩ := ihl
    exact ⟨t, _, rfl, by rwa [← opens_chain level n, opens_chain level (n + 1)] at ht⟩
  | @chain level n _ _ _ _ _ ih => rwa [opens_chain level n]
  | trueWord t ht | falseWord t ht => exact ⟨t, [], rfl, by rw [ht]; rfl⟩
  | arithmetic _ ih =>
    obtain ⟨t, us, rfl, ht⟩ := ih
    exact ⟨t, us, rfl, by revert ht; cases t.kind <;> decide⟩
  | negation t ht _ _ => exact ⟨t, _, rfl, by rw [ht]; rfl⟩
  | booleanGroup opening _ ho _ _ _ | group opening _ ho _ _ _ => exact ⟨opening, _, rfl, by rw [ho]; rfl⟩
  | unsigned _ ih =>
    obtain ⟨t, us, rfl, ht⟩ := ih
    exact ⟨t, us, rfl, by revert ht; cases t.kind <;> decide⟩
  | sign t ht _ _ => exact ⟨t, _, rfl, by revert ht; cases t.kind <;> simp [Sign.ofKind?, Part.opens]⟩
  | string t ht | nullWord t ht => exact ⟨t, [], rfl, by rw [ht]; rfl⟩
  | path h =>
    obtain ⟨t, us, rfl, ht⟩ := h.opening
    exact ⟨t, us, rfl, by rw [ht]; rfl⟩
  | decimal t ht _ | integer t ht _ => exact ⟨t, [], rfl, by rw [ht]; rfl⟩

/-! ### Tokens behind a part -/

/-- The levels whose operators may continue what is read for a part. -/
def Part.levels : Part → List Level
  | chain .logical => [.logical, .relational, .additive, .multiplicative]
  | chain .relational | links .logical _ => [.relational, .additive, .multiplicative]
  | chain .additive | links .relational _ | boolean => [.additive, .multiplicative]
  | chain .multiplicative | links .additive _ => [.multiplicative]
  | links .multiplicative _ | signed | operand => []

/-- Whether a token of the kind behind a part is read as more of it. -/
def Part.continuesWith (part : Part) (k : TokenKind) : Bool :=
  k = .dot || part.levels.any fun level => (level.operator? k).isSome

/-- What follows does not continue the part. -/
def Part.EndsBefore (part : Part) (rest : TokenStream) : Prop :=
  ∀ k, rest.headKind? = some k → part.continuesWith k = false

theorem Part.endsBefore_stop (part : Part) (start : Nat) (reason : Stop) : part.EndsBefore (.stop start reason) := by
  intro k h
  cases h

/-- A closing parenthesis continues nothing. -/
theorem Part.endsBefore_rightParen (part : Part) (start : Nat) {t : Token} (ht : t.kind = .rightParen)
    (next : TokenStream) : part.EndsBefore (.token start t next) := by
  intro k h
  obtain rfl := Option.some.inj h
  rw [ht]
  cases part with
  | chain level | links level _ => cases level <;> rfl
  | boolean | signed | operand => rfl

private theorem endsBefore_operator {level : Level} (n : Nat) (start : Nat) {t : Token} {op : BinOp}
    (ht : level.operator? t.kind = some op) (next : TokenStream) :
    (Part.links level n).EndsBefore (.token start t next) := by
  intro k h
  obtain rfl := Option.some.inj h
  revert ht
  cases level <;> cases t.kind <;> first | (intro h; cases h; done) | (intro _; rfl)

private theorem EndsBefore.operand {level : Level} {rest : TokenStream} (n : Nat)
    (h : (Part.links level n).EndsBefore rest) : level.operand.EndsBefore rest := by
  cases level <;> exact h

private theorem EndsBefore.links {level : Level} {rest : TokenStream} (n : Nat)
    (h : (Part.chain level).EndsBefore rest) : (Part.links level n).EndsBefore rest := by
  intro k hk
  have := h k hk
  revert this
  cases level <;> simp +contextual [Part.continuesWith, Part.levels]

private theorem EndsBefore.operatorAhead? {level : Level} {rest : TokenStream}
    (h : (Part.chain level).EndsBefore rest) : Rule.operatorAhead? level.operator? rest = none := by
  cases rest with
  | stop start reason => rfl
  | token start t next =>
    have := h t.kind rfl
    have hnone : level.operator? t.kind = none := by
      revert this
      cases level <;> simp +contextual [Part.continuesWith, Part.levels]
    simp [Rule.operatorAhead?, hnone]

private theorem EndsBefore.behindDot? {part : Part} {rest : TokenStream} (h : part.EndsBefore rest) :
    Rule.behindDot? rest = none := by
  cases rest with
  | stop start reason => rfl
  | token start t next =>
    have := h t.kind rfl
    simp only [Part.continuesWith, Bool.or_eq_false_iff, decide_eq_false_iff_not] at this
    exact if_neg this.1

/-! ### Results within limits -/

/-- A result that is the expected one if the limits admit it, and else the error that a limit is exceeded. -/
def Settles {α : Type} (limits : Limits) (admitted : Prop) (result expected : Except ParseError α) : Prop :=
  (admitted → result = expected) ∧
    (¬admitted → result = .error (.tooDeep limits.maxDepth) ∨ result = .error (.chainTooLong limits.maxChain))

namespace Settles

variable {α β : Type} {limits : Limits} {p q : Prop} {x y : Except ParseError α}

private theorem admitted (h : p) : Settles limits p x x :=
  ⟨fun _ => rfl, fun hn => absurd h hn⟩

private theorem tooDeep (h : ¬p) : Settles limits p (.error (.tooDeep limits.maxDepth)) y :=
  ⟨fun hp => absurd hp h, fun _ => .inl rfl⟩

private theorem chainTooLong (h : ¬p) : Settles limits p (.error (.chainTooLong limits.maxChain)) y :=
  ⟨fun hp => absurd hp h, fun _ => .inr rfl⟩

theorem congr (h : Settles limits p x y) (hpq : p ↔ q) : Settles limits q x y :=
  ⟨fun hq => h.1 (hpq.2 hq), fun hq => h.2 fun hp => hq (hpq.1 hp)⟩

private theorem bind {a : α} {f : α → Except ParseError β} {z : Except ParseError β} (hx : Settles limits p x (.ok a))
    (hf : Settles limits q (f a) z) : Settles limits (p ∧ q) (x >>= f) z := by
  by_cases hp : p
  · rw [hx.1 hp]
    exact hf.congr ⟨fun hq => ⟨hp, hq⟩, fun h => h.2⟩
  · rcases hx.2 hp with h | h <;> rw [h]
    · exact tooDeep fun h => hp h.1
    · exact chainTooLong fun h => hp h.1

theorem andThen {a : α} (f : α → Except ParseError β) (hx : Settles limits p x (.ok a)) :
    Settles limits p (x >>= f) (f a) :=
  (hx.bind (admitted trivial)).congr (and_iff_left trivial)

end Settles

/-- What is left to do when a part has been read: links go on as a chain, any other part is the result. -/
def Part.resume (limits : Limits) (levels : Nat) (e : Expr) (rest : TokenStream) :
    Part → Except ParseError (Expr × TokenStream)
  | links level n =>
    Rule.chainFrom limits level.operator? (level.operand.rule limits levels) (limits.maxChain - n) e rest
  | _ => .ok (e, rest)

/-- The rule for a part finds the derivation wherever the tokens stand, if the limits admit it. -/
def CompleteAt (limits : Limits) (part : Part) (ts : List Token) (e : Expr) (d w : Nat) : Prop :=
  ∀ (levels : Nat) (stream rest : TokenStream), stream.Passes ts rest → part.EndsBefore rest →
    Settles limits (d < levels ∧ w ≤ limits.maxChain) (part.rule limits levels stream)
      (part.resume limits levels e rest)

variable {limits : Limits} {ts us : List Token} {e left right : Expr} {d w d' w' n : Nat} {level : Level}

/-! ### Chains -/

private theorem resume_operand (levels : Nat) (rest : TokenStream) :
    level.operand.resume limits levels e rest = .ok (e, rest) := by
  cases level <;> rfl

private theorem rule_links (levels : Nat) :
    (Part.links level n).rule limits levels = (Part.chain level).rule limits levels := by
  cases level <;> rfl

private theorem one_complete (level : Level) (h : CompleteAt limits level.operand ts e d w) :
    CompleteAt limits (.links level 0) ts e d w := by
  intro levels stream rest hpass hends
  have hoperand := h levels stream rest hpass (EndsBefore.operand 0 hends)
  rw [resume_operand] at hoperand
  rw [rule_links, rule_chain]
  exact hoperand.andThen _

private theorem chainFrom_operator_zero {t : Token} {op : BinOp} {operand : Rule Expr}
    (ht : level.operator? t.kind = some op) (start : Nat) (next : TokenStream) :
    Rule.chainFrom limits level.operator? operand 0 left (.token start t next) =
      .error (.chainTooLong limits.maxChain) := by
  rw [Rule.chainFrom, Rule.operatorAhead?, ht]
  rfl

private theorem chainFrom_operator_succ {t : Token} {op : BinOp} {operand : Rule Expr}
    (ht : level.operator? t.kind = some op) (start budget : Nat) (next : TokenStream) :
    Rule.chainFrom limits level.operator? operand (budget + 1) left (.token start t next) =
      operand next >>= fun p => Rule.chainFrom limits level.operator? operand budget (.binary op left p.1) p.2 := by
  rw [Rule.chainFrom, Rule.operatorAhead?, ht]
  rfl

private theorem link_complete {t : Token} {op : BinOp} (hl : CompleteAt limits (.links level n) ts left d w)
    (ht : level.operator? t.kind = some op) (hr : CompleteAt limits level.operand us right d' w') :
    CompleteAt limits (.links level (n + 1)) (ts ++ t :: us) (.binary op left right) (max d d')
      (max (n + 1) (max w w')) := by
  intro levels stream rest hpass hends
  obtain ⟨middle, hleft, htail⟩ := TokenStream.Passes.append_iff.1 hpass
  obtain ⟨start, next, rfl, hright⟩ := TokenStream.Passes.cons_iff.1 htail
  have hfirst := hl levels stream _ hleft (endsBefore_operator n start ht next)
  have hsecond := hr levels next rest hright (EndsBefore.operand (n + 1) hends)
  rw [resume_operand] at hsecond
  rw [rule_links] at hfirst ⊢
  by_cases hlimits : d < levels ∧ w ≤ limits.maxChain
  · -- the links before the operator have been read, and the rule goes on at the operator
    rw [hfirst.1 hlimits, Part.resume]
    cases hbudget : limits.maxChain - n with
    | zero =>
      rw [chainFrom_operator_zero ht]
      exact .chainTooLong (by omega)
    | succ budget =>
      obtain rfl : budget = limits.maxChain - (n + 1) := by omega
      rw [chainFrom_operator_succ ht]
      have hfits : d' < levels ∧ w' ≤ limits.maxChain ↔
          max d d' < levels ∧ max (n + 1) (max w w') ≤ limits.maxChain := by
        omega
      exact (hsecond.andThen _).congr hfits
  · rcases hfirst.2 hlimits with h | h <;> rw [h]
    · exact .tooDeep (by omega)
    · exact .chainTooLong (by omega)

private theorem chain_complete (h : CompleteAt limits (.links level n) ts e d w) :
    CompleteAt limits (.chain level) ts e d w := by
  intro levels stream rest hpass hends
  have hlinks := h levels stream rest hpass (EndsBefore.links n hends)
  rw [rule_links] at hlinks
  have hdone : (Part.links level n).resume limits levels e rest = .ok (e, rest) := by
    rw [Part.resume, Rule.chainFrom, EndsBefore.operatorAhead? hends]
  rwa [hdone] at hlinks

/-! ### Operands -/

/-- A path goes on over the dots of its derivation, and is given up if they are too many. -/
private theorem pathFrom_of_derives {t : Token} {path : FieldPath} {dots : Nat} (h : DerivesPath (t :: ts) path dots)
    (budget : Nat) {stream rest : TokenStream} (hpass : stream.Passes ts rest)
    (hends : Rule.behindDot? rest = none) :
    Rule.pathFrom limits budget t.text stream =
      if dots ≤ budget then .ok (path, rest) else .error (.chainTooLong limits.maxChain) := by
  induction dots generalizing t ts path budget stream with
  | zero =>
    cases h with
    | last _ ht =>
      obtain rfl := TokenStream.Passes.nil_iff.1 hpass
      rw [Rule.pathFrom, hends, if_pos (Nat.zero_le budget)]
  | succ dots ih =>
    cases h with
    | @step _ dot us path _ ht hdot hrest =>
      obtain ⟨next, vs, rfl, hnext⟩ := hrest.opening
      simp only [TokenStream.Passes.cons_iff] at hpass
      obtain ⟨start, _, rfl, start', behind, rfl, hpass⟩ := hpass
      rw [Rule.pathFrom, Rule.behindDot?, if_pos hdot]
      cases budget with
      | zero => rw [if_neg (by omega)]
      | succ budget =>
        have hfirst : Rule.expect .identifier (.token start' next behind) = .ok (next, behind) := if_pos hnext
        have hlater := ih hrest budget hpass
        simp only [hfirst, Nat.add_le_add_iff_right]
        show Rule.pathFrom limits budget next.text behind >>= _ = _
        rw [hlater]
        split <;> rfl

/-- The rule for paths reads what is derived as a path, unless it has too many dots. -/
theorem path_of_derives (limits : Limits) {path : FieldPath} {dots : Nat} (h : DerivesPath ts path dots)
    {stream rest : TokenStream} (hpass : stream.Passes ts rest) (hends : Rule.behindDot? rest = none) :
    Rule.path limits stream =
      if dots ≤ limits.maxChain then .ok (path, rest) else .error (.chainTooLong limits.maxChain) := by
  obtain ⟨t, us, rfl, ht⟩ := h.opening
  obtain ⟨start, next, rfl, hnext⟩ := TokenStream.Passes.cons_iff.1 hpass
  have hfirst : Rule.expect .identifier (.token start t next) = .ok (t, next) := if_pos ht
  rw [Rule.path, hfirst]
  exact pathFrom_of_derives h limits.maxChain hnext hends

private theorem token_complete {t : Token}
    (h : ∀ (group : Rule Expr) (start : Nat) (rest : TokenStream),
      Rule.primary limits group (.token start t rest) = .ok (e, rest)) :
    CompleteAt limits .operand [t] e 0 0 := by
  intro levels stream rest hpass hends
  obtain ⟨start, next, rfl, hnext⟩ := TokenStream.Passes.cons_iff.1 hpass
  obtain rfl := TokenStream.Passes.nil_iff.1 hnext
  cases levels with
  | zero => exact .tooDeep (by omega)
  | succ levels =>
    have hread : Part.operand.rule limits (levels + 1) (.token start t next) = .ok (e, next) := h _ start next
    rw [hread]
    exact .admitted ⟨Nat.succ_pos levels, Nat.zero_le _⟩

private theorem fieldPath_complete {path : FieldPath} {dots : Nat} (h : DerivesPath ts path dots) :
    CompleteAt limits .operand ts (.field path) 0 dots := by
  intro levels stream rest hpass hends
  cases levels with
  | zero => exact .tooDeep (by omega)
  | succ levels =>
    have hread := path_of_derives limits h hpass (EndsBefore.behindDot? hends)
    obtain ⟨t, us, rfl, ht⟩ := h.opening
    obtain ⟨start, next, rfl, -⟩ := TokenStream.Passes.cons_iff.1 hpass
    show Settles limits _ (Rule.primary limits (expression limits levels) (.token start t next)) _
    rw [Rule.primary, ht, hread]
    by_cases hdots : dots ≤ limits.maxChain
    · rw [if_pos hdots]
      exact .admitted ⟨Nat.succ_pos levels, hdots⟩
    · rw [if_neg hdots]
      exact .chainTooLong (by omega)

private theorem group_complete {opening closing : Token} (ho : opening.kind = .leftParen)
    (h : CompleteAt limits (.chain .logical) ts e d w) (hc : closing.kind = .rightParen) :
    CompleteAt limits .operand (opening :: (ts ++ [closing])) e (d + 1) w := by
  intro levels stream rest hpass hends
  simp only [TokenStream.Passes.cons_iff, TokenStream.Passes.append_iff, TokenStream.Passes.nil_iff] at hpass
  obtain ⟨start, inside, rfl, middle, hinside, start', behind, rfl, rfl⟩ := hpass
  cases levels with
  | zero => exact .tooDeep (by omega)
  | succ levels =>
    have hinner := h levels inside _ hinside (Part.endsBefore_rightParen _ start' hc behind)
    have hlast : Rule.expect .rightParen (.token start' closing behind) = .ok (closing, behind) := if_pos hc
    have hgroup := hinner.andThen fun p => Rule.expect .rightParen p.2 >>= fun q => .ok (p.1, q.2)
    show Settles limits _ (Rule.primary limits (expression limits levels) (.token start opening inside)) _
    rw [Rule.primary, ho]
    simp only [hlast] at hgroup
    exact hgroup.congr (by omega)

private theorem unsigned_complete {t : Token} (ht : Part.operand.opens t.kind)
    (h : CompleteAt limits .operand (t :: ts) e d w) : CompleteAt limits .signed (t :: ts) e d w := by
  intro levels stream rest hpass hends
  have hoperand := h levels stream rest hpass hends
  obtain ⟨start, next, rfl, -⟩ := TokenStream.Passes.cons_iff.1 hpass
  have hsign : Sign.ofKind? t.kind = none := by
    revert ht
    cases t.kind <;> simp [Sign.ofKind?, Part.opens]
  show Settles limits _ (Rule.signed (operand limits levels) (operand limits (levels - 1)) (.token start t next)) _
  rw [Rule.signed, hsign]
  exact hoperand

private theorem sign_complete {t : Token} {sign : Sign} (ht : Sign.ofKind? t.kind = some sign)
    (h : CompleteAt limits .operand ts e d w) : CompleteAt limits .signed (t :: ts) (.signed sign e) (d + 1) w := by
  intro levels stream rest hpass hends
  obtain ⟨start, next, rfl, hnext⟩ := TokenStream.Passes.cons_iff.1 hpass
  have hoperand := (h (levels - 1) next rest hnext hends).andThen fun p => .ok (Expr.signed sign p.1, p.2)
  show Settles limits _ (Rule.signed (operand limits levels) (operand limits (levels - 1)) (.token start t next)) _
  rw [Rule.signed, ht]
  exact hoperand.congr (by omega)

/-! ### Booleans -/

/-- Where a sum can begin, a boolean is what its arithmetic is; no sum begins with `true`, `false` or `!`. -/
private theorem boolean_eq_arithmetic {arithmetic deeper : Rule Expr} {t : Token}
    (ht : (Part.chain .additive).opens t.kind) {start : Nat} {next : TokenStream}
    {result : Except ParseError (Expr × TokenStream)} (h : arithmetic (.token start t next) = result)
    (hfinal : ∀ e, result = .error e → e.isBacktrackable = false) :
    Rule.boolean arithmetic deeper (.token start t next) = result := by
  rw [Rule.boolean]
  split
  · rename_i hk
    simp [hk, Part.opens] at ht
  · rename_i hk
    simp [hk, Part.opens] at ht
  · rename_i hk
    simp [hk, Part.opens] at ht
  · exact h
  · rw [h]
    cases result with
    | ok p => rfl
    | error e => simp [hfinal e rfl]

/-- A final error of the signed operand at the head of a boolean is the error of the boolean. -/
theorem boolean_of_signed_error {t : Token} (ht : (Part.chain .additive).opens t.kind) {levels start : Nat}
    {next : TokenStream} {error : ParseError} (hfinal : error.isBacktrackable = false)
    (h : signed limits (levels + 1) (.token start t next) = .error error) :
    Grammar.boolean limits (levels + 1) (.token start t next) = .error error := by
  have hsum : sum limits (levels + 1) (.token start t next) = .error error := by
    rw [sum, Rule.sum, Rule.chain, Rule.product, Rule.chain, h]
    rfl
  rw [boolean_succ]
  refine boolean_eq_arithmetic ht hsum ?_
  intro e he
  rw [← Except.error.inj he]
  exact hfinal

private theorem arithmetic_complete {t : Token} (ht : (Part.chain .additive).opens t.kind)
    (h : CompleteAt limits (.chain .additive) (t :: ts) e d w) : CompleteAt limits .boolean (t :: ts) e d w := by
  intro levels stream rest hpass hends
  cases levels with
  | zero => exact .tooDeep (by omega)
  | succ levels =>
    have hsum := h (levels + 1) stream rest hpass hends
    obtain ⟨start, next, rfl, -⟩ := TokenStream.Passes.cons_iff.1 hpass
    show Settles limits _ (Rule.boolean (sum limits (levels + 1)) (boolean limits levels) (.token start t next)) _
    constructor
    · intro hlimits
      exact boolean_eq_arithmetic ht (hsum.1 hlimits) fun _ herror => by cases herror
    · intro hlimits
      refine (hsum.2 hlimits).imp (fun hsum => ?_) fun hsum => ?_
      · exact boolean_eq_arithmetic ht hsum fun _ herror => by cases herror; rfl
      · exact boolean_eq_arithmetic ht hsum fun _ herror => by cases herror; rfl

private theorem word_complete {t : Token}
    (h : ∀ (arithmetic deeper : Rule Expr) (start : Nat) (rest : TokenStream),
      Rule.boolean arithmetic deeper (.token start t rest) = .ok (e, rest)) :
    CompleteAt limits .boolean [t] e 0 0 := by
  intro levels stream rest hpass hends
  obtain ⟨start, next, rfl, hnext⟩ := TokenStream.Passes.cons_iff.1 hpass
  obtain rfl := TokenStream.Passes.nil_iff.1 hnext
  cases levels with
  | zero => exact .tooDeep (by omega)
  | succ levels =>
    have hread : Part.boolean.rule limits (levels + 1) (.token start t next) = .ok (e, next) := h _ _ start next
    rw [hread]
    exact .admitted ⟨Nat.succ_pos levels, Nat.zero_le _⟩

private theorem negation_complete {t : Token} (ht : t.kind = .notOp) (h : CompleteAt limits .boolean ts e d w) :
    CompleteAt limits .boolean (t :: ts) (.not e) (d + 1) w := by
  intro levels stream rest hpass hends
  obtain ⟨start, next, rfl, hnext⟩ := TokenStream.Passes.cons_iff.1 hpass
  cases levels with
  | zero => exact .tooDeep (by omega)
  | succ levels =>
    have hoperand := (h levels next rest hnext hends).andThen fun p => .ok (Expr.not p.1, p.2)
    show Settles limits _ (Rule.boolean (sum limits (levels + 1)) (boolean limits levels) (.token start t next)) _
    rw [Rule.boolean, ht]
    exact hoperand.congr (by omega)

/-! ### All parts -/

/-- The rule for a part reads what is derived as the part, wherever it stands, or reports a limit that it exceeds. -/
theorem rule_complete {part : Part} (limits : Limits) (h : Derives part ts e d w) :
    CompleteAt limits part ts e d w := by
  induction h with
  | one _ ih => exact one_complete _ ih
  | link _ ht _ ihl ihr => exact link_complete ihl ht ihr
  | chain _ ih => exact chain_complete ih
  | trueWord t ht => exact word_complete fun _ _ _ _ => by rw [Rule.boolean, ht]
  | falseWord t ht => exact word_complete fun _ _ _ _ => by rw [Rule.boolean, ht]
  | arithmetic h ih =>
    obtain ⟨t, us, rfl, ht⟩ := h.opening
    exact arithmetic_complete ht ih
  | negation t ht _ ih => exact negation_complete ht ih
  | booleanGroup opening closing ho _ hc ih =>
    -- a group is never read as a boolean of its own: it is the only operand of a sum
    have hopens : Part.operand.opens opening.kind := by rw [ho]; rfl
    have hproduct := one_complete .multiplicative (unsigned_complete hopens (group_complete ho ih hc))
    have hsum := one_complete .additive (chain_complete hproduct)
    exact arithmetic_complete (by rw [ho]; rfl) (chain_complete hsum)
  | unsigned h ih =>
    obtain ⟨t, us, rfl, ht⟩ := h.opening
    exact unsigned_complete ht ih
  | sign t ht _ ih => exact sign_complete ht ih
  | string t ht => exact token_complete fun _ _ _ => by rw [Rule.primary, ht]
  | path h => exact fieldPath_complete h
  | nullWord t ht => exact token_complete fun _ _ _ => by rw [Rule.primary, ht]
  | decimal t ht hx =>
    exact token_complete fun _ _ _ => by rw [Rule.primary, ht]; simp only [Rule.decimal, hx]; rfl
  | integer t ht hn =>
    exact token_complete fun _ _ _ => by rw [Rule.primary, ht]; simp only [Rule.integer, hn]; rfl
  | group opening closing ho _ hc ih => exact group_complete ho ih hc

end Grammar
end DocFilter
