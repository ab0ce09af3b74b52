import DocFilter.Parser.Rule
import DocFilter.Proofs.Success
import DocFilter.Proofs.Token.Cursor

/-!
# Procedures that move a cursor

A rule is given a stream and what it leaves is a stream.  A procedure has no stream: it scans at the cursor of a lexer,
every scan moves the cursor, also one that finds no token or the wrong one, and an error ends the procedure with the
cursor wherever it has got to.  Only `attempt` and `restore` put it back.

A procedure follows a rule if both give the same result and take the same tokens, or both give the same error
(`Follows`); it implements the rule if in the second case the cursor has also not moved (`Implements`).  What follows a
rule implements it once it is an attempt (`Follows.attempt`).
-/

namespace DocFilter

/-- A computation on the state of a lexer that gives a result or an error. -/
abbrev Procedure (α : Type) : Type :=
  Lexer → Except ParseError α × Lexer

namespace Procedure

variable {α β : Type}

/-- A procedure goes on at the cursor that the one before it has left, unless that one has failed. -/
instance : Monad Procedure where
  pure a l := (.ok a, l)
  bind p f l :=
    match p l with
    | (.ok a, next) => f a next
    | (.error e, next) => (.error e, next)

/-! ### Steps -/

/-- A result that needs no reading. -/
def ofResult (x : Except ParseError α) : Procedure α := fun l =>
  (x, l)

def fail (e : ParseError) : Procedure α := fun l =>
  (.error e, l)

def checkpoint : Procedure Checkpoint := fun l =>
  (.ok l.checkpoint, l)

def restore (c : Checkpoint) : Procedure Unit := fun l =>
  (.ok (), l.restore c)

/-- The next token, of whatever kind. -/
def scan : Procedure Token := fun l =>
  match l.scan with
  | (.ok token, next) => (.ok token, next)
  | (.error reason, next) => (.error (.ofStop reason), next)

/-- The error of a token that is required and not there. -/
def unexpected : ExpectError → ParseError
  | .mismatch expected found => .unexpectedToken expected found
  | .stopped reason => .ofStop reason

/-- The next token, if it is of the expected kind. -/
def expect (expected : TokenKind) : Procedure Token := fun l =>
  match l.expect expected with
  | (.ok token, next) => (.ok token, next)
  | (.error e, next) => (.error (unexpected e), next)

/-- Puts the cursor back if the procedure fails. -/
def attempt (p : Procedure α) : Procedure α := fun l =>
  let start := l.checkpoint
  match p l with
  | (.ok a, next) => (.ok a, next)
  | (.error e, next) => (.error e, next.restore start)

/-- Takes an error that an alternative may repair as a result. -/
def recover (p : Procedure α) : Procedure (Except ParseError α) := fun l =>
  match p l with
  | (.ok a, next) => (.ok (.ok a), next)
  | (.error e, next) => if e.isBacktrackable then (.ok (.error e), next) else (.error e, next)

/-- Goes on with what the procedure gives, or with the alternatives to it. -/
def ifReads (p : Procedure α) (found : α → Procedure β) (otherwise : Procedure β) : Procedure β := do
  match ← recover p with
  | .ok a => found a
  | .error _ => otherwise

/-! ### Agreement with rules -/

/-- What a procedure does at `l` agrees with the answer of a rule: the same result, with the cursor behind the tokens
that are taken, or the same error, with the cursor left where `Left` allows. -/
inductive Agrees (l : Lexer) (Left : Lexer → Prop) :
    Except ParseError α × Lexer → Except ParseError (α × TokenStream) → Prop where
  | error (e : ParseError) {next : Lexer} (h : Left next) : Agrees l Left (.error e, next) (.error e)
  | ok (a : α) {next : Lexer} {ts : List Token} (h : l.stream.Passes ts next.stream) (hinput : next.input = l.input) :
      Agrees l Left (.ok a, next) (.ok (a, next.stream))

/-- The procedure gives what the rule gives for the stream of the lexer.  If it fails the cursor may be anywhere. -/
def Follows (p : Procedure α) (rule : Rule α) : Prop :=
  ∀ l, Agrees l (fun next => next.input = l.input) (p l) (rule l.stream)

/-- The procedure gives what the rule gives for the stream of the lexer.  If it fails the cursor has not moved. -/
def Implements (p : Procedure α) (rule : Rule α) : Prop :=
  ∀ l, Agrees l (fun next => next = l) (p l) (rule l.stream)

variable {p : Procedure α} {f : α → Procedure β} {rule : Rule α} {l next : Lexer}

/-- Going on behind a step that succeeds. -/
theorem bind_ok {a : α} (h : p l = (.ok a, next)) : (p >>= f) l = f a next := by
  show (match p l with | (.ok a, next) => f a next | (.error e, next) => (.error e, next)) = _
  rw [h]

/-- A step that fails is the last one. -/
theorem bind_error {e : ParseError} (h : p l = (.error e, next)) : (p >>= f) l = (.error e, next) := by
  show (match p l with | (.ok a, next) => f a next | (.error e, next) => (.error e, next)) = _
  rw [h]

/-- A lexer with the input and the cursor of `l` is `l`. -/
theorem restore_eq (h : next.input = l.input) : next.restore l.checkpoint = l := by
  rw [Lexer.restore, h]
  rfl

theorem bind_checkpoint {f : Checkpoint → Procedure β} : (checkpoint >>= f) l = f l.checkpoint l :=
  rfl

/-- Going back to where the cursor was. -/
theorem bind_restore {f : Unit → Procedure β} (h : next.input = l.input) :
    (restore l.checkpoint >>= f) next = f () l := by
  show f () (next.restore l.checkpoint) = f () l
  rw [restore_eq h]

/-- What agrees behind a passage agrees. -/
theorem Agrees.after {ts : List Token} (hpass : l.stream.Passes ts next.stream) (hinput : next.input = l.input)
    {outcome : Except ParseError α × Lexer} {answer : Except ParseError (α × TokenStream)}
    (h : Agrees next (fun last => last.input = next.input) outcome answer) :
    Agrees l (fun last => last.input = l.input) outcome answer := by
  cases h with
  | error e h => exact .error e (h.trans hinput)
  | ok a h hlast => exact .ok a (hpass.append h) (hlast.trans hinput)

/-- There are two ways to agree. -/
theorem Agrees.elim {Left : Lexer → Prop} {outcome : Except ParseError α × Lexer}
    {answer : Except ParseError (α × TokenStream)} (h : Agrees l Left outcome answer) :
    (∃ e next, outcome = (.error e, next) ∧ answer = .error e ∧ Left next) ∨
      ∃ a next ts, outcome = (.ok a, next) ∧ answer = .ok (a, next.stream) ∧ l.stream.Passes ts next.stream ∧
        next.input = l.input := by
  cases h with
  | error e h => exact .inl ⟨e, _, rfl, rfl, h⟩
  | ok a h hinput => exact .inr ⟨a, _, _, rfl, rfl, h, hinput⟩

theorem Implements.follows (h : Implements p rule) : Follows p rule := by
  intro l
  rcases (h l).elim with ⟨e, next, hp, hrule, rfl⟩ | ⟨a, next, ts, hp, hrule, hpass, hinput⟩
  · rw [hp, hrule]
    exact .error e rfl
  · rw [hp, hrule]
    exact .ok a hpass hinput

/-- One procedure after the other follows one rule after the other. -/
theorem Follows.bind {g : α → Rule β} (h : Follows p rule) (hf : ∀ a, Follows (f a) (g a)) :
    Follows (p >>= f) fun stream => rule stream >>= fun r => g r.1 r.2 := by
  intro l
  show Agrees l _ ((p >>= f) l) (rule l.stream >>= fun r => g r.1 r.2)
  rcases (h l).elim with ⟨e, next, hp, hrule, hinput⟩ | ⟨a, next, ts, hp, hrule, hpass, hinput⟩
  · rw [bind_error hp, hrule]
    exact .error e hinput
  · rw [bind_ok hp, hrule]
    exact (hf a next).after hpass hinput

/-- Putting the cursor back makes a procedure that follows a rule one that implements it. -/
theorem Follows.attempt (h : Follows p rule) : Implements (attempt p) rule := by
  intro l
  rcases (h l).elim with ⟨e, next, hp, hrule, hinput⟩ | ⟨a, next, ts, hp, hrule, hpass, hinput⟩
  · rw [Procedure.attempt, hp, hrule]
    exact .error e (restore_eq hinput)
  · rw [Procedure.attempt, hp, hrule]
    exact .ok a hpass hinput

theorem return_follows (a : α) : Follows (pure a) fun stream => .ok (a, stream) :=
  fun l => .ok a (.nil l.stream) rfl

/-! ### What implements a rule -/

/-- A procedure that implements a rule and fails does so with the error of the rule, and has not moved the cursor. -/
theorem Implements.rule_of_error (h : Implements p rule) {e : ParseError} (he : p l = (.error e, next)) :
    rule l.stream = .error e ∧ next = l := by
  rcases (h l).elim with ⟨e', next', hp, hrule, hnext⟩ | ⟨a, next', ts, hp, -⟩
  · obtain ⟨hsame, rfl⟩ := Prod.mk.inj (he.symm.trans hp)
    obtain rfl := Except.error.inj hsame
    exact ⟨hrule, hnext⟩
  · cases he.symm.trans hp

/-- A procedure that implements a rule and succeeds has taken what the rule takes. -/
theorem Implements.rule_of_ok (h : Implements p rule) {a : α} (ha : p l = (.ok a, next)) :
    rule l.stream = .ok (a, next.stream) ∧ next.input = l.input := by
  rcases (h l).elim with ⟨e, next', hp, -⟩ | ⟨a', next', ts, hp, hrule, hpass, hinput⟩
  · cases ha.symm.trans hp
  · obtain ⟨hsame, rfl⟩ := Prod.mk.inj (ha.symm.trans hp)
    obtain rfl := Except.ok.inj hsame
    exact ⟨hrule, hinput⟩

/-- Where the rule fails the procedure fails in the same way and has not moved the cursor. -/
theorem Implements.of_error (h : Implements p rule) {e : ParseError} (he : rule l.stream = .error e) :
    p l = (.error e, l) := by
  rcases (h l).elim with ⟨e', next, hp, hrule, rfl⟩ | ⟨a, next, ts, -, hrule, -⟩
  · obtain rfl := Except.error.inj (he.symm.trans hrule)
    exact hp
  · cases he.symm.trans hrule

/-- Where the rule succeeds the procedure gives the same result and goes to what the rule leaves. -/
theorem Implements.of_ok (h : Implements p rule) {a : α} {rest : TokenStream} (ha : rule l.stream = .ok (a, rest)) :
    ∃ next ts, p l = (.ok a, next) ∧ next.stream = rest ∧ l.stream.Passes ts rest ∧ next.input = l.input := by
  rcases (h l).elim with ⟨e, next, -, hrule, -⟩ | ⟨a', next, ts, hp, hrule, hpass, hinput⟩
  · cases ha.symm.trans hrule
  · obtain ⟨rfl, rfl⟩ := Prod.mk.inj (Except.ok.inj (ha.symm.trans hrule))
    exact ⟨next, ts, hp, rfl, hpass, hinput⟩

/-! ### Alternatives -/

theorem recover_ok {a : α} (h : p l = (.ok a, next)) : recover p l = (.ok (.ok a), next) := by
  rw [recover, h]

theorem recover_error {e : ParseError} (h : p l = (.error e, next)) (he : e.isBacktrackable = true) :
    recover p l = (.ok (.error e), next) := by
  rw [recover, h]
  exact if_pos he

theorem recover_final {e : ParseError} (h : p l = (.error e, next)) (he : e.isBacktrackable = false) :
    recover p l = (.error e, next) := by
  rw [recover, h]
  exact if_neg (by rw [he]; decide)

section

variable {found : α → Procedure β} {otherwise : Procedure β}

theorem ifReads_ok {a : α} (h : p l = (.ok a, next)) : ifReads p found otherwise l = found a next :=
  bind_ok (recover_ok h)

theorem ifReads_error {e : ParseError} (h : p l = (.error e, next)) (he : e.isBacktrackable = true) :
    ifReads p found otherwise l = otherwise next :=
  bind_ok (recover_error h he)

theorem ifReads_final {e : ParseError} (h : p l = (.error e, next)) (he : e.isBacktrackable = false) :
    ifReads p found otherwise l = (.error e, next) :=
  bind_error (recover_final h he)

end

/-! ### Tokens -/

theorem scan_token {t : Token} (h : l.scan = (.ok t, next)) : scan l = (.ok t, next) := by
  rw [scan, h]

theorem scan_stop {reason : Stop} (h : l.scan = (.error reason, next)) : scan l = (.error (.ofStop reason), next) := by
  rw [scan, h]

theorem expect_token {k : TokenKind} {t : Token} (h : l.scan = (.ok t, next)) (hk : t.kind = k) :
    expect k l = (.ok t, next) := by
  rw [expect, Lexer.expect, h]
  dsimp only
  rw [if_pos hk]

theorem expect_other {k : TokenKind} {t : Token} (h : l.scan = (.ok t, next)) (hk : t.kind ≠ k) :
    expect k l = (.error (.unexpectedToken k t), l) := by
  rw [expect, Lexer.expect, h]
  dsimp only
  rw [if_neg hk]
  rfl

theorem expect_stop {reason : Stop} (h : l.scan = (.error reason, next)) (k : TokenKind) :
    expect k l = (.error (.ofStop reason), l) := by
  rw [expect, Lexer.expect, h]
  rfl

theorem expect_implements (k : TokenKind) : Implements (expect k) (Rule.expect k) := by
  intro l
  rcases l.scan_cases with ⟨reason, next, hscan, hstream, hinput⟩ | ⟨t, next, hscan, hstream, hinput⟩
  · rw [expect_stop hscan k, hstream]
    exact .error _ rfl
  · have hpass := TokenStream.Passes.head hstream
    by_cases hk : t.kind = k
    · rw [expect_token hscan hk, hstream, Rule.expect, if_pos hk]
      exact .ok t hpass hinput
    · rw [expect_other hscan hk, hstream, Rule.expect, if_neg hk]
      exact .error _ rfl

end Procedure

end DocFilter
