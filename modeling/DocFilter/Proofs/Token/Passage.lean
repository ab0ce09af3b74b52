import DocFilter.Lexer

/-!
# Passages

What a reader takes from a stream is a passage: the tokens at its head, and the stream that is left behind them.  A
passage of a lexer's stream leaves the stream that the lexer has with its cursor there (`Passes.stream_restore`).  A
text is well formed exactly if its stream has a passage to the end of the input (`tokenize_eq_ok_iff`).
-/

namespace DocFilter

/-- Scanning moves the cursor and leaves the input. -/
theorem Lexer.scan_input (l : Lexer) : l.scan.2.input = l.input := by
  unfold scan
  dsimp only
  split
  · rfl
  · split <;> rfl

namespace TokenStream

/-- The tokens `ts` stand at the head of a stream and `rest` is what follows them. -/
inductive Passes : TokenStream → List Token → TokenStream → Prop where
  | nil (stream : TokenStream) : Passes stream [] stream
  | cons (start : Nat) (head : Token) {next rest : TokenStream} {ts : List Token} (tail : Passes next ts rest) :
      Passes (token start head next) (head :: ts) rest

/-- The kind of the first token, if there is one. -/
def headKind? : TokenStream → Option TokenKind
  | token _ head _ => some head.kind
  | stop _ _ => none

namespace Passes

@[simp] theorem nil_iff {stream rest : TokenStream} : stream.Passes [] rest ↔ stream = rest := by
  constructor
  · intro h
    cases h
    rfl
  · rintro rfl
    exact .nil stream

@[simp] theorem cons_iff {stream rest : TokenStream} {t : Token} {ts : List Token} :
    stream.Passes (t :: ts) rest ↔ ∃ start next, stream = token start t next ∧ next.Passes ts rest := by
  constructor
  · rintro ⟨⟩
    exact ⟨_, _, rfl, ‹_›⟩
  · rintro ⟨start, next, rfl, h⟩
    exact .cons start t h

@[simp] theorem append_iff {stream rest : TokenStream} {ts us : List Token} :
    stream.Passes (ts ++ us) rest ↔ ∃ middle, stream.Passes ts middle ∧ middle.Passes us rest := by
  induction ts generalizing stream with
  | nil => simp
  | cons t ts ih =>
    simp only [List.cons_append, cons_iff, ih]
    constructor
    · rintro ⟨start, next, rfl, middle, h, h'⟩
      exact ⟨middle, ⟨start, next, rfl, h⟩, h'⟩
    · rintro ⟨middle, ⟨start, next, rfl, h⟩, h'⟩
      exact ⟨start, next, rfl, middle, h, h'⟩

theorem append {stream middle rest : TokenStream} {ts us : List Token} (h : stream.Passes ts middle)
    (h' : middle.Passes us rest) : stream.Passes (ts ++ us) rest :=
  append_iff.2 ⟨middle, h, h'⟩

/-- Behind a passage come the other tokens of the stream. -/
theorem tokens_eq {stream rest : TokenStream} {ts : List Token} (h : stream.Passes ts rest) :
    stream.tokens = ts ++ rest.tokens := by
  induction h with
  | nil stream => rfl
  | cons start head _ ih => exact congrArg (head :: ·) ih

theorem tokens_suffix {stream rest : TokenStream} {ts : List Token} (h : stream.Passes ts rest) :
    rest.tokens <:+ stream.tokens :=
  h.tokens_eq ▸ List.suffix_append ts rest.tokens

/-- A passage does not change why the stream stops. -/
theorem reason_eq {stream rest : TokenStream} {ts : List Token} (h : stream.Passes ts rest) :
    stream.reason = rest.reason := by
  induction h with
  | nil stream => rfl
  | cons start head _ ih => exact ih

/-- A stream has a passage over all its tokens. -/
theorem to_stop (stream : TokenStream) : ∃ start, stream.Passes stream.tokens (stop start stream.reason) := by
  induction stream with
  | token start head rest ih =>
    obtain ⟨last, h⟩ := ih
    exact ⟨last, .cons start head h⟩
  | stop start reason => exact ⟨start, .nil _⟩

/-- Where a passage of a lexer's stream ends, the lexer goes on with what the passage leaves. -/
theorem stream_restore {l : Lexer} {ts : List Token} {rest : TokenStream} (h : l.stream.Passes ts rest) :
    (l.restore ⟨rest.position⟩).stream = rest := by
  induction ts generalizing l with
  | nil =>
    obtain rfl := nil_iff.1 h
    have hcursor : l.stream.position = l.position := position_read ..
    rw [hcursor]
    rfl
  | cons t ts ih =>
    obtain ⟨start, next, hl, hnext⟩ := cons_iff.1 h
    rw [Lexer.stream_eq_scan] at hl
    split at hl
    · rename_i found behind hscan
      obtain ⟨-, rfl, rfl⟩ := token.inj hl
      -- the lexer behind the token differs from `l` in its cursor only
      have hinput : behind.input = l.input := by
        have := l.scan_input
        rwa [hscan] at this
      have hsame : l.restore ⟨rest.position⟩ = behind.restore ⟨rest.position⟩ := by
        rw [Lexer.restore, Lexer.restore, hinput]
      rw [hsame]
      exact ih hnext
    · cases hl

end Passes

end TokenStream

/-- A text is well formed with the tokens `ts` exactly if its stream passes over them to the end of the input. -/
theorem tokenize_eq_ok_iff {input : String} {ts : List Token} :
    tokenize input = .ok ts ↔
      ∃ start position, (TokenStream.read 0 input.toList).Passes ts (.stop start (.endOfInput position)) := by
  constructor
  · intro h
    unfold tokenize at h
    dsimp only at h
    obtain ⟨start, hpass⟩ := TokenStream.Passes.to_stop (.read 0 input.toList)
    split at h
    · rename_i position hreason
      obtain rfl := Except.ok.inj h
      exact ⟨start, position, hreason ▸ hpass⟩
    · cases h
  · rintro ⟨start, position, h⟩
    have hreason := h.reason_eq
    have htokens := h.tokens_eq
    simp only [TokenStream.reason, TokenStream.tokens, List.append_nil] at hreason htokens
    simp only [tokenize, hreason, htokens]

theorem tokens_of_tokenize {input : String} {ts : List Token} (h : tokenize input = .ok ts) :
    (TokenStream.read 0 input.toList).tokens = ts := by
  obtain ⟨start, position, hpass⟩ := tokenize_eq_ok_iff.1 h
  rw [hpass.tokens_eq, TokenStream.tokens, List.append_nil]

end DocFilter
