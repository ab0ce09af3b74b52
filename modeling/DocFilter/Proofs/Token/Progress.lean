import Mathlib.Data.List.TakeWhile
import DocFilter.Proofs.Token.Cursor

/-!
# Scanning to the end

A scan moves the cursor forward in the input, or it finds the end: it does so exactly where nothing but blanks is ahead,
and goes to the end of the input or stays behind it (`Lexer.scan_eq_end_iff`).  At the end nothing changes any more, and
an error that is final leads there (`Lexer.end_of_final`).  So scanning again and again comes to the end, whatever the
errors are on the way (`Lexer.exists_end`), and collecting tokens until a scan fails is tokenizing
(`Lexer.collect?_eq_tokenize`).
-/

namespace DocFilter.Lexer

/-- The lexer after `n` scans, whatever they have given. -/
def after (l : Lexer) : Nat → Lexer
  | 0 => l
  | n + 1 => (l.after n).scan.2

/-- Scans until it fails, at most `calls` times, and collects the tokens; nothing if the calls do not suffice. -/
def collect? (l : Lexer) : (calls : Nat) → Option (Except LexError (List Token))
  | 0 => none
  | calls + 1 =>
    match l.scan with
    | (.ok t, next) => (next.collect? calls).map (Except.map (t :: ·))
    | (.error (.endOfInput _), _) => some (.ok [])
    | (.error (.malformed e), _) => some (.error e)

variable {l next : Lexer}

/-! ### The end -/

/-- A scan finds the end exactly if nothing but blanks is ahead.  It then goes to the end of the input, or stays where
it is behind it. -/
theorem scan_eq_end_iff {p : Nat} :
    l.scan.1 = .error (.endOfInput p) ↔ (∀ c ∈ l.ahead, isBlank c) ∧ p = max l.position l.input.length := by
  have hblank : (∀ c ∈ l.ahead, isBlank c) ↔ l.ahead.dropWhile isBlank = [] := List.dropWhile_eq_nil_iff.symm
  have hend {q : Nat} (h : l.scan.1 = .error (.endOfInput q)) : q = max l.position l.input.length :=
    (scan_end (Prod.ext h rfl : l.scan = (.error (.endOfInput q), l.scan.2))).2
  constructor
  · intro h
    refine ⟨hblank.2 ?_, hend h⟩
    unfold scan at h
    dsimp only at h
    split at h
    · assumption
    · split at h <;> cases h
  · rintro ⟨hahead, rfl⟩
    have hscan : l.scan.1 = .error (.endOfInput (l.position + (l.ahead.takeWhile isBlank).length)) := by
      unfold scan
      dsimp only
      rw [hblank.1 hahead]
    rw [hscan, hend hscan]

/-- At the end of the input, and behind it, a scan changes nothing. -/
theorem scan_at_end (h : l.input.length ≤ l.position) : l.scan = (.error (.endOfInput l.position), l) := by
  have hahead : l.ahead = [] := List.drop_eq_nil_of_le h
  unfold scan
  rw [hahead]
  rfl

/-- After an error that is final the cursor is at the end of the input, or behind it. -/
theorem end_of_final {reason : Stop} (h : l.scan = (.error reason, next)) (hfinal : reason.isFinal) :
    next.input = l.input ∧ next.position = max l.position l.input.length := by
  have hinput := l.scan_input
  rw [h] at hinput
  refine ⟨hinput, ?_⟩
  cases reason with
  | endOfInput p =>
    have := scan_end h
    omega
  | malformed e =>
    have hbounds := scan_fault_bounds h
    have hposition : next.position = l.input.length := by
      unfold scan at h
      dsimp only at h
      split at h
      · cases h
      · split at h
        · obtain ⟨herror, rfl⟩ := Prod.mk.inj h
          obtain rfl := Stop.malformed.inj (Except.error.inj herror)
          show LexError.resume _ _ = _
          unfold LexError.resume
          split
          · rename_i hescape
            simp [Stop.isFinal, LexError.isFinal, hescape] at hfinal
          · rfl
        · cases h
    omega

/-! ### One scan after the other -/

theorem input_after (l : Lexer) (n : Nat) : (l.after n).input = l.input := by
  induction n with
  | zero => rfl
  | succ n ih => exact (l.after n).scan_input.trans ih

/-- Where a scan changes nothing no later one does. -/
theorem after_of_still {n : Nat} (h : (l.after n).scan.2 = l.after n) {m : Nat} (hm : n ≤ m) :
    l.after m = l.after n := by
  induction hm with
  | refl => rfl
  | step _ ih => rw [after, ih, h]

/-- After an error that is final all scans find the end, at the same place. -/
theorem scan_after_final {reason : Stop} {n : Nat} (h : (l.after n).scan.1 = .error reason) (hfinal : reason.isFinal)
    {m : Nat} (hm : n < m) :
    (l.after m).scan = (.error (.endOfInput (l.after (n + 1)).position), l.after (n + 1)) := by
  have hend := end_of_final (Prod.ext h rfl : (l.after n).scan = (.error reason, l.after (n + 1))) hfinal
  have hstill := scan_at_end (l := l.after (n + 1)) (by rw [hend.1, hend.2]; exact Nat.le_max_right _ _)
  rw [after_of_still (congrArg Prod.snd hstill) hm, hstill]

/-- As long as the scans do not find the end each of them moves the cursor. -/
private theorem end_or_le_position (l : Lexer) (n : Nat) :
    (∃ k p, k < n ∧ (l.after k).scan.1 = .error (.endOfInput p)) ∨ n ≤ (l.after n).position := by
  induction n with
  | zero => exact .inr (Nat.zero_le _)
  | succ n ih =>
    rcases ih with ⟨k, p, hk, hend⟩ | hposition
    · exact .inl ⟨k, p, by omega, hend⟩
    · rcases hscan : (l.after n).scan with ⟨(p | e) | t, next⟩
      · exact .inl ⟨n, p, by omega, by rw [hscan]⟩
      · have := scan_fault_bounds hscan
        exact .inr (by rw [after, hscan]; dsimp only; omega)
      · have := scan_token_bounds hscan
        exact .inr (by rw [after, hscan]; dsimp only; omega)

/-- Scanning comes to the end after no more scans than the input has characters. -/
theorem exists_end (l : Lexer) : ∃ n p, n ≤ l.input.length ∧ (l.after n).scan.1 = .error (.endOfInput p) := by
  rcases l.end_or_le_position l.input.length with ⟨n, p, hn, hend⟩ | hposition
  · exact ⟨n, p, Nat.le_of_lt hn, hend⟩
  · have hstill := scan_at_end (l := l.after l.input.length) (by rw [input_after]; exact hposition)
    exact ⟨_, _, Nat.le_refl _, congrArg Prod.fst hstill⟩

/-! ### Collecting the tokens -/

/-- More calls than there are characters ahead suffice to collect what the stream of the lexer has. -/
private theorem collect?_eq {calls : Nat} (h : l.input.length - l.position < calls) :
    l.collect? calls = some (match l.stream.reason with
      | .endOfInput _ => .ok l.stream.tokens
      | .malformed e => .error e) := by
  induction calls generalizing l with
  | zero => omega
  | succ calls ih =>
    rw [collect?, stream_eq_scan]
    have hinput := l.scan_input
    rcases hscan : l.scan with ⟨(p | e) | t, next⟩
    · rfl
    · rfl
    · have hbounds := scan_token_bounds hscan
      rw [hscan] at hinput
      dsimp only at hinput ⊢
      rw [ih (by rw [hinput]; omega)]
      dsimp only [TokenStream.reason, TokenStream.tokens]
      cases next.stream.reason <;> rfl

/-- Tokenizing a text is collecting its tokens; one call more than there are characters suffices. -/
theorem collect?_eq_tokenize (input : String) {calls : Nat} (h : input.length < calls) :
    (ofString input).collect? calls = some (tokenize input) := by
  have hcalls : (ofString input).input.length - (ofString input).position < calls := by
    rwa [ofString, String.length_toList, Nat.sub_zero]
  have hstream : (ofString input).stream = .read 0 input.toList := by
    rw [stream, ahead, ofString, List.drop_zero]
  rw [collect?_eq hcalls, hstream]
  rfl

/-! ### Taking a token of one kind -/

/-- A token is taken exactly if the next one is of the kind. -/
theorem expect_eq_ok_iff {kind : TokenKind} {t : Token} :
    l.expect kind = (.ok t, next) ↔ l.scan = (.ok t, next) ∧ t.kind = kind := by
  unfold expect
  split
  · rename_i found behind hscan
    rw [hscan]
    simp only [Prod.mk.injEq, Except.ok.injEq]
    split
    · rename_i hkind
      simp only [Prod.mk.injEq, Except.ok.injEq]
      constructor
      · rintro ⟨rfl, rfl⟩
        exact ⟨⟨rfl, rfl⟩, hkind⟩
      · exact And.left
    · rename_i hkind
      constructor
      · rintro ⟨⟩
      · rintro ⟨⟨rfl, -⟩, rfl⟩
        exact absurd rfl hkind
  · rename_i hscan
    rw [hscan]
    constructor
    · rintro ⟨⟩
    · rintro ⟨⟨⟩, -⟩

/-- Otherwise the lexer stays as it was, and the error says whether another token is next, or none. -/
theorem expect_eq_error_iff {kind : TokenKind} {e : ExpectError} :
    l.expect kind = (.error e, next) ↔ next = l ∧
      ((∃ reason, l.scan.1 = .error reason ∧ e = .stopped reason) ∨
        ∃ t, l.scan.1 = .ok t ∧ t.kind ≠ kind ∧ e = .mismatch kind t) := by
  unfold expect
  split
  · rename_i found behind hscan
    rw [hscan]
    split
    · rename_i hkind
      constructor
      · rintro ⟨⟩
      · rintro ⟨-, ⟨_, ⟨⟩, -⟩ | ⟨t, ht, hother, -⟩⟩
        obtain rfl := Except.ok.inj ht
        exact absurd hkind hother
    · rename_i hkind
      constructor
      · intro h
        obtain ⟨he, rfl⟩ := Prod.mk.inj h
        exact ⟨rfl, .inr ⟨found, rfl, hkind, (Except.error.inj he).symm⟩⟩
      · rintro ⟨rfl, ⟨_, ⟨⟩, -⟩ | ⟨t, ht, -, rfl⟩⟩
        obtain rfl := Except.ok.inj ht
        rfl
  · rename_i reason behind hscan
    rw [hscan]
    constructor
    · intro h
      obtain ⟨he, rfl⟩ := Prod.mk.inj h
      exact ⟨rfl, .inl ⟨reason, rfl, (Except.error.inj he).symm⟩⟩
    · rintro ⟨rfl, ⟨other, hother, rfl⟩ | ⟨_, ⟨⟩, -⟩⟩
      obtain rfl := Except.error.inj hother
      rfl

/-- Scanning goes forward and stays where it ends, from any cursor, one behind the input included.  A token or a fault
moves the cursor forward within the input; the end is found exactly where nothing but blanks is ahead, at the end of the
input, or at the cursor if that is behind it.  After an error that is final the end is found for ever, at one position.
The end is found after no more scans than there are characters, and listing the tokens of a text needs only one call
more.  Taking a token of one kind fails without a change, and otherwise is a scan. -/
theorem scan_progress (l : Lexer) :
    l.scan.2.input = l.input ∧
    (∀ t next, l.scan = (.ok t, next) → l.position < next.position ∧ next.position ≤ l.input.length) ∧
    (∀ e next, l.scan = (.error (.malformed e), next) →
      l.position < next.position ∧ next.position ≤ l.input.length) ∧
    (∀ p next, l.scan = (.error (.endOfInput p), next) ↔
      (∀ c ∈ l.ahead, isBlank c) ∧ p = max l.position l.input.length ∧ next = ⟨l.input, p⟩) ∧
    (∀ n reason, (l.after n).scan.1 = .error reason → reason.isFinal →
      ∃ p, ∀ m, n < m → (l.after m).scan = (.error (.endOfInput p), l.after (n + 1))) ∧
    (∃ n p, n ≤ l.input.length ∧ (l.after n).scan.1 = .error (.endOfInput p)) ∧
    (∀ (input : String) calls, input.length < calls → (l.setInput input).collect? calls = some (tokenize input)) ∧
    ∀ kind, (∀ t next, l.expect kind = (.ok t, next) ↔ l.scan = (.ok t, next) ∧ t.kind = kind) ∧
      ∀ e next, l.expect kind = (.error e, next) ↔ next = l ∧
        ((∃ reason, l.scan.1 = .error reason ∧ e = .stopped reason) ∨
          ∃ t, l.scan.1 = .ok t ∧ t.kind ≠ kind ∧ e = .mismatch kind t) := by
  refine ⟨l.scan_input, fun t next h => ?_, fun e next h => scan_fault_bounds h, fun p next => ⟨fun h => ?_, ?_⟩,
    fun n reason h hfinal => ⟨_, fun m hm => scan_after_final h hfinal hm⟩, l.exists_end,
    fun input calls h => collect?_eq_tokenize input h,
    fun kind => ⟨fun t next => expect_eq_ok_iff, fun e next => expect_eq_error_iff⟩⟩
  · have := scan_token_bounds h
    omega
  · obtain ⟨hahead, hp⟩ := scan_eq_end_iff.1 (congrArg Prod.fst h)
    have hinput := l.scan_input
    rw [h] at hinput
    have hposition := (scan_end h).1
    obtain ⟨input, position⟩ := next
    exact ⟨hahead, hp, by rw [← hinput, ← hposition]⟩
  · rintro ⟨hahead, hp, rfl⟩
    have h : l.scan = (.error (.endOfInput p), l.scan.2) := Prod.ext (scan_eq_end_iff.2 ⟨hahead, hp⟩) rfl
    have hnext : l.scan.2 = ⟨l.input, p⟩ := by
      rw [← (scan_end h).1, ← l.scan_input]
    rw [h, hnext]

/-- A token and then a string that is left open; a cursor that a longer input has left behind a shorter one. -/
theorem scan_progress_open_string :
    let l := ofString "a 'b"
    let behind := (l.setInput "c ").restore (l.after 2).checkpoint
    l.scan = (.ok ⟨.identifier, "a", 0, 1⟩, l.after 1) ∧ (0 < (l.after 1).position ∧ (l.after 1).position ≤ 4) ∧
      (l.after 1).scan = (.error (.malformed ⟨.unterminatedString, 2⟩), l.after 2) ∧
      (1 < (l.after 2).position ∧ (l.after 2).position ≤ 4) ∧
      (∃ p, ∀ m, 1 < m → (l.after m).scan = (.error (.endOfInput p), l.after 2)) ∧
      behind.position = 4 ∧ behind.input.length = 2 ∧ behind.scan = (.error (.endOfInput 4), behind) ∧
      (l.setInput "c ").collect? 3 = some (tokenize "c ") := by
  intro l behind
  have htoken : l.scan = (.ok ⟨.identifier, "a", 0, 1⟩, l.after 1) := rfl
  have hopen : (l.after 1).scan = (.error (.malformed ⟨.unterminatedString, 2⟩), l.after 2) := rfl
  have hahead : behind.ahead = [] := rfl
  have hbehind : behind.scan = (.error (.endOfInput 4), behind) :=
    (behind.scan_progress.2.2.2.1 4 behind).2 ⟨by simp [hahead], rfl, rfl⟩
  exact ⟨htoken, l.scan_progress.2.1 _ _ htoken, hopen, (l.after 1).scan_progress.2.2.1 _ _ hopen,
    l.scan_progress.2.2.2.2.1 1 _ (congrArg Prod.fst hopen) rfl, rfl, rfl, hbehind,
    l.scan_progress.2.2.2.2.2.2.1 "c " 3 (by decide)⟩

end DocFilter.Lexer
