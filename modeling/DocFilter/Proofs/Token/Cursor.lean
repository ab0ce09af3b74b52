import DocFilter.Proofs.Token.Passage
import DocFilter.Proofs.Token.Quotation

/-!
# The cursor

A scan skips blanks and reads the lexeme behind them (`Lexer.scan_of_read_ok`, `Lexer.exists_read_of_scan`).  It leaves
the cursor behind the token that it found (`Lexer.scan_token_bounds`), at the end of an input that has no more tokens
(`Lexer.scan_end`), or somewhere behind a fault (`Lexer.scan_fault_bounds`).  It moves forward and within the input,
unless nothing is left.  So a passage over at least one token ends at the end of a token, further along in the input
(`Passes.end_bounds`).
-/

namespace DocFilter

/-! ### Faults -/

/-- The backslash of an invalid escape stands inside the string. -/
private theorem Lexeme.escape_bounds {text : List Char} {e : LexError} {escape : Char}
    (h : read '\'' text = .error e) (he : e.fault = .invalidEscape escape) :
    1 ≤ e.position ∧ e.position < 1 + text.length := by
  obtain ⟨body, content, rest, hbody, rfl, hend⟩ := exists_denotes text
  rcases hend with ⟨more, rfl⟩ | ⟨c, more, rfl, hc⟩ | hend
  · rw [read_closed hbody] at h
    cases h
  · rw [read_invalidEscape hbody hc] at h
    obtain rfl := Except.error.inj h
    simp only [List.length_append, List.length_cons]
    omega
  · rw [read_unterminated hbody hend] at h
    obtain rfl := Except.error.inj h
    cases he

/-- After a fault scanning goes on behind the place where the lexeme should start, and not behind the input. -/
private theorem Lexeme.resume_bounds {c : Char} {rest : List Char} {e : LexError} (h : read c rest = .error e)
    (position : Nat) :
    position < (e.shift position).resume (position + (rest.length + 1)) ∧
      (e.shift position).resume (position + (rest.length + 1)) ≤ position + (rest.length + 1) := by
  unfold LexError.resume
  split
  · rename_i escape hfault
    have hbounds : 1 ≤ e.position ∧ e.position < 1 + rest.length := by
      by_cases hquote : c = '\''
      · subst hquote
        exact escape_bounds h hfault
      · rw [read, if_neg hquote] at h
        split at h
        · cases h
        · split at h
          · cases h
          · split at h
            · cases h
            · obtain rfl := Except.error.inj h
              cases hfault
    simp only [LexError.shift]
    omega
  · omega

/-! ### One scan -/

namespace Lexer

variable {l next : Lexer}

private theorem length_ahead (l : Lexer) :
    (l.ahead.takeWhile isBlank).length + (l.ahead.dropWhile isBlank).length = l.input.length - l.position := by
  rw [← List.length_append, List.takeWhile_append_dropWhile, ahead, List.length_drop]

section

variable {blanks text : List Char} {c : Char} (hblanks : ∀ b ∈ blanks, isBlank b) (hc : isBlank c = false)
  (hahead : l.ahead = blanks ++ c :: text)
include hblanks hc hahead

private theorem ahead_split : l.ahead.takeWhile isBlank = blanks ∧ l.ahead.dropWhile isBlank = c :: text := by
  have hstop : ¬isBlank c := by
    rw [hc]
    exact Bool.false_ne_true
  rw [hahead]
  constructor
  · rw [List.takeWhile_append_of_pos hblanks, List.takeWhile_cons_of_neg hstop, List.append_nil]
  · rw [List.dropWhile_append_of_pos hblanks, List.dropWhile_cons_of_neg hstop]

/-- A lexer skips blanks and reads the lexeme in front of which it then stands. -/
theorem scan_of_read_ok {lexeme : Lexeme} (hread : Lexeme.read c text = .ok lexeme) :
    l.scan = (.ok ⟨lexeme.kind, lexeme.text, l.position + blanks.length, l.position + blanks.length + lexeme.width⟩,
      { l with position := l.position + blanks.length + lexeme.width }) := by
  obtain ⟨htake, hdrop⟩ := ahead_split hblanks hc hahead
  simp only [scan, htake, hdrop, hread]

theorem scan_of_read_error {e : LexError} (hread : Lexeme.read c text = .error e) :
    l.scan.1 = .error (.malformed (e.shift (l.position + blanks.length))) := by
  obtain ⟨htake, hdrop⟩ := ahead_split hblanks hc hahead
  simp only [scan, htake, hdrop, hread]

end

/-- A token is read behind the blanks that come first. -/
theorem exists_read_of_scan {t : Token} (h : l.scan = (.ok t, next)) :
    ∃ blanks c text lexeme, (∀ b ∈ blanks, isBlank b) ∧ isBlank c = false ∧ l.ahead = blanks ++ c :: text ∧
      Lexeme.read c text = .ok lexeme ∧
      t = ⟨lexeme.kind, lexeme.text, l.position + blanks.length, l.position + blanks.length + lexeme.width⟩ ∧
      next = { l with position := l.position + blanks.length + lexeme.width } := by
  unfold scan at h
  dsimp only at h
  split at h
  · cases h
  · rename_i c text hdrop
    split at h
    · cases h
    · rename_i lexeme hread
      obtain ⟨ht, hnext⟩ := Prod.mk.inj h
      refine ⟨l.ahead.takeWhile isBlank, c, text, lexeme, List.all_eq_true.1 List.all_takeWhile, ?_, ?_, hread,
        (Except.ok.inj ht).symm, hnext.symm⟩
      · have hhead := List.head?_dropWhile_not isBlank l.ahead
        rw [hdrop] at hhead
        simpa using hhead
      · rw [← hdrop, List.takeWhile_append_dropWhile]

/-- A scan leaves the cursor behind the token that it found, further along in the input. -/
theorem scan_token_bounds {t : Token} (h : l.scan = (.ok t, next)) :
    next.position = t.stop ∧ l.position < t.stop ∧ t.stop ≤ l.input.length := by
  obtain ⟨blanks, c, text, lexeme, -, -, hahead, hread, rfl, rfl⟩ := exists_read_of_scan h
  have hwidth := Lexeme.width_bounds hread
  have hlength := congrArg List.length hahead
  rw [ahead, List.length_drop, List.length_append, List.length_cons] at hlength
  dsimp only
  omega

/-- Where no token is left a scan goes to the end of the input, or stays behind it. -/
theorem scan_end {position : Nat} (h : l.scan = (.error (.endOfInput position), next)) :
    next.position = position ∧ position = max l.position l.input.length := by
  have hlength := l.length_ahead
  unfold scan at h
  dsimp only at h
  split at h
  · rename_i hahead
    obtain ⟨hreason, rfl⟩ := Prod.mk.inj h
    obtain rfl := Stop.endOfInput.inj (Except.error.inj hreason)
    rw [hahead, List.length_nil] at hlength
    dsimp only
    omega
  · split at h <;> cases h

/-- A fault leaves the cursor further along in the input. -/
theorem scan_fault_bounds {e : LexError} (h : l.scan = (.error (.malformed e), next)) :
    l.position < next.position ∧ next.position ≤ l.input.length := by
  have hlength := l.length_ahead
  unfold scan at h
  dsimp only at h
  split at h
  · cases h
  · rename_i c rest hahead
    split at h
    · rename_i fault hread
      obtain ⟨-, rfl⟩ := Prod.mk.inj h
      rw [hahead, List.length_cons] at hlength
      have hinput : l.input.length = l.position + (l.ahead.takeWhile isBlank).length + (rest.length + 1) := by omega
      have hresume := Lexeme.resume_bounds hread (l.position + (l.ahead.takeWhile isBlank).length)
      dsimp only
      rw [hinput]
      omega
    · cases h

/-- In the input a scan does not move the cursor back, nor behind the input. -/
theorem scan_bounds (h : l.position ≤ l.input.length) :
    l.position ≤ l.scan.2.position ∧ l.scan.2.position ≤ l.input.length := by
  rcases hscan : l.scan with ⟨(position | fault) | t, next⟩
  · have := scan_end hscan
    dsimp only
    omega
  · have := scan_fault_bounds hscan
    dsimp only
    omega
  · have := scan_token_bounds hscan
    dsimp only
    omega

/-- Either no token is left or the next one is the head of the stream. -/
theorem scan_cases (l : Lexer) :
    (∃ reason next, l.scan = (.error reason, next) ∧ l.stream = .stop l.position reason ∧ next.input = l.input) ∨
      ∃ t next, l.scan = (.ok t, next) ∧ l.stream = .token l.position t next.stream ∧ next.input = l.input := by
  have hinput := l.scan_input
  have hstream := l.stream_eq_scan
  rcases hscan : l.scan with ⟨reason | t, next⟩
  · rw [hscan] at hinput hstream
    exact .inl ⟨reason, next, rfl, hstream, hinput⟩
  · rw [hscan] at hinput hstream
    exact .inr ⟨t, next, rfl, hstream, hinput⟩

@[simp] theorem position_stream (l : Lexer) : l.stream.position = l.position :=
  TokenStream.position_read ..

end Lexer

/-! ### Passages -/

/-- The first token of a stream by itself is a passage. -/
theorem TokenStream.Passes.head {stream rest : TokenStream} {start : Nat} {t : Token}
    (h : stream = .token start t rest) : stream.Passes [t] rest := by
  rw [h]
  exact .cons start t (.nil rest)

/-- A passage over at least one token ends where its last token does, further along in the input. -/
theorem TokenStream.Passes.end_bounds {l : Lexer} {ts : List Token} {t : Token} {rest : TokenStream}
    (h : l.stream.Passes (ts ++ [t]) rest) :
    rest.position = t.stop ∧ l.position < t.stop ∧ t.stop ≤ l.input.length := by
  induction ts generalizing l with
  | nil =>
    obtain ⟨start, behind, hl, hrest⟩ := cons_iff.1 h
    obtain rfl := nil_iff.1 hrest
    rcases l.scan_cases with ⟨reason, next, -, hstream, -⟩ | ⟨found, next, hscan, hstream, -⟩
    · rw [hstream] at hl
      cases hl
    · rw [hstream] at hl
      obtain ⟨-, rfl, rfl⟩ := token.inj hl
      rw [next.position_stream]
      exact Lexer.scan_token_bounds hscan
  | cons first ts ih =>
    obtain ⟨start, behind, hl, hrest⟩ := cons_iff.1 h
    rcases l.scan_cases with ⟨reason, next, -, hstream, -⟩ | ⟨found, next, hscan, hstream, hinput⟩
    · rw [hstream] at hl
      cases hl
    · rw [hstream] at hl
      obtain ⟨-, rfl, rfl⟩ := token.inj hl
      have hfirst := Lexer.scan_token_bounds hscan
      have hlast := ih hrest
      rw [hinput] at hlast
      omega

end DocFilter
