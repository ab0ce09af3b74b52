import DocFilter.Proofs.Token.Seam

/-!
# Malformed texts

A text is malformed at the place behind its tokens where a lexeme should start and none does.  `tokenize` fails with
the error of reading a lexeme there and with no other one (`tokenize_eq_error_iff`), and all tokens of the stream stand
before that place (`exists_malformedAt`).
-/

namespace DocFilter

/-- The first `offset` characters of the text are the tokens `ts` and blanks, and a lexeme should start behind them
but does not: reading one there is the error `e`. -/
def MalformedAt (text : String) (ts : List Token) (offset : Nat) (e : LexError) : Prop :=
  ∃ (before rest : List Char) (c : Char) (fault : LexError), text.toList = before ++ c :: rest ∧
    before.length = offset ∧ Covers 0 before (c :: rest) ts ∧ isBlank c = false ∧
    Lexeme.read c rest = .error fault ∧ e = fault.shift offset

namespace TokenStream

/-- Where no lexeme starts a stream stops. -/
private theorem readFrom_fault {c : Char} {rest : List Char} {fault : LexError} (hc : isBlank c = false)
    (hread : Lexeme.read c rest = .error fault) (start offset : Nat) :
    readFrom start offset 0 (c :: rest) = stop start (.malformed (fault.shift offset)) := by
  rw [readFrom, hc, hread]
  rfl

/-- What stands before the place at which a stream stops for a fault. -/
private theorem exists_fault {start offset skip : Nat} {text : List Char} {e : LexError} (hskip : skip ≤ text.length)
    (h : (readFrom start offset skip text).reason = .malformed e) :
    ∃ (before rest : List Char) (c : Char) (fault : LexError), text = before ++ c :: rest ∧ skip ≤ before.length ∧
      isBlank c = false ∧ Lexeme.read c rest = .error fault ∧ e = fault.shift (offset + before.length) ∧
      (∀ t ∈ (readFrom start offset skip text).tokens, t.stop ≤ offset + before.length) ∧
      ∀ first, ∃ last, (readFrom first offset skip text).Passes (readFrom start offset skip text).tokens
        (readFrom last (offset + before.length) 0 (c :: rest)) := by
  fun_induction readFrom start offset skip text with
  | case1 => cases h
  | case2 start offset skip d text ih =>
    obtain ⟨before, rest, c, fault, rfl, hle, hc, hread, rfl, hstop, hpass⟩ := ih (by simpa using hskip) h
    rw [Nat.add_right_comm, Nat.add_assoc] at hstop hpass ⊢
    exact ⟨d :: before, rest, c, fault, rfl, Nat.succ_le_succ hle, hc, hread, rfl, hstop, hpass⟩
  | case3 start offset d text hblank ih =>
    obtain ⟨before, rest, c, fault, rfl, -, hc, hread, rfl, hstop, hpass⟩ := ih (Nat.zero_le _) h
    rw [Nat.add_right_comm, Nat.add_assoc] at hstop hpass ⊢
    refine ⟨d :: before, rest, c, fault, rfl, Nat.zero_le _, hc, hread, rfl, hstop, fun first => ?_⟩
    rw [readFrom, if_pos hblank]
    exact hpass first
  | case4 start offset d text hblank fault hread =>
    obtain rfl := Stop.malformed.inj h
    exact ⟨[], text, d, fault, rfl, Nat.le_refl _, by simpa using hblank, hread, rfl, by simp [tokens],
      fun first => ⟨first, .nil _⟩⟩
  | case5 start offset d text hblank lexeme hread behind ih =>
    have hwidth := Lexeme.width_bounds hread
    obtain ⟨before, rest, c, fault, rfl, hle, hc, hfault, rfl, hstop, hpass⟩ := ih (by omega) h
    rw [Nat.add_right_comm, Nat.add_assoc] at hstop hpass ⊢
    refine ⟨d :: before, rest, c, fault, rfl, Nat.zero_le _, hc, hfault, rfl, ?_, fun first => ?_⟩
    · intro t ht
      rcases List.mem_cons.1 ht with rfl | ht
      · simp only [behind, List.length_cons]
        omega
      · exact hstop t ht
    · rw [readFrom, if_neg hblank, hread]
      obtain ⟨last, hlast⟩ := hpass behind
      exact ⟨last, .cons _ _ hlast⟩

end TokenStream

/-- Tokenizing fails with the error at which the stream of the text stops. -/
theorem tokenize_eq_error_iff_reason {text : String} {e : LexError} :
    tokenize text = .error e ↔ (TokenStream.read 0 text.toList).reason = .malformed e := by
  unfold tokenize
  dsimp only
  cases (TokenStream.read 0 text.toList).reason with
  | endOfInput p => simp
  | malformed e' => simp

/-- A text that cannot be tokenized is malformed somewhere, behind all tokens of its stream. -/
theorem exists_malformedAt {text : String} {e : LexError} (h : tokenize text = .error e) :
    ∃ offset, MalformedAt text (TokenStream.read 0 text.toList).tokens offset e ∧
      ∀ t ∈ (TokenStream.read 0 text.toList).tokens, t.stop ≤ offset := by
  obtain ⟨before, rest, c, fault, htext, -, hc, hread, he, hstop, hpass⟩ :=
    TokenStream.exists_fault (Nat.zero_le _) (tokenize_eq_error_iff_reason.1 h)
  rw [Nat.zero_add] at he hstop
  refine ⟨before.length, ⟨before, rest, c, fault, htext, rfl, fun first => ?_, hc, hread, he⟩, hstop⟩
  rw [← htext]
  exact hpass first

/-- Tokenizing fails with the error of reading a lexeme where the text is malformed, and with no other one. -/
theorem tokenize_eq_error_iff {text : String} {e : LexError} :
    tokenize text = .error e ↔ ∃ ts offset, MalformedAt text ts offset e := by
  constructor
  · intro h
    obtain ⟨offset, hmalformed, -⟩ := exists_malformedAt h
    exact ⟨_, offset, hmalformed⟩
  · rintro ⟨ts, _, before, rest, c, fault, htext, rfl, hcovers, hc, hread, rfl⟩
    obtain ⟨last, hpass⟩ := hcovers 0
    rw [TokenStream.readFrom_fault hc hread, Nat.zero_add, ← htext] at hpass
    exact tokenize_eq_error_iff_reason.2 hpass.reason_eq

end DocFilter
