import DocFilter.Proofs.Token.Relocation
import DocFilter.Proofs.Token.Spelling

/-!
# Seams

Texts put together before delimiters have the tokens of both.  `Covers` says which tokens a text becomes before a given
rest; other than for `Tokenizes`, blanks may stand at either end of the text, so a text that is well formed by itself
covers its own tokens before every delimiter (`covers_of_tokenize`).  Texts are put together by `Covers.append`, and a
text that covers tokens up to the end of the input is well formed (`Covers.tokenize_eq`).
-/

namespace DocFilter

namespace TokenStream

/-- Before a delimiter a well-formed text has the tokens that it has by itself, and the stream goes on behind it. -/
private theorem readFrom_append {start offset skip position : Nat} {text rest : List Char}
    (hskip : skip ≤ text.length) (h : (readFrom start offset skip text).reason = .endOfInput position)
    (hrest : Delimited rest) :
    ∃ start', (readFrom start offset skip (text ++ rest)).Passes (readFrom start offset skip text).tokens
      (readFrom start' (offset + text.length) 0 rest) := by
  fun_induction readFrom start offset skip text with
  | case1 start offset skip =>
    obtain rfl : skip = 0 := by simpa using hskip
    exact ⟨start, .nil _⟩
  | case2 start offset skip c text ih =>
    obtain ⟨start', hpass⟩ := ih (by simpa using hskip) h
    rw [Nat.add_right_comm, Nat.add_assoc] at hpass
    exact ⟨start', hpass⟩
  | case3 start offset c text hblank ih =>
    obtain ⟨start', hpass⟩ := ih (Nat.zero_le _) h
    rw [Nat.add_right_comm, Nat.add_assoc] at hpass
    rw [List.cons_append, readFrom, if_pos hblank]
    exact ⟨start', hpass⟩
  | case4 start offset c text hblank e hread => cases h
  | case5 start offset c text hblank lexeme hread behind ih =>
    have hwidth := Lexeme.width_bounds hread
    obtain ⟨start', hpass⟩ := ih (by omega) h
    rw [Nat.add_right_comm, Nat.add_assoc] at hpass
    rw [List.cons_append, readFrom, if_neg hblank, Lexeme.read_append hrest hread]
    exact ⟨start', .cons _ _ hpass⟩

/-- The tokens of a text stand within it, behind the characters that are skipped. -/
theorem mem_tokens_readFrom {start offset skip : Nat} {text : List Char} {t : Token}
    (h : t ∈ (readFrom start offset skip text).tokens) :
    offset + skip ≤ t.position ∧ t.position < t.stop ∧ t.stop ≤ offset + text.length := by
  fun_induction readFrom start offset skip text with
  | case1 => cases h
  | case2 start offset skip c text ih =>
    have := ih h
    simp only [List.length_cons]
    omega
  | case3 start offset c text hblank ih =>
    have := ih h
    simp only [List.length_cons]
    omega
  | case4 => cases h
  | case5 start offset c text hblank lexeme hread behind ih =>
    have hwidth := Lexeme.width_bounds hread
    rcases List.mem_cons.1 h with rfl | h
    · simp only [List.length_cons, behind]
      omega
    · have := ih h
      simp only [List.length_cons]
      omega

/-- A stream that stops at the end of the input stops behind the last character. -/
theorem position_of_endOfInput {start offset skip p : Nat} {text : List Char}
    (h : (readFrom start offset skip text).reason = .endOfInput p) : p = offset + text.length := by
  fun_induction readFrom start offset skip text with
  | case1 => exact (Stop.endOfInput.inj h).symm
  | case2 start offset skip c text ih =>
    have := ih h
    simp only [List.length_cons]
    omega
  | case3 start offset c text hblank ih =>
    have := ih h
    simp only [List.length_cons]
    omega
  | case4 => cases h
  | case5 start offset c text hblank lexeme hread behind ih =>
    have := ih h
    simp only [List.length_cons]
    omega

/-- Every token ends before the next one begins. -/
theorem pairwise_tokens_readFrom (start offset skip : Nat) (text : List Char) :
    (readFrom start offset skip text).tokens.Pairwise fun t u => t.stop ≤ u.position := by
  fun_induction readFrom start offset skip text with
  | case1 => exact .nil
  | case2 => assumption
  | case3 => assumption
  | case4 => exact .nil
  | case5 start offset c text hblank lexeme hread behind ih =>
    have hwidth := Lexeme.width_bounds hread
    refine List.pairwise_cons.2 ⟨fun t ht => ?_, ih⟩
    have hbounds := mem_tokens_readFrom ht
    simp only [behind]
    omega

/-- Every token has a place of its own. -/
theorem nodup_tokens_readFrom (start offset skip : Nat) (text : List Char) :
    (readFrom start offset skip text).tokens.Nodup := by
  refine (pairwise_tokens_readFrom start offset skip text).imp_of_mem fun {t u} ht _ hle => ?_
  rintro rfl
  have hbounds := mem_tokens_readFrom ht
  omega

end TokenStream

theorem bounds_of_tokenize {text : String} {ts : List Token} (h : tokenize text = .ok ts) {t : Token} (ht : t ∈ ts) :
    t.position < t.stop ∧ t.stop ≤ text.length := by
  rw [← tokens_of_tokenize h] at ht
  have hbounds := TokenStream.mem_tokens_readFrom ht
  rw [String.length_toList, Nat.zero_add 0, Nat.zero_add] at hbounds
  exact hbounds.2

/-- Wherever reading began, the text is the tokens `ts` if `rest` comes behind it and its first character has the given
offset. -/
def Covers (offset : Nat) (text rest : List Char) (ts : List Token) : Prop :=
  ∀ start, ∃ start', (TokenStream.readFrom start offset 0 (text ++ rest)).Passes ts
    (.readFrom start' (offset + text.length) 0 rest)

theorem Spells.covers {text rest : List Char} {kind : TokenKind} {content : String} (h : Spells text rest kind content)
    (offset : Nat) : Covers offset text rest [⟨kind, content, offset, offset + text.length⟩] :=
  fun start => ⟨_, h.passes start offset⟩

theorem covers_nil (offset : Nat) (rest : List Char) : Covers offset [] rest [] :=
  fun start => ⟨start, .nil _⟩

/-- A blank is no token. -/
theorem covers_blank (offset : Nat) {c : Char} (hc : isBlank c) (rest : List Char) : Covers offset [c] rest [] := by
  intro start
  rw [List.singleton_append, TokenStream.readFrom, if_pos hc]
  exact ⟨start, .nil _⟩

/-- A text that is well formed by itself covers its own tokens before a delimiter, wherever it stands. -/
theorem covers_of_tokenize {text : String} {ts : List Token} (h : tokenize text = .ok ts) (offset : Nat)
    {rest : List Char} (hrest : Delimited rest) :
    Covers offset text.toList rest (ts.map (Relocation.shift offset).token) := by
  intro start
  obtain ⟨last, position, hpass⟩ := tokenize_eq_ok_iff.1 h
  -- read at its place, the text has the same tokens and the same end, moved by the offset
  have hmoved := TokenStream.relocated_shift start offset text.toList
  have htokens := hmoved.tokens_eq
  have hreason := hmoved.reason_eq
  rw [hpass.reason_eq] at hreason
  rw [← tokens_of_tokenize h, ← htokens]
  exact TokenStream.readFrom_append (Nat.zero_le _) hreason hrest

/-- At the head of a text its tokens stay where they are. -/
theorem covers_of_tokenize_head {text : String} {ts : List Token} (h : tokenize text = .ok ts) {rest : List Char}
    (hrest : Delimited rest) : Covers 0 text.toList rest ts := by
  have hidentity : ts.map (Relocation.shift 0).token = ts :=
    (List.map_congr_left fun t _ => Relocation.identity_token t).trans (List.map_id ts)
  have hcovers := covers_of_tokenize h 0 hrest
  rwa [hidentity] at hcovers

namespace Covers

variable {offset : Nat} {text text' rest : List Char} {ts us : List Token}

theorem append (h : Covers offset text (text' ++ rest) ts) (h' : Covers (offset + text.length) text' rest us) :
    Covers offset (text ++ text') rest (ts ++ us) := by
  intro start
  obtain ⟨middle, hfirst⟩ := h start
  obtain ⟨last, hsecond⟩ := h' middle
  rw [List.append_assoc, List.length_append, ← Nat.add_assoc]
  exact ⟨last, hfirst.append hsecond⟩

/-- A text that covers tokens up to the end of the input is well formed. -/
theorem tokenize_eq {text : String} (h : Covers 0 text.toList [] ts) : tokenize text = .ok ts := by
  obtain ⟨start, hpass⟩ := h 0
  rw [List.append_nil] at hpass
  exact tokenize_eq_ok_iff.2 ⟨start, _, hpass⟩

end Covers

/-- Blanks are no tokens. -/
theorem covers_blanks (offset : Nat) {blanks : List Char} (h : ∀ c ∈ blanks, isBlank c) (rest : List Char) :
    Covers offset blanks rest [] := by
  induction blanks generalizing offset with
  | nil => exact covers_nil offset rest
  | cons c blanks ih =>
    have hfirst := covers_blank offset (h c (.head _)) (blanks ++ rest)
    have hmore := ih (offset + [c].length) fun d hd => h d (.tail _ hd)
    exact hfirst.append hmore

end DocFilter
