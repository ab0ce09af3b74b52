import DocFilter.Proofs.Token.Cut
import DocFilter.Proofs.Token.Lexicon
import DocFilter.Proofs.Token.Seam

/-!
# Tokens and their text

A text that is well formed lies in its tokens but for blanks: they stand in it one behind the other
(`TokenStream.pairwise_tokens_readFrom`), and what stands in none of them is blank (`TokenStream.isBlank_of_uncovered`).
Every token is the lexeme that its characters are, and no longer lexeme begins where it does
(`Token.isExact_of_tokenize`).
-/

namespace DocFilter

/-- The characters of a text that the token covers. -/
def Token.span (t : Token) (text : List Char) : List Char :=
  (text.drop t.position).take (t.stop - t.position)

/-- The token is what the characters in its span say, and they are as many as can be taken. -/
structure Token.IsExact (text : List Char) (t : Token) : Prop where
  bounds : t.position < t.stop ∧ t.stop ≤ text.length
  isLexeme : IsLexeme (t.span text) t.kind t.text
  /-- Nothing is lost: any other token is its text, and a string is written as what denotes it. -/
  text_eq : t.kind ≠ .string → t.text.toList = t.span text
  quoted : t.kind = .string → ∃ body, t.span text = '\'' :: (body ++ ['\'']) ∧ Denotes body t.text.toList
  /-- A word is reserved exactly if it is a reserved word as a whole, and an identifier otherwise. -/
  reserved : ∀ kind word, (kind, word) ∈ reservedWords → (t.kind = kind ↔ t.span text = word.toList)
  identifier : t.kind = .identifier ↔ IsIdentifier (String.ofList (t.span text))
  /-- No character behind the token belongs to it. -/
  longest : ∀ longer kind content, longer <+: text.drop t.position → IsLexeme longer kind content →
    longer.length ≤ t.stop - t.position

namespace IsLexeme

variable {span : List Char} {kind : TokenKind} {text : String}

private theorem kind_eq_iff_reserved (h : IsLexeme span kind text) {reserved : TokenKind} {word : String}
    (hreserved : (reserved, word) ∈ reservedWords) : kind = reserved ↔ span = word.toList := by
  constructor
  · rintro rfl
    -- the kinds of reserved words are kinds of nothing else
    have hkinds : ∀ p ∈ reservedWords, p.1 ≠ .identifier ∧ p.1 ≠ .integer ∧ p.1 ≠ .decimal ∧ p.1 ≠ .string ∧
        (∀ q ∈ operators, p.1 ≠ q.1) ∧ ∀ q ∈ reservedWords, p.1 = q.1 → p.2 = q.2 := by
      decide
    obtain ⟨hidentifier, hinteger, hdecimal, hstring, hoperators, hunique⟩ := hkinds _ hreserved
    cases h with
    | reserved h =>
      obtain rfl : word = String.ofList span := hunique _ h rfl
      exact String.toList_ofList.symm
    | identifier => exact absurd rfl hidentifier
    | digits => exact absurd rfl hinteger
    | marked => exact absurd rfl hinteger
    | decimal => exact absurd rfl hdecimal
    | string => exact absurd rfl hstring
    | operator h => exact (hoperators _ h rfl).elim
  · rintro rfl
    have hword : IsLexeme word.toList reserved (String.ofList word.toList) := .reserved (by rwa [String.ofList_toList])
    exact (h.unique hword).1

private theorem kind_eq_iff_identifier (h : IsLexeme span kind text) :
    kind = .identifier ↔ IsIdentifier (String.ofList span) := by
  constructor
  · intro hkind
    cases h with
    | identifier h => exact h
    | reserved h =>
      subst hkind
      exact absurd h (by simp [reservedWords])
    | operator h =>
      subst hkind
      exact absurd h (by simp [operators])
    | digits | marked | decimal | string => cases hkind
  · intro hidentifier
    exact (h.unique (.identifier hidentifier)).1

end IsLexeme

/-- A token of a text is read where it stands, whether or not the text is well formed behind it. -/
theorem TokenStream.exists_read_of_mem {text : List Char} {t : Token} (ht : t ∈ (read 0 text).tokens) :
    ∃ c rest lexeme, text.drop t.position = c :: rest ∧ Lexeme.read c rest = .ok lexeme ∧
      t.kind = lexeme.kind ∧ t.text = lexeme.text ∧ t.stop - t.position = lexeme.width := by
  obtain ⟨start, hpass⟩ := Passes.to_stop (read 0 text)
  obtain ⟨before, behind, hsplit⟩ := List.append_of_mem ht
  rw [hsplit] at hpass
  obtain ⟨middle, hbefore, hrest⟩ := Passes.append_iff.1 hpass
  obtain ⟨first, next, rfl, -⟩ := Passes.cons_iff.1 hrest
  obtain ⟨front, rest, c, lexeme, rfl, -, -, hread, rfl, -⟩ := exists_cut (Nat.zero_le _) hbefore
  refine ⟨c, rest, lexeme, ?_, hread, rfl, rfl, Nat.add_sub_cancel_left ..⟩
  rw [Nat.zero_add, List.drop_left]

theorem Token.isExact_of_tokenize {input : String} {ts : List Token} (h : tokenize input = .ok ts) {t : Token}
    (ht : t ∈ ts) : t.IsExact input.toList := by
  have hbounds := bounds_of_tokenize h ht
  rw [← tokens_of_tokenize h] at ht
  obtain ⟨c, rest, lexeme, hdrop, hread, hkind, htext, hwidth⟩ := TokenStream.exists_read_of_mem ht
  obtain ⟨characters, more, hsplit, hlength, hlexeme⟩ := Lexeme.exists_isLexeme_of_read hread
  have hspan : t.span input.toList = characters := by
    rw [Token.span, hdrop, hsplit, hwidth, ← hlength, List.take_left]
  rw [← hkind, ← htext, ← hspan] at hlexeme
  exact {
    bounds := by rwa [String.length_toList]
    isLexeme := hlexeme
    text_eq := fun hother => by rw [hlexeme.text_eq hother, String.toList_ofList]
    quoted := hlexeme.exists_denotes
    reserved := fun kind word => hlexeme.kind_eq_iff_reserved
    identifier := hlexeme.kind_eq_iff_identifier
    longest := fun longer kind content hprefix hlonger => by
      rw [hdrop] at hprefix
      rw [hwidth]
      exact hlonger.length_le_width hprefix hread }

/-- What stands in no token of a well-formed text is blank. -/
theorem TokenStream.isBlank_of_uncovered {start offset skip position i : Nat} {text : List Char} {c : Char}
    (hend : (readFrom start offset skip text).reason = .endOfInput position) (hc : text[i]? = some c) (hskip : skip ≤ i)
    (huncovered : ∀ t ∈ (readFrom start offset skip text).tokens, ¬(t.position ≤ offset + i ∧ offset + i < t.stop)) :
    isBlank c := by
  fun_induction readFrom start offset skip text generalizing i with
  | case1 => cases hc
  | case2 start offset skip d text ih =>
    cases i with
    | zero => omega
    | succ i =>
      refine ih hend hc (Nat.le_of_succ_le_succ hskip) fun t ht => ?_
      have := huncovered t ht
      omega
  | case3 start offset d text hblank ih =>
    cases i with
    | zero =>
      obtain rfl := Option.some.inj hc
      exact hblank
    | succ i =>
      refine ih hend hc (Nat.zero_le i) fun t ht => ?_
      have := huncovered t ht
      omega
  | case4 => cases hend
  | case5 start offset d text hblank lexeme hread behind =>
    rename_i ih
    have hwidth := Lexeme.width_bounds hread
    have hhead := huncovered _ (.head _)
    simp only [behind] at hhead
    cases i with
    | zero => omega
    | succ i =>
      refine ih hend hc (by omega) fun t ht => ?_
      have := huncovered t (.tail _ ht)
      omega

/-- A well-formed text is its tokens and blanks.  Every token ends before the next one begins, each is exactly the
lexeme that the text has where it begins, and what is in no token is a space or a tab. -/
theorem tokenize_tiling {input : String} {ts : List Token} (h : tokenize input = .ok ts) :
    ts.Pairwise (fun t u => t.stop ≤ u.position) ∧ (∀ t ∈ ts, t.IsExact input.toList) ∧
      ∀ i c, input.toList[i]? = some c → (∀ t ∈ ts, ¬(t.position ≤ i ∧ i < t.stop)) → c = ' ' ∨ c = '\t' := by
  have htokens := tokens_of_tokenize h
  refine ⟨?_, fun t ht => Token.isExact_of_tokenize h ht, fun i c hc huncovered => ?_⟩
  · rw [← htokens]
    exact TokenStream.pairwise_tokens_readFrom 0 0 0 input.toList
  · obtain ⟨start, position, hpass⟩ := tokenize_eq_ok_iff.1 h
    have hblank : isBlank c := by
      refine TokenStream.isBlank_of_uncovered hpass.reason_eq hc (Nat.zero_le i) fun t ht => ?_
      rw [Nat.zero_add]
      exact huncovered t (htokens ▸ ht)
    simpa [isBlank] using hblank

/-- A word that begins with a reserved one, an operator of two characters, a point behind which no digit comes and a
string with an escape. -/
theorem tokenize_tiling_mixed :
    tokenize "trueish==1. 'a\\'b'" = .ok [⟨.identifier, "trueish", 0, 7⟩, ⟨.equal, "==", 7, 9⟩, ⟨.decimal, "1.", 9, 11⟩,
      ⟨.string, "a'b", 12, 18⟩] ∧
    ∀ t ∈ [⟨.identifier, "trueish", 0, 7⟩, ⟨.equal, "==", 7, 9⟩, ⟨.decimal, "1.", 9, 11⟩, ⟨.string, "a'b", 12, 18⟩],
      Token.IsExact "trueish==1. 'a\\'b'".toList t := by
  have htokens : tokenize "trueish==1. 'a\\'b'" = .ok [⟨.identifier, "trueish", 0, 7⟩, ⟨.equal, "==", 7, 9⟩,
    ⟨.decimal, "1.", 9, 11⟩, ⟨.string, "a'b", 12, 18⟩] := rfl
  exact ⟨htokens, (tokenize_tiling htokens).2.1⟩

end DocFilter
