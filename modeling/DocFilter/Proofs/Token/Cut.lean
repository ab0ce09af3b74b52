import DocFilter.Proofs.Token.Delimiter
import DocFilter.Proofs.Token.Passage

/-!
# Texts that are cut

A lexeme is read from the characters that it takes.  Whatever stands behind them may be cut off, and no delimiter is
needed at the cut (`Lexeme.read_of_append`).  So a text that is cut in front of one of its tokens is well formed and has
the tokens before it (`TokenStream.exists_cut`).
-/

namespace DocFilter

/-- What is taken of a text does not hang on what stands behind the part in which it lies. -/
private theorem takeWhile_of_append {p : Char → Bool} {text rest : List Char}
    (h : ((text ++ rest).takeWhile p).length ≤ text.length) : (text ++ rest).takeWhile p = text.takeWhile p := by
  rw [List.takeWhile_append] at h ⊢
  split at h
  · rename_i hall
    have hmore : rest.takeWhile p = [] := by
      rw [List.length_append] at h
      exact List.eq_nil_of_length_eq_zero (by omega)
    rw [if_pos hall, hmore, List.append_nil]
    exact ((List.takeWhile_prefix p).eq_of_length hall).symm
  · rename_i hsome
    rw [if_neg hsome]

private theorem dropWhile_of_append {p : Char → Bool} {text rest : List Char}
    (h : ((text ++ rest).takeWhile p).length ≤ text.length) :
    (text ++ rest).dropWhile p = text.dropWhile p ++ rest := by
  have hwhole := List.takeWhile_append_dropWhile (p := p) (l := text ++ rest)
  rw [takeWhile_of_append h] at hwhole
  refine (List.append_right_inj (text.takeWhile p)).1 ?_
  rw [hwhole, ← List.append_assoc, List.takeWhile_append_dropWhile]

namespace Lexeme

variable {text rest : List Char}

private theorem readDecimal_of_append (h : (readNumber.readDecimal (text ++ rest)).width ≤ text.length) :
    readNumber.readDecimal (text ++ rest) = readNumber.readDecimal text := by
  have hwhole : ((text ++ rest).takeWhile Char.isDigit).length ≤ text.length :=
    Nat.le_trans (le_width_readDecimal _) h
  have hsplit := congrArg List.length (List.takeWhile_append_dropWhile (p := Char.isDigit) (l := text))
  rw [List.length_append] at hsplit
  unfold readNumber.readDecimal at h ⊢
  rw [takeWhile_of_append hwhole, dropWhile_of_append hwhole] at h ⊢
  cases hd : text.dropWhile Char.isDigit with
  | nil =>
    -- nothing of the text is left, so no point can be taken
    rw [hd] at h hsplit
    cases rest with
    | nil => rfl
    | cons c rest =>
      by_cases hc : c = '.'
      · subst hc
        simp at h hsplit
        omega
      · simp [hc]
  | cons c cs =>
    rw [hd] at h hsplit
    by_cases hc : c = '.'
    · subst hc
      simp only [List.cons_append, width_verbatim, List.length_append, List.length_cons] at h hsplit ⊢
      rw [takeWhile_of_append (by omega)]
    · simp [hc]

private theorem readNumber_of_append {c : Char} (h : (readNumber (c :: (text ++ rest))).width ≤ text.length + 1) :
    readNumber (c :: (text ++ rest)) = readNumber (c :: text) := by
  by_cases hmark : ∀ mark cs, c :: (text ++ rest) = '0' :: mark :: cs → radixOfMark? mark = none
  · have hcut : ∀ mark cs, c :: text = '0' :: mark :: cs → radixOfMark? mark = none := fun mark cs heq =>
      hmark mark (cs ++ rest) (congrArg (· ++ rest) heq)
    rw [readNumber_eq_readDecimal hmark, ← List.cons_append] at h ⊢
    rw [readNumber_eq_readDecimal hcut]
    exact readDecimal_of_append h
  · simp only [Classical.not_forall] at hmark
    obtain ⟨mark, cs, heq, hmark⟩ := hmark
    obtain ⟨radix, hradix⟩ := Option.ne_none_iff_exists'.1 hmark
    obtain ⟨rfl, hcs⟩ := List.cons.inj heq
    cases text with
    | nil =>
      -- the mark is taken, so it cannot stand behind the text
      obtain rfl : rest = mark :: cs := hcs
      simp [readNumber, hradix] at h
    | cons d text =>
      obtain ⟨rfl, rfl⟩ := List.cons.inj hcs
      simp only [List.cons_append, readNumber, hradix, width_verbatim, List.length_cons] at h ⊢
      rw [takeWhile_of_append (by omega)]

private theorem readOperator?_of_append {c : Char} {lexeme : Lexeme} (h : readOperator? c (text ++ rest) = some lexeme)
    (hwidth : lexeme.width ≤ text.length + 1) : readOperator? c text = some lexeme := by
  cases text with
  | cons d text => exact h
  | nil =>
    cases rest with
    | nil => exact h
    | cons d rest =>
      rw [List.nil_append, readOperator?] at h
      split at h
      · obtain rfl := Option.some.inj h
        simp at hwidth
      · exact h

/-- A lexeme is read from the characters that it takes, whatever stood behind them. -/
theorem read_of_append {c : Char} {lexeme : Lexeme} (h : read c (text ++ rest) = .ok lexeme)
    (hwidth : lexeme.width ≤ text.length + 1) : read c text = .ok lexeme := by
  by_cases hquote : c = '\''
  · subst hquote
    exact read_quote_of_append h hwidth
  rw [read, if_neg hquote] at h ⊢
  by_cases halpha : c.isAlpha
  · rw [if_pos halpha] at h ⊢
    obtain rfl := Except.ok.inj h
    simp only [ofWord, width_verbatim, List.length_cons] at hwidth
    rw [takeWhile_of_append (by omega)]
  rw [if_neg halpha] at h ⊢
  by_cases hdigit : c.isDigit
  · rw [if_pos hdigit] at h ⊢
    obtain rfl := Except.ok.inj h
    rw [readNumber_of_append hwidth]
  rw [if_neg hdigit] at h ⊢
  split at h
  · rename_i found hfound
    obtain rfl := Except.ok.inj h
    rw [readOperator?_of_append hfound hwidth]
  · cases h

end Lexeme

namespace TokenStream

/-- What stands before a token of a stream: a text of its own, with the tokens that are passed before the token and an
end right in front of it. -/
theorem exists_cut {start offset skip first : Nat} {text : List Char} {ts : List Token} {found : Token}
    {behind : TokenStream} (hskip : skip ≤ text.length)
    (h : (readFrom start offset skip text).Passes ts (token first found behind)) :
    ∃ (before rest : List Char) (c : Char) (lexeme : Lexeme), text = before ++ c :: rest ∧ skip ≤ before.length ∧
      isBlank c = false ∧ Lexeme.read c rest = .ok lexeme ∧
      found = ⟨lexeme.kind, lexeme.text, offset + before.length, offset + before.length + lexeme.width⟩ ∧
      ∃ last, (readFrom start offset skip before).Passes ts (stop last (.endOfInput (offset + before.length))) := by
  fun_induction readFrom start offset skip text generalizing ts with
  | case1 => cases h
  | case2 start offset skip d text ih =>
    obtain ⟨before, rest, c, lexeme, rfl, hle, hc, hread, hfound, hpass⟩ := ih (by simpa using hskip) h
    rw [Nat.add_right_comm, Nat.add_assoc] at hfound hpass
    exact ⟨d :: before, rest, c, lexeme, rfl, Nat.succ_le_succ hle, hc, hread, hfound, hpass⟩
  | case3 start offset d text hblank ih =>
    obtain ⟨before, rest, c, lexeme, rfl, -, hc, hread, hfound, hpass⟩ := ih (Nat.zero_le _) h
    rw [Nat.add_right_comm, Nat.add_assoc] at hfound hpass
    refine ⟨d :: before, rest, c, lexeme, rfl, Nat.zero_le _, hc, hread, hfound, ?_⟩
    rw [readFrom, if_pos hblank]
    exact hpass
  | case4 => cases h
  | case5 start offset d text hblank lexeme hread after =>
    rename_i ih
    have hwidth := Lexeme.width_bounds hread
    cases ts with
    | nil =>
      obtain ⟨rfl, rfl, rfl⟩ := token.inj (Passes.nil_iff.1 h)
      exact ⟨[], text, d, lexeme, rfl, Nat.zero_le _, by simpa using hblank, hread, rfl, _, .nil _⟩
    | cons t ts =>
      obtain ⟨start', next, heq, hnext⟩ := Passes.cons_iff.1 h
      obtain ⟨rfl, rfl, rfl⟩ := token.inj heq
      obtain ⟨before, rest, c, lexeme', rfl, hle, hc, hread', hfound, last, hpass⟩ := ih (by omega) hnext
      rw [Nat.add_right_comm, Nat.add_assoc] at hfound hpass
      refine ⟨d :: before, rest, c, lexeme', rfl, Nat.zero_le _, hc, hread', hfound, last, ?_⟩
      rw [readFrom, if_neg hblank, Lexeme.read_of_append hread (by omega)]
      exact .cons _ _ hpass

end TokenStream

end DocFilter
