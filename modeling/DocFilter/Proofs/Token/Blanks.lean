import DocFilter.Proofs.Grammar.Contents
import DocFilter.Proofs.Token.Lexicon
import DocFilter.Proofs.Token.Malformed

/-!
# Texts with blanks between them

No lexeme goes on over a blank.  So a well-formed text has the same tokens when blanks and another text come behind it,
and the other text is read as it is by itself, its tokens and its errors that much further back
(`tokenize_append_gap`).  Lexemes with blanks between them are read as these lexemes (`Spaced.tokenize_eq`).
-/

namespace DocFilter

/-- One or more spaces and tabs. -/
structure IsGap (gap : String) : Prop where
  ne_empty : gap ≠ ""
  blank : ∀ c ∈ gap.toList, c = ' ' ∨ c = '\t'

/-- The text is lexemes with these contents, one behind the other, and a gap between any two of them. -/
inductive Spaced : List (TokenKind × String) → String → Prop where
  | nil : Spaced [] ""
  | single {span : List Char} {kind : TokenKind} {content : String} (h : IsLexeme span kind content) :
      Spaced [(kind, content)] (String.ofList span)
  | cons {span : List Char} {kind : TokenKind} {content gap text : String} {contents : List (TokenKind × String)}
      (h : IsLexeme span kind content) (hgap : IsGap gap) (hrest : Spaced contents text) :
      Spaced ((kind, content) :: contents) (String.ofList span ++ gap ++ text)

namespace IsGap

variable {gap : String} (h : IsGap gap)
include h

theorem isBlank {c : Char} (hc : c ∈ gap.toList) : isBlank c := by
  rcases h.blank c hc with rfl | rfl <;> rfl

/-- A lexeme ends before a gap. -/
theorem delimited (rest : List Char) : Delimited (gap.toList ++ rest) := by
  obtain ⟨c, cs, hgap⟩ := List.exists_cons_of_ne_nil (mt String.toList_eq_nil_iff.1 h.ne_empty)
  have hc : c = ' ' ∨ c = '\t' := h.blank c (hgap ▸ .head cs)
  rw [hgap, List.cons_append]
  refine .cons ?_ _
  rcases hc with rfl | rfl <;> decide

end IsGap

/-! ### Behind a text -/

/-- What stands behind a text that covers its tokens is read as it is by itself, but for the places. -/
theorem Covers.tokenize_append {front : List Char} {rest : String} {ts : List Token}
    (h : Covers 0 front rest.toList ts) :
    tokenize (String.ofList front ++ rest) =
      match tokenize rest with
      | .ok us => .ok (ts ++ us.map (Relocation.shift front.length).token)
      | .error e => .error (e.shift front.length) := by
  obtain ⟨start, hpass⟩ := h 0
  rw [Nat.zero_add] at hpass
  have hmoved := TokenStream.relocated_shift start front.length rest.toList
  have htokens := hpass.tokens_eq
  have hreason := hpass.reason_eq
  rw [hmoved.tokens_eq] at htokens
  rw [hmoved.reason_eq] at hreason
  unfold tokenize
  dsimp only
  rw [String.toList_append, String.toList_ofList, TokenStream.read, htokens, hreason]
  cases (TokenStream.read 0 rest.toList).reason <;> rfl

/-- Behind a gap a text is read as it is by itself, but for the places. -/
theorem tokenize_append_gap {text gap : String} {ts : List Token} (h : tokenize text = .ok ts) (hgap : IsGap gap)
    (more : String) :
    tokenize (text ++ gap ++ more) =
      match tokenize more with
      | .ok us => .ok (ts ++ us.map (Relocation.shift (text.length + gap.length)).token)
      | .error e => .error (e.shift (text.length + gap.length)) := by
  have hfirst := covers_of_tokenize_head h (hgap.delimited more.toList)
  have hblanks := covers_blanks (0 + text.toList.length) (fun _ => hgap.isBlank) more.toList
  have hboth := (hfirst.append hblanks).tokenize_append
  rwa [List.append_nil, List.length_append, String.length_toList, String.length_toList, String.ofList_append,
    String.ofList_toList, String.ofList_toList] at hboth

/-! ### Lexemes -/

private theorem Lexeme.isBlank_of_read {c : Char} {rest : List Char} {lexeme : Lexeme} (h : read c rest = .ok lexeme) :
    isBlank c = false := by
  by_contra hblank
  have hc : c = ' ' ∨ c = '\t' := by
    simp only [isBlank, Bool.not_eq_false, Bool.or_eq_true, decide_eq_true_eq] at hblank
    exact hblank
  have hnone : readOperator? c rest = none := by
    rcases hc with rfl | rfl <;> cases rest <;> simp [readOperator?, doubleKind?, singleKind?]
  have hother : c ≠ '\'' ∧ c.isAlpha = false ∧ c.isDigit = false := by
    rcases hc with rfl | rfl <;> decide
  obtain ⟨hquote, halpha, hdigit⟩ := hother
  rw [read, if_neg hquote, halpha, hdigit, hnone] at h
  cases h

namespace IsLexeme

variable {span : List Char} {kind : TokenKind} {content : String}

/-- A lexeme by itself is one token. -/
theorem tokenize_eq (h : IsLexeme span kind content) :
    tokenize (String.ofList span) = .ok [⟨kind, content, 0, span.length⟩] := by
  obtain ⟨c, cs, rfl⟩ := List.exists_cons_of_ne_nil h.ne_nil
  have hread := iff_read_eq.1 h
  have hspells : Spells (c :: cs) [] kind content := by
    refine ⟨c, cs, rfl, Lexeme.isBlank_of_read hread, ?_⟩
    rw [List.append_nil, hread]
    rfl
  have hcovers := hspells.covers 0
  rw [Nat.zero_add, ← String.toList_ofList (l := c :: cs), String.toList_ofList] at hcovers
  exact Covers.tokenize_eq (by rwa [String.toList_ofList])

end IsLexeme

/-- Lexemes with gaps between them are tokens with their contents. -/
theorem Spaced.tokenize_eq {contents : List (TokenKind × String)} {text : String} (h : Spaced contents text) :
    ∃ ts, tokenize text = .ok ts ∧ ts.map Token.content = contents := by
  induction h with
  | nil => exact ⟨[], rfl, rfl⟩
  | single h => exact ⟨_, h.tokenize_eq, rfl⟩
  | @cons span kind content gap text contents h hgap _ ih =>
    obtain ⟨us, hus, hcontents⟩ := ih
    have hwhole := tokenize_append_gap h.tokenize_eq hgap text
    rw [hus] at hwhole
    refine ⟨_, hwhole, ?_⟩
    rw [List.map_append, Relocation.contents_shift, hcontents]
    rfl

/-- A gap separates what stands on its sides, and does nothing else.  Behind a well-formed text and a gap come the
tokens or the error of the other text, further back by the length of both.  And lexemes with gaps between them are
tokens of their kinds and texts. -/
theorem tokenize_gaps :
    (∀ text gap more ts, tokenize text = .ok ts → IsGap gap →
      (∀ us, tokenize more = .ok us → tokenize (text ++ gap ++ more) = .ok (ts ++ us.map fun t =>
        { t with position := t.position + (text.length + gap.length), stop := t.stop + (text.length + gap.length) })) ∧
      ∀ e, tokenize more = .error e → tokenize (text ++ gap ++ more) =
        .error { e with position := e.position + (text.length + gap.length) }) ∧
    ∀ contents text, Spaced contents text → ∃ ts, tokenize text = .ok ts ∧ ts.map Token.content = contents := by
  refine ⟨fun text gap more ts htext hgap => ?_, fun contents text h => h.tokenize_eq⟩
  have hwhole := tokenize_append_gap htext hgap more
  constructor
  · intro us hus
    rw [hus] at hwhole
    have hmoved : us.map (Relocation.shift (text.length + gap.length)).token = us.map fun t =>
        { t with position := t.position + (text.length + gap.length), stop := t.stop + (text.length + gap.length) } :=
      List.map_congr_left fun t _ => Relocation.token_shift _ t
    rw [← hmoved]
    exact hwhole
  · intro e he
    rwa [he] at hwhole

/-- Operators that would be others without the gap, a string with a blank in it, and a string that is left open. -/
theorem tokenize_gaps_operators :
    let left : List Token := [⟨.identifier, "a", 0, 1⟩, ⟨.greater, ">", 1, 2⟩]
    let right : List Token := [⟨.unknown, "=", 0, 1⟩, ⟨.string, "b c", 1, 6⟩]
    tokenize "a>" = .ok left ∧ IsGap " \t" ∧ tokenize "='b c'" = .ok right ∧
      tokenize ("a>" ++ " \t" ++ "='b c'") = .ok (left ++ [⟨.unknown, "=", 4, 5⟩, ⟨.string, "b c", 5, 10⟩]) ∧
      tokenize "1 'b" = .error ⟨.unterminatedString, 2⟩ ∧
      tokenize ("a>" ++ " \t" ++ "1 'b") = .error ⟨.unterminatedString, 6⟩ ∧
      Spaced [(.greater, ">"), (.unknown, "=")] "> \t=" ∧
      ∃ ts, tokenize "> \t=" = .ok ts ∧ ts.map Token.content = [(.greater, ">"), (.unknown, "=")] := by
  intro left right
  have hleft : tokenize "a>" = .ok left := rfl
  have hright : tokenize "='b c'" = .ok right := rfl
  have hopen : tokenize "1 'b" = .error ⟨.unterminatedString, 2⟩ := rfl
  have hgap : IsGap " \t" := ⟨by decide, by simp⟩
  have hspaced : Spaced [(.greater, ">"), (.unknown, "=")] "> \t=" := by
    have hgreater : IsLexeme ['>'] .greater ">" := .operator (by decide)
    have hunknown : IsLexeme ['='] .unknown "=" := .operator (by decide)
    exact .cons hgreater hgap (.single hunknown)
  have htokens := (tokenize_gaps.1 _ _ _ left hleft hgap).1 right hright
  have herror := (tokenize_gaps.1 _ _ _ left hleft hgap).2 _ hopen
  exact ⟨hleft, hgap, hright, htokens, hopen, herror, hspaced, tokenize_gaps.2 _ _ hspaced⟩

end DocFilter
