import DocFilter.Proofs.Success
import DocFilter.Token.Lexeme

/-!
# Quoted strings

What stands between two quotes denotes a string: every character stands for itself or is written with a backslash
(`Denotes`).  A reader that has passed a text which denotes something goes on behind it (`Denotes.readQuoted_append`),
and what can come there is the closing quote, a backslash that escapes nothing, or the end of the input
(`exists_denotes`).  So a lexer accepts exactly these texts (`Lexer.scan_quoted`).
-/

namespace DocFilter

/-- The letters that may stand behind a backslash inside a string, with the characters that they give. -/
def escapes : List (Char × Char) :=
  [('\'', '\''), ('t', '\t'), ('n', '\n'), ('r', '\r'), ('\\', '\\'), ('0', '\x00')]

/-- Between quotes, the text denotes the characters of a string: any character but a quote and a backslash stands for
itself, and every character for which there is an escape may be written as that. -/
inductive Denotes : List Char → List Char → Prop where
  | nil : Denotes [] []
  | raw {c : Char} {body content : List Char} (hquote : c ≠ '\'') (hbackslash : c ≠ '\\')
    (h : Denotes body content) : Denotes (c :: body) (c :: content)
  | escaped {e c : Char} {body content : List Char} (he : (e, c) ∈ escapes) (h : Denotes body content) :
    Denotes ('\\' :: e :: body) (c :: content)

theorem unescape?_eq_some_iff {e c : Char} : unescape? e = some c ↔ (e, c) ∈ escapes := by
  unfold unescape?
  split <;> simp_all [escapes, eq_comm]

theorem unescape?_eq_none_iff {e : Char} : unescape? e = none ↔ ∀ c, (e, c) ∉ escapes := by
  simp only [Option.eq_none_iff_forall_ne_some, ne_eq, unescape?_eq_some_iff]

namespace Lexeme

private theorem readQuoted_raw {c : Char} (hquote : c ≠ '\'') (hbackslash : c ≠ '\\') (offset : Nat) (rest : List Char) :
    readQuoted offset (c :: rest) = (readQuoted (offset + 1) rest).map fun (cs, stop) => (c :: cs, stop) := by
  rw [readQuoted]
  · exact hquote
  · exact fun h _ => hbackslash h
  · exact fun _ _ h _ => hbackslash h

private theorem readQuoted_escaped {e c : Char} (he : (e, c) ∈ escapes) (offset : Nat) (rest : List Char) :
    readQuoted offset ('\\' :: e :: rest) = (readQuoted (offset + 2) rest).map fun (cs, stop) => (c :: cs, stop) := by
  rw [readQuoted, unescape?_eq_some_iff.2 he]

end Lexeme

open Lexeme

/-- What a text denotes comes before what is read behind it. -/
theorem Denotes.readQuoted_append {body content : List Char} (h : Denotes body content) (offset : Nat)
    (rest : List Char) :
    readQuoted offset (body ++ rest) =
      (readQuoted (offset + body.length) rest).map fun (cs, stop) => (content ++ cs, stop) := by
  induction h generalizing offset with
  | nil => cases h : readQuoted offset rest <;> simp [h, Except.map]
  | @raw c body content hquote hbackslash _ ih =>
    rw [List.cons_append, readQuoted_raw hquote hbackslash, ih, List.length_cons, Nat.add_assoc, Nat.add_comm 1]
    cases readQuoted (offset + (body.length + 1)) rest <;> rfl
  | @escaped e c body content he _ ih =>
    rw [List.cons_append, List.cons_append, readQuoted_escaped he, ih, List.length_cons, List.length_cons,
      Nat.add_assoc, Nat.add_comm 2]
    cases readQuoted (offset + (body.length + 2)) rest <;> rfl

/-- A text denotes something up to a place where nothing goes on: a quote, a backslash in front of a character that
makes no escape, or the end, which may come right after a backslash. -/
theorem exists_denotes (text : List Char) :
    ∃ body content rest, Denotes body content ∧ text = body ++ rest ∧
      ((∃ more, rest = '\'' :: more) ∨ (∃ e more, rest = '\\' :: e :: more ∧ ∀ c, (e, c) ∉ escapes) ∨
        rest = [] ∨ rest = ['\\']) := by
  fun_induction readQuoted 0 text with
  | case1 => exact ⟨[], [], [], .nil, rfl, .inr (.inr (.inl rfl))⟩
  | case2 offset rest => exact ⟨[], [], _, .nil, rfl, .inl ⟨rest, rfl⟩⟩
  | case3 => exact ⟨[], [], _, .nil, rfl, .inr (.inr (.inr rfl))⟩
  | case4 offset e rest he =>
    exact ⟨[], [], _, .nil, rfl, .inr (.inl ⟨e, rest, rfl, unescape?_eq_none_iff.1 he⟩)⟩
  | case5 offset e rest c hc ih =>
    obtain ⟨body, content, behind, hbody, rfl, hend⟩ := ih
    exact ⟨_, _, behind, .escaped (unescape?_eq_some_iff.1 hc) hbody, rfl, hend⟩
  | case6 offset c rest hquote hlast hescape ih =>
    obtain ⟨body, content, behind, hbody, rfl, hend⟩ := ih
    have hbackslash : c ≠ '\\' := by
      rintro rfl
      cases hrest : body ++ behind with
      | nil => exact hlast rfl hrest
      | cons e more => exact hescape e more rfl hrest
    exact ⟨_, _, behind, .raw hquote hbackslash hbody, rfl, hend⟩

/-! ### Lexemes -/

namespace Lexeme

variable {body content : List Char} (h : Denotes body content)
include h

theorem read_closed (rest : List Char) :
    read '\'' (body ++ '\'' :: rest) = .ok ⟨.string, String.ofList content, body.length + 2⟩ := by
  rw [read, if_pos rfl, h.readQuoted_append, readQuoted]
  simp only [Except.map, List.append_nil]
  congr 2
  omega

theorem read_invalidEscape {e : Char} (he : ∀ c, (e, c) ∉ escapes) (rest : List Char) :
    read '\'' (body ++ '\\' :: e :: rest) = .error ⟨.invalidEscape e, body.length + 1⟩ := by
  rw [read, if_pos rfl, h.readQuoted_append, readQuoted, unescape?_eq_none_iff.2 he, Nat.add_comm 1]
  rfl

theorem read_unterminated {rest : List Char} (hrest : rest = [] ∨ rest = ['\\']) :
    read '\'' (body ++ rest) = .error ⟨.unterminatedString, 0⟩ := by
  rw [read, if_pos rfl, h.readQuoted_append]
  rcases hrest with rfl | rfl
  · rfl
  · rfl

omit h in
/-- Behind a quote a string is read only if it is closed, as what stands between the quotes. -/
theorem exists_denotes_of_read {text : List Char} {lexeme : Lexeme} (h : read '\'' text = .ok lexeme) :
    ∃ body content rest, Denotes body content ∧ text = body ++ '\'' :: rest ∧
      lexeme = ⟨.string, String.ofList content, body.length + 2⟩ := by
  obtain ⟨body, content, rest, hbody, rfl, hend⟩ := exists_denotes text
  rcases hend with ⟨more, rfl⟩ | ⟨e, more, rfl, he⟩ | hend
  · rw [read_closed hbody] at h
    exact ⟨body, content, more, hbody, rfl, (Except.ok.inj h).symm⟩
  · rw [read_invalidEscape hbody he] at h
    cases h
  · rw [read_unterminated hbody hend] at h
    cases h

/-! ### Longer and shorter texts -/

omit h in
/-- How a string is read does not depend on what comes behind the text, unless the string is still open there. -/
theorem read_quote_append {text : List Char} (h : read '\'' text ≠ .error ⟨.unterminatedString, 0⟩)
    (rest : List Char) : read '\'' (text ++ rest) = read '\'' text := by
  obtain ⟨body, content, behind, hbody, rfl, hend⟩ := exists_denotes text
  rcases hend with ⟨more, rfl⟩ | ⟨e, more, rfl, he⟩ | hend
  · rw [List.append_assoc, List.cons_append, read_closed hbody, read_closed hbody]
  · rw [List.append_assoc, List.cons_append, List.cons_append, read_invalidEscape hbody he, read_invalidEscape hbody he]
  · exact absurd (read_unterminated hbody hend) h

omit h in
/-- A string that is closed within the text is read without what stands behind the text. -/
theorem read_quote_of_append {text rest : List Char} {lexeme : Lexeme} (h : read '\'' (text ++ rest) = .ok lexeme)
    (hwidth : lexeme.width ≤ text.length + 1) : read '\'' text = .ok lexeme := by
  obtain ⟨body, content, behind, hbody, htext, rfl⟩ := exists_denotes_of_read h
  have hclosed : body ++ ['\''] <+: text := by
    refine List.prefix_of_prefix_length_le ⟨behind, ?_⟩ (List.prefix_append text rest) ?_
    · rw [htext, List.append_assoc, List.singleton_append]
    · rw [List.length_append, List.length_singleton]
      exact Nat.le_of_succ_le_succ hwidth
  obtain ⟨more, rfl⟩ := hclosed
  rw [List.append_assoc, List.singleton_append, read_closed hbody]

end Lexeme

end DocFilter
