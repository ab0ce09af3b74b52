import DocFilter.Proofs.Token.Cursor
import DocFilter.Proofs.Token.Lexicon

/-!
# String literals

What a lexer takes from a text that goes on with a quote.  If the text behind the quote denotes a string up to another
quote, then the string is the next token and the lexer goes on right behind that quote (`Lexer.scan_closed`).  If a
backslash comes first that escapes nothing, the error is at the backslash (`Lexer.scan_invalidEscape`); if the text ends
first, it is at the opening quote (`Lexer.scan_unterminated`).  No text is anything else, and no token is a string token
otherwise (`Lexer.scan_quoted`).
-/

namespace DocFilter.Lexer

variable {l next : Lexer} {blanks text : List Char}

section

variable {body content : List Char} (hblanks : ∀ b ∈ blanks, isBlank b) (hahead : l.ahead = blanks ++ '\'' :: text)
  (hbody : Denotes body content)
include hblanks hahead hbody

theorem scan_closed {rest : List Char} (htext : text = body ++ '\'' :: rest) :
    l.scan = (.ok ⟨.string, String.ofList content, l.position + blanks.length,
        l.position + blanks.length + body.length + 2⟩,
      { l with position := l.position + blanks.length + body.length + 2 }) := by
  subst htext
  exact scan_of_read_ok hblanks (by decide) hahead (Lexeme.read_closed hbody rest)

theorem scan_invalidEscape {e : Char} {rest : List Char} (htext : text = body ++ '\\' :: e :: rest)
    (he : ∀ c, (e, c) ∉ escapes) :
    l.scan.1 = .error (.malformed ⟨.invalidEscape e, l.position + blanks.length + 1 + body.length⟩) := by
  subst htext
  rw [scan_of_read_error hblanks (by decide) hahead (Lexeme.read_invalidEscape hbody he rest), LexError.shift]
  congr 3
  dsimp only
  omega

theorem scan_unterminated (htext : text = body ∨ text = body ++ ['\\']) :
    l.scan.1 = .error (.malformed ⟨.unterminatedString, l.position + blanks.length⟩) := by
  have hend : ∃ rest, text = body ++ rest ∧ (rest = [] ∨ rest = ['\\']) := by
    rcases htext with rfl | rfl
    · exact ⟨[], (List.append_nil _).symm, .inl rfl⟩
    · exact ⟨['\\'], rfl, .inr rfl⟩
  obtain ⟨rest, rfl, hrest⟩ := hend
  rw [scan_of_read_error hblanks (by decide) hahead (Lexeme.read_unterminated hbody hrest), LexError.shift, Nat.zero_add]

end

/-- A string token is read from a text between quotes that denotes the string. -/
theorem exists_denotes_of_scan {t : Token} (h : l.scan = (.ok t, next)) (hkind : t.kind = .string) :
    ∃ blanks body rest, (∀ b ∈ blanks, isBlank b) ∧ l.ahead = blanks ++ '\'' :: (body ++ '\'' :: rest) ∧
      Denotes body t.text.toList ∧ t.position = l.position + blanks.length ∧
      next.position = l.position + blanks.length + body.length + 2 := by
  have hstop : next.position = t.stop := (scan_token_bounds h).1
  obtain ⟨blanks, c, text, lexeme, hblanks, -, hahead, hread, rfl, -⟩ := exists_read_of_scan h
  obtain ⟨span, more, hsplit, hwidth, hspan⟩ := Lexeme.exists_isLexeme_of_read hread
  obtain ⟨body, rfl, hbody⟩ := hspan.exists_denotes hkind
  refine ⟨blanks, body, more, hblanks, ?_, hbody, rfl, ?_⟩
  · rw [hahead, hsplit]
    simp
  · rw [hstop, ← hwidth]
    simp [Nat.add_assoc]

/-- A lexer reads as a string exactly what is written as one.  Where the next character that is no blank is a quote:
if the text behind it denotes a string up to another quote, then this string is the token, and the lexer goes on right
behind that quote; if there comes a backslash first that escapes nothing, then the error names the place of the
backslash; if the text ends first, or right after a backslash, then it names the place of the quote; and it is always one
of these.  And a string token is never read from anything but a text between quotes that denotes the string. -/
theorem scan_quoted (l : Lexer) :
    (∀ blanks text, (∀ b ∈ blanks, isBlank b) → l.ahead = blanks ++ '\'' :: text →
      let start := l.position + blanks.length
      (∀ body rest (s : String), Denotes body s.toList → text = body ++ '\'' :: rest →
        l.scan = (.ok ⟨.string, s, start, start + body.length + 2⟩,
          { l with position := start + body.length + 2 })) ∧
      (∀ body content e rest, Denotes body content → text = body ++ '\\' :: e :: rest → (∀ c, (e, c) ∉ escapes) →
        l.scan.1 = .error (.malformed ⟨.invalidEscape e, start + 1 + body.length⟩)) ∧
      (∀ body content, Denotes body content → text = body ∨ text = body ++ ['\\'] →
        l.scan.1 = .error (.malformed ⟨.unterminatedString, start⟩)) ∧
      ∃ body content, Denotes body content ∧
        ((∃ rest, text = body ++ '\'' :: rest) ∨
          (∃ e rest, text = body ++ '\\' :: e :: rest ∧ ∀ c, (e, c) ∉ escapes) ∨
          text = body ∨ text = body ++ ['\\'])) ∧
    ∀ t next, l.scan = (.ok t, next) → t.kind = .string →
      ∃ blanks body rest, (∀ b ∈ blanks, isBlank b) ∧ l.ahead = blanks ++ '\'' :: (body ++ '\'' :: rest) ∧
        Denotes body t.text.toList ∧ t.position = l.position + blanks.length ∧
        next.position = l.position + blanks.length + body.length + 2 := by
  refine ⟨fun blanks text hblanks hahead => ⟨?_, ?_, ?_, ?_⟩, fun t next h hkind => exists_denotes_of_scan h hkind⟩
  · intro body rest s hbody htext
    have hscan := scan_closed hblanks hahead hbody htext
    rwa [String.ofList_toList] at hscan
  · intro body content e rest hbody htext he
    exact scan_invalidEscape hblanks hahead hbody htext he
  · intro body content hbody htext
    exact scan_unterminated hblanks hahead hbody htext
  · obtain ⟨body, content, rest, hbody, rfl, hend⟩ := exists_denotes text
    refine ⟨body, content, hbody, ?_⟩
    rcases hend with ⟨more, rfl⟩ | ⟨e, more, rfl, he⟩ | rfl | rfl
    · exact .inl ⟨more, rfl⟩
    · exact .inr (.inl ⟨e, more, rfl, he⟩)
    · exact .inr (.inr (.inl (List.append_nil body)))
    · exact .inr (.inr (.inr rfl))

/-- A character that stands for itself next to escapes, one of them a quote. -/
theorem scan_quoted_mixed :
    (ofString " 'a\\'\n\\n' b").scan = (.ok ⟨.string, "a'\n\n", 1, 9⟩, ⟨" 'a\\'\n\\n' b".toList, 9⟩) := by
  have hbody : Denotes ['a', '\\', '\'', '\n', '\\', 'n'] "a'\n\n".toList :=
    .raw (by decide) (by decide) (.escaped (by decide) (.raw (by decide) (by decide) (.escaped (by decide) .nil)))
  have hblanks : ∀ b ∈ [' '], isBlank b := List.all_eq_true.1 (by decide)
  exact ((scan_quoted (ofString " 'a\\'\n\\n' b")).1 [' '] _ hblanks rfl).1 _ [' ', 'b'] _ hbody rfl

end DocFilter.Lexer
