import DocFilter.Proofs.Grammar.Reporting
import DocFilter.Proofs.Grammar.Unfinished

/-!
# Continuations

Which texts that are no sentences become one by going on.  A text whose error is that it has ended does: an ending can
be written behind it (`exists_ending`), and if the error says so openly, no more than one `null` and closing
parentheses (`parseWith_endOfStream`).  A text with any other error, an open string apart, has this error however it
goes on.  The two cases are told apart by the error and the tokens alone (`parseWith_continuation`), but not by
`isEndOfStream`: some errors hide that the text has merely ended.
-/

namespace DocFilter

namespace Grammar

/-! ### Endings as texts -/

private theorem delimited_closing (groups : Nat) : Delimited (List.replicate groups ')') := by
  cases groups with
  | zero => exact fun _ hc => by cases hc
  | succ groups => exact .cons (by decide) _

private theorem covers_closing (groups offset : Nat) :
    ∃ us, Covers offset (List.replicate groups ')') [] us ∧
      us.map Token.kind = List.replicate groups .rightParen := by
  induction groups generalizing offset with
  | zero => exact ⟨[], covers_nil offset [], rfl⟩
  | succ groups ih =>
    obtain ⟨us, hcovers, hkinds⟩ := ih (offset + [')'].length)
    have hfirst := (spells_rightParen (List.replicate groups ')' ++ [])).covers offset
    refine ⟨_, hfirst.append hcovers, ?_⟩
    rw [List.map_append, hkinds]
    rfl

/-- An ending is spelled so that it becomes tokens of its kinds. -/
private theorem Ending.covers (x : Ending) (offset : Nat) :
    ∃ us, Covers offset x.spelling [] us ∧ us.map Token.kind = x.kinds := by
  obtain ⟨us, hcovers, hkinds⟩ := covers_closing x.groups (offset + x.lack.spelling.length)
  have hdelimited : Delimited (List.replicate x.groups ')' ++ []) := by
    rw [List.append_nil]
    exact delimited_closing x.groups
  have hlack : ∃ vs, Covers offset x.lack.spelling (List.replicate x.groups ')' ++ []) vs ∧
      vs.map Token.kind = x.lack.kinds := by
    cases x.lack with
    | nothing => exact ⟨[], covers_nil offset _, rfl⟩
    | operand => exact ⟨_, (spells_null hdelimited.not_isWordChar).covers offset, rfl⟩
    | key => exact ⟨_, (spells_word (by decide) (fun _ hc => by cases hc) hdelimited.not_isWordChar).covers offset, rfl⟩
  obtain ⟨vs, hfirst, hvs⟩ := hlack
  exact ⟨vs ++ us, hfirst.append hcovers, by rw [List.map_append, hvs, hkinds, kinds]⟩

/-! ### Texts -/

variable {limits : Limits} {text : String} {e : ParseError}

/-- Parsing a text fails because it has ended only if the tokens of the text can be finished. -/
private theorem finishes_of_parseWith (h : Expr.parseWith limits text = .error e)
    (he : Unfinished (TokenStream.read 0 text.toList).tokens e) :
    Finishes limits (limits.maxDepth + 1) (.chain .logical) (TokenStream.read 0 text.toList).tokens
      (TokenStream.read 0 text.toList).reason e := by
  rw [parseWith_eq_conclude] at h
  rcases bind_eq_error h with hread | ⟨⟨expr, rest⟩, -, hconclude⟩
  · have hnodup := TokenStream.nodup_tokens_readFrom 0 0 0 text.toList
    exact expression_finishable hnodup limits _ (List.suffix_refl _) hread he
  · -- behind an expression, the end of the text is no error
    cases rest with
    | stop start reason =>
      cases reason with
      | endOfInput p => cases hconclude
      | malformed fault =>
        obtain rfl := Except.error.inj hconclude
        cases he.isBacktrackable
    | token start found rest =>
      obtain rfl := Except.error.inj hconclude
      cases he.isBacktrackable

/-- A text whose error is that it has ended is a sentence with an ending behind it, which is delimited from the text by
blanks if need be. -/
theorem exists_ending (h : Expr.parseWith limits text = .error e)
    (he : Unfinished (TokenStream.read 0 text.toList).tokens e) :
    ∃ x : Ending, (e.isEndOfStream → x.lack ≠ .key) ∧ ∀ blanks : String, (∀ c ∈ blanks.toList, isBlank c) →
      Delimited (blanks.toList ++ x.spelling) →
      ∃ expr, Expr.parseWith limits (text ++ blanks ++ String.ofList x.spelling) = .ok expr := by
  obtain ⟨⟨p, hreason⟩, x, hlack, hfits⟩ := finishes_of_parseWith h he
  refine ⟨x, hlack, fun blanks hblanks hdelimited => ?_⟩
  have htokens : tokenize text = .ok (TokenStream.read 0 text.toList).tokens := by simp only [tokenize, hreason]
  obtain ⟨us, hending, hkinds⟩ := x.covers (0 + (text ++ blanks).toList.length)
  obtain ⟨expr, d, w, hexpr, hd, hw⟩ := hfits us hkinds
  have htext := covers_of_tokenize htokens 0 hdelimited
  have hsame : (Relocation.shift 0).token = id := funext Relocation.identity_token
  rw [hsame, List.map_id] at htext
  rw [← List.append_nil x.spelling] at htext
  have hlead := htext.append (covers_blanks _ hblanks (x.spelling ++ []))
  rw [← String.toList_append, List.append_nil (TokenStream.read 0 text.toList).tokens] at hlead
  have hwhole := hlead.append hending
  rw [← String.toList_ofList (l := x.spelling), ← String.toList_append] at hwhole
  exact ⟨expr, parseWith_of_sentence ⟨_, d, w, hwhole.tokenize_eq, hexpr, by omega, hw⟩⟩

/-- A text that fails because it has ended is reported at its end, and one operand at most and closing parentheses make
it a sentence under the same limits. -/
theorem parseWith_endOfStream {position : Nat} (h : Expr.parseWith limits text = .error (.endOfStream position)) :
    position = text.length ∧ ∃ groups expr,
      Expr.parseWith limits (text ++ String.ofList (List.replicate groups ')')) = .ok expr ∨
        Expr.parseWith limits (text ++ " null" ++ String.ofList (List.replicate groups ')')) = .ok expr := by
  constructor
  · have hreport : Reported (.read 0 text.toList) (.ofStop (.endOfInput position)) := parseWith_reported h
    have hposition := TokenStream.position_of_endOfInput hreport.reason_of_ofStop
    rwa [Nat.zero_add, String.length_toList] at hposition
  · obtain ⟨⟨lack, groups⟩, hlack, hending⟩ := exists_ending h (.stop position)
    cases lack with
    | nothing =>
      have hdelimited : Delimited ("".toList ++ Ending.spelling ⟨.nothing, groups⟩) := delimited_closing groups
      obtain ⟨expr, hexpr⟩ := hending "" (by simp) hdelimited
      rw [String.append_empty] at hexpr
      exact ⟨groups, expr, .inl hexpr⟩
    | operand =>
      obtain ⟨expr, hexpr⟩ := hending " " (by simp [isBlank]) (.cons (by decide) _)
      have hnull : " null" = " " ++ String.ofList Lack.operand.spelling := rfl
      refine ⟨groups, expr, .inr ?_⟩
      rw [hnull]
      simpa only [Ending.spelling, String.ofList_append, String.append_assoc] using hexpr
    -- an error that says openly that the text has ended leaves no key to be found
    | key => exact absurd rfl (hlack rfl)

/-- Two open groups, the inner one before its operand, at the bound of the depth. -/
theorem parseWith_endOfStream_groups :
    Expr.parseWith ⟨3, 1⟩ "!(a == (b &&" = .error (.endOfStream 12) ∧ 12 = "!(a == (b &&".length ∧
      ∃ groups expr,
        Expr.parseWith ⟨3, 1⟩ ("!(a == (b &&" ++ String.ofList (List.replicate groups ')')) = .ok expr ∨
          Expr.parseWith ⟨3, 1⟩ ("!(a == (b &&" ++ " null" ++ String.ofList (List.replicate groups ')')) =
            .ok expr := by
  have hparse : Expr.parseWith ⟨3, 1⟩ "!(a == (b &&" = .error (.endOfStream 12) := rfl
  exact ⟨hparse, parseWith_endOfStream hparse⟩

/-- A text fails with an error that neither says that the text has ended nor is about a string that is still open.  Then
the text becomes a sentence by going on behind a blank exactly if the error hides that the text has ended; otherwise it
has the same error however it goes on. -/
theorem parseWith_continuation (h : Expr.parseWith limits text = .error e) (hend : e.isEndOfStream = false)
    (hstring : ∀ p, e ≠ .scan ⟨.unterminatedString, p⟩) :
    ((∃ more expr, Expr.parseWith limits (text ++ " " ++ more) = .ok expr) ↔
        HidesEnd (TokenStream.read 0 text.toList).tokens e) ∧
      (¬HidesEnd (TokenStream.read 0 text.toList).tokens e →
        ∀ more, Expr.parseWith limits (text ++ " " ++ more) = .error e) := by
  have hdelimited (rest : List Char) : Delimited (" ".toList ++ rest) := Delimited.cons (by decide) rest
  have hpersists (hshown : ¬HidesEnd (TokenStream.read 0 text.toList).tokens e) (more : String) :
      Expr.parseWith limits (text ++ " " ++ more) = .error e := by
    have hshort : ¬StopsShort (TokenStream.read 0 text.toList).tokens e := by
      rintro ((p | hhidden) | p)
      · cases hend
      · exact hshown hhidden
      · exact hstring p rfl
    rw [String.append_assoc]
    refine parseWith_append_of_error h hshort ?_
    rw [String.toList_append]
    exact hdelimited more.toList
  refine ⟨⟨fun ⟨more, expr, hmore⟩ => ?_, fun hhidden => ?_⟩, hpersists⟩
  · by_contra hshown
    rw [hpersists hshown more] at hmore
    cases hmore
  · obtain ⟨x, -, hending⟩ := exists_ending h (.hidden hhidden)
    have hblank : ∀ c ∈ " ".toList, isBlank c := by simp [isBlank]
    obtain ⟨expr, hexpr⟩ := hending " " hblank (hdelimited x.spelling)
    exact ⟨_, expr, hexpr⟩

/-- A path that breaks off within a group. -/
theorem parseWith_continuation_path :
    Expr.parseWith .standard "(1 + a." =
        .error (.noAlternative 1 (.unexpectedToken .leftParen ⟨.identifier, "a", 5, 6⟩)) ∧
      ∃ more expr, Expr.parseWith .standard ("(1 + a." ++ " " ++ more) = .ok expr := by
  have htokens : (TokenStream.read 0 "(1 + a.".toList).tokens =
      [⟨.leftParen, "(", 0, 1⟩, ⟨.integer, "1", 1, 2⟩, ⟨.plus, "+", 3, 4⟩] ++
        [⟨.identifier, "a", 5, 6⟩, ⟨.dot, ".", 6, 7⟩] := rfl
  have hhidden := HidesEnd.alternatives 1 (.path _ htokens (.last rfl rfl))
  have hstring (p : Nat) : ParseError.noAlternative 1 (.unexpectedToken .leftParen ⟨.identifier, "a", 5, 6⟩) ≠
      .scan ⟨.unterminatedString, p⟩ := nofun
  exact ⟨rfl, (parseWith_continuation rfl rfl hstring).1.2 hhidden⟩

/-- That a text has merely ended is not always told by its error: it is not behind a dot, nor behind an operator of
arithmetic unless a group stands first. -/
theorem end_hidden_behind_dot_and_plus :
    (∃ e, Expr.parseWith .standard "a." = .error e ∧ e.isEndOfStream = false ∧
        (∀ p, e ≠ .scan ⟨.unterminatedString, p⟩) ∧
        ∃ expr, Expr.parseWith .standard ("a." ++ " " ++ "b") = .ok expr) ∧
      ∃ e, Expr.parseWith .standard "1 +" = .error e ∧ e.isEndOfStream = false ∧
        (∀ p, e ≠ .scan ⟨.unterminatedString, p⟩) ∧
        ∃ expr, Expr.parseWith .standard ("1 +" ++ " " ++ "2") = .ok expr := by
  constructor
  · refine ⟨.noAlternative 0 (.unexpectedToken .leftParen ⟨.identifier, "a", 0, 1⟩), rfl, rfl, ?_, _, rfl⟩
    exact fun p h => by cases h
  · refine ⟨.noAlternative 0 (.endOfStream 3), rfl, rfl, ?_, _, rfl⟩
    exact fun p h => by cases h

end Grammar
end DocFilter
