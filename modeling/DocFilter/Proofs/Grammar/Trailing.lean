import DocFilter.Proofs.Grammar.Sticking
import DocFilter.Proofs.Token.Cursor
import DocFilter.Proofs.Token.Cut
import DocFilter.Proofs.Token.Seam

/-!
# Input behind an expression

That there is input behind an expression is reported exactly for what the words say (`parseWith_trailingInput`).  A text
for which it is reported is an expression up to the token that the error names, and an expression behind which comes a
token that cannot continue it is a text for which it is reported.
-/

namespace DocFilter
namespace Grammar

variable {limits : Limits} {text : String} {found : Token}

/-- No rule reports what is left behind an expression: what it reports has been read, and there is a token. -/
private theorem exists_read_of_trailingInput (h : Expr.parseWith limits text = .error (.trailingInput found)) :
    ∃ e start behind, expression limits (limits.maxDepth + 1) (.read 0 text.toList) =
      .ok (e, .token start found behind) := by
  rw [parseWith_eq_conclude] at h
  rcases bind_eq_error h with hread | ⟨⟨e, rest⟩, hread, hconclude⟩
  · cases expression_sticks limits _ hread with
    | stuck hb _ _ => cases hb
    | final _ hposition => cases hposition
  · dsimp only at hconclude
    unfold conclude at hconclude
    split at hconclude
    · cases hconclude
    · cases hconclude
    · obtain rfl := ParseError.trailingInput.inj (Except.error.inj hconclude)
      exact ⟨e, _, _, hread⟩

private theorem expression_before_token (h : Expr.parseWith limits text = .error (.trailingInput found)) :
    (∃ e, Expr.parseWith limits (String.ofList (text.toList.take found.position)) = .ok e) ∧
      ∃ next, Lexer.scan ⟨text.toList, found.position⟩ = (.ok found, next) := by
  obtain ⟨e, start, behind, hread⟩ := exists_read_of_trailingInput h
  obtain ⟨ts, d, w, hpass, he, hd, hw⟩ := expression_sound limits _ _ _ _ hread
  obtain ⟨before, rest, c, lexeme, htext, -, hc, hlexeme, rfl, last, hbefore⟩ :=
    TokenStream.exists_cut (Nat.zero_le _) hpass
  rw [htext, Nat.zero_add, List.take_left]
  constructor
  · have htokens : tokenize (String.ofList before) = .ok ts := by
      refine tokenize_eq_ok_iff.2 ⟨last, 0 + before.length, ?_⟩
      rw [String.toList_ofList]
      exact hbefore
    exact ⟨e, parseWith_of_sentence ⟨ts, d, w, htokens, he, Nat.le_of_lt_succ hd, hw⟩⟩
  · have hahead : Lexer.ahead ⟨before ++ c :: rest, before.length⟩ = [] ++ c :: rest := List.drop_left
    exact ⟨_, Lexer.scan_of_read_ok (List.forall_mem_nil _) hc hahead hlexeme⟩

/-- The stream of a text behind an expression and a blank begins with the token with which that text begins. -/
private theorem exists_passes_append {more : String} {ts : List Token} {next : Lexer}
    (htext : tokenize text = .ok ts) (hmore : (Lexer.ofString more).scan = (.ok found, next)) :
    ∃ start behind, (TokenStream.read 0 (text ++ " " ++ more).toList).Passes ts
      (.token start ((Relocation.shift (text.length + 1)).token found) behind) := by
  have hcovers := (covers_of_tokenize_head htext (.cons (by decide) more.toList)).append
    (covers_blank (0 + text.toList.length) (by decide : isBlank ' ') more.toList)
  obtain ⟨last, hpass⟩ := hcovers 0
  rw [Nat.zero_add, List.length_append, String.length_toList, List.length_singleton] at hpass
  have hmoved := TokenStream.relocated_shift last (text.length + 1) more.toList
  have hfirst : TokenStream.read 0 more.toList = .token 0 found next.stream := by
    have hstream := (Lexer.ofString more).stream_eq_scan
    rw [hmore] at hstream
    exact hstream
  rw [hfirst] at hmoved
  generalize TokenStream.readFrom last (text.length + 1) 0 more.toList = rest at hpass hmoved
  cases hmoved with
  | token start start' head hrest =>
    rw [List.append_nil] at hpass
    have hwhole : (text ++ " " ++ more).toList = text.toList ++ [' '] ++ more.toList := by
      rw [String.toList_append, String.toList_append]
      rfl
    rw [hwhole]
    exact ⟨start', _, hpass⟩

/-- A token that cannot continue an expression is reported as input behind it. -/
private theorem trailingInput_of_passes {ts : List Token} {e : Expr} {d w start : Nat} {t : Token}
    {behind : TokenStream} (he : Derives (.chain .logical) ts e d w) (hd : d ≤ limits.maxDepth)
    (hw : w ≤ limits.maxChain) (hpass : (TokenStream.read 0 text.toList).Passes ts (.token start t behind))
    (hdot : t.kind ≠ .dot) (hoperator : ∀ level : Level, level.operator? t.kind = none) :
    Expr.parseWith limits text = .error (.trailingInput t) := by
  have hends : (Part.chain .logical).EndsBefore (.token start t behind) := by
    intro k hk
    obtain rfl := Option.some.inj hk
    simp [Part.continuesWith, hdot, hoperator]
  have hread : expression limits (limits.maxDepth + 1) (.read 0 text.toList) = .ok (e, .token start t behind) :=
    (rule_complete limits he (limits.maxDepth + 1) _ _ hpass hends).1 ⟨Nat.lt_succ_of_le hd, hw⟩
  rw [parseWith_eq_conclude, hread]
  rfl

/-- If there is input behind an expression, the error names the first token there, and the text in front of this token
is an expression under the same limits.  And where a text begins with a token that is neither a dot nor an operator,
it is input behind every expression that is put in front of it. -/
theorem parseWith_trailingInput (limits : Limits) (text : String) :
    (∀ found, Expr.parseWith limits text = .error (.trailingInput found) →
      (∃ e, Expr.parseWith limits (String.ofList (text.toList.take found.position)) = .ok e) ∧
        ∃ next, Lexer.scan ⟨text.toList, found.position⟩ = (.ok found, next)) ∧
    ∀ e more found next, Expr.parseWith limits text = .ok e → (Lexer.ofString more).scan = (.ok found, next) →
      found.kind ≠ .dot → (∀ level : Level, level.operator? found.kind = none) →
      Expr.parseWith limits (text ++ " " ++ more) = .error (.trailingInput
        { found with position := found.position + (text.length + 1), stop := found.stop + (text.length + 1) }) := by
  refine ⟨fun found h => expression_before_token h, fun e more found next h hmore hdot hoperator => ?_⟩
  obtain ⟨ts, d, w, htokens, he, hd, hw⟩ := sentence_of_parseWith h
  obtain ⟨start, behind, hpass⟩ := exists_passes_append htokens hmore
  have htoken : (Relocation.shift (text.length + 1)).token found =
      { found with position := found.position + (text.length + 1), stop := found.stop + (text.length + 1) } := by
    simp only [Relocation.token, Relocation.shift, ite_self]
  rw [htoken] at hpass
  exact trailingInput_of_passes he hd hw hpass hdot hoperator

/-- Input that stands directly behind a number, and a text that is put behind an expression. -/
theorem parseWith_trailingInput_word :
    let found : Token := ⟨.identifier, "x", 7, 8⟩
    let more : Token := ⟨.leftParen, "(", 1, 2⟩
    Expr.parseWith .standard "a < 0b1x" = .error (.trailingInput found) ∧
      (∃ e, Expr.parseWith .standard "a < 0b1" = .ok e) ∧
      (Lexer.ofString " (b").scan = (.ok more, ⟨" (b".toList, 2⟩) ∧
      Expr.parseWith .standard ("a < 0b1" ++ " " ++ " (b") = .error (.trailingInput ⟨.leftParen, "(", 9, 10⟩) := by
  intro found more
  have herror : Expr.parseWith .standard "a < 0b1x" = .error (.trailingInput found) := rfl
  have hcut : String.ofList ("a < 0b1x".toList.take found.position) = "a < 0b1" := rfl
  obtain ⟨e, he⟩ := ((parseWith_trailingInput .standard "a < 0b1x").1 found herror).1
  rw [hcut] at he
  have hmore : (Lexer.ofString " (b").scan = (.ok more, ⟨" (b".toList, 2⟩) := rfl
  have hbehind := (parseWith_trailingInput .standard "a < 0b1").2 e " (b" more _ he hmore (by decide)
    fun level => by cases level <;> rfl
  exact ⟨herror, ⟨e, he⟩, hmore, hbehind⟩

end Grammar
end DocFilter
