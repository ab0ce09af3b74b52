import DocFilter.Parser
import DocFilter.Proofs.Grammar.Completeness
import DocFilter.Proofs.Grammar.Soundness

/-!
# The language

A text is a sentence of the language if its tokens are derived as an expression and the limits admit the derivation.
Parsing accepts the sentences and nothing else (`parseWith_eq_ok_iff_sentence`).  Its answer is that of the rule for
expressions and of what is left behind the expression (`parseWith_eq_conclude`).
-/

namespace DocFilter
namespace Grammar

/-- The text is an expression with the tree `e` that the limits admit. -/
def Sentence (limits : Limits) (text : String) (e : Expr) : Prop :=
  ∃ ts depth width, tokenize text = .ok ts ∧ Derives (.chain .logical) ts e depth width ∧
    depth ≤ limits.maxDepth ∧ width ≤ limits.maxChain

/-- The answer to a text of which the expression `e` has been read: what is left must be the end of the input. -/
def conclude (e : Expr) : TokenStream → Except ParseError Expr
  | .stop _ (.endOfInput _) => .ok e
  | .stop _ (.malformed error) => .error (.scan error)
  | .token _ found _ => .error (.trailingInput found)

private theorem conclude_stream (e : Expr) (l : Lexer) :
    conclude e l.stream =
      match l.scan.1 with
      | .error (.endOfInput _) => .ok e
      | .error (.malformed error) => .error (.scan error)
      | .ok token => .error (.trailingInput token) := by
  rw [Lexer.stream_eq_scan]
  rcases l.scan with ⟨_ | token, next⟩
  · rename_i reason
    cases reason <;> rfl
  · rfl

/-- Parsing a text reads an expression from its stream and then looks at what is left. -/
theorem parseWith_eq_conclude (limits : Limits) (text : String) :
    Expr.parseWith limits text =
      expression limits (limits.maxDepth + 1) (.read 0 text.toList) >>= fun p => conclude p.1 p.2 := by
  have hstream : (Lexer.ofString text).stream = .read 0 text.toList := by
    rw [Lexer.stream, Lexer.ahead, Lexer.ofString, List.drop_zero]
  unfold Expr.parseWith Parser.parse Parser.run
  rw [hstream]
  cases hread : expression limits (limits.maxDepth + 1) (.read 0 text.toList) with
  | error e => rfl
  | ok p =>
    obtain ⟨e, rest⟩ := p
    obtain ⟨ts, -, -, hpass, -⟩ := expression_sound limits _ _ _ _ hread
    rw [← hstream] at hpass
    have hrest := hpass.stream_restore
    have hlast := conclude_stream e ((Lexer.ofString text).restore ⟨rest.position⟩)
    rw [hrest] at hlast
    exact hlast.symm

/-- The conclusion is a tree if the tree has been read up to the end of the input. -/
private theorem conclude_eq_ok_iff {read : Except ParseError (Expr × TokenStream)} {e : Expr} :
    read >>= (fun p => conclude p.1 p.2) = .ok e ↔
      ∃ start position, read = .ok (e, .stop start (.endOfInput position)) := by
  constructor
  · intro h
    cases read with
    | error error => cases h
    | ok p =>
      obtain ⟨e', rest⟩ := p
      replace h : conclude e' rest = .ok e := h
      unfold conclude at h
      split at h
      · obtain rfl := Except.ok.inj h
        exact ⟨_, _, rfl⟩
      · cases h
      · cases h
  · rintro ⟨start, position, h⟩
    rw [h]
    rfl

/-- What a sound rule for expressions reads to the end is a sentence. -/
theorem sentence_of_conclude {limits : Limits} {rule : Rule Expr}
    (hrule : Sound limits (limits.maxDepth + 1) (.chain .logical) rule) {text : String} {e : Expr}
    (h : rule (.read 0 text.toList) >>= (fun p => conclude p.1 p.2) = .ok e) : Sentence limits text e := by
  obtain ⟨start, position, hread⟩ := conclude_eq_ok_iff.1 h
  obtain ⟨ts, d, w, hpass, he, hd, hw⟩ := hrule _ _ _ hread
  exact ⟨ts, d, w, tokenize_eq_ok_iff.2 ⟨start, position, hpass⟩, he, Nat.lt_succ_iff.1 hd, hw⟩

theorem sentence_of_parseWith {limits : Limits} {text : String} {e : Expr} (h : Expr.parseWith limits text = .ok e) :
    Sentence limits text e := by
  rw [parseWith_eq_conclude] at h
  exact sentence_of_conclude (expression_sound limits _) h

theorem parseWith_of_sentence {limits : Limits} {text : String} {e : Expr} (h : Sentence limits text e) :
    Expr.parseWith limits text = .ok e := by
  obtain ⟨ts, d, w, htokens, he, hd, hw⟩ := h
  obtain ⟨start, position, hpass⟩ := tokenize_eq_ok_iff.1 htokens
  have hread := rule_complete limits he (limits.maxDepth + 1) _ _ hpass (Part.endsBefore_stop _ _ _)
  rw [parseWith_eq_conclude]
  exact conclude_eq_ok_iff.2 ⟨start, position, hread.1 ⟨Nat.lt_succ_of_le hd, hw⟩⟩

/-- Wider limits admit what narrower ones do. -/
theorem Sentence.mono {limits limits' : Limits} {text : String} {e : Expr} (h : Sentence limits text e)
    (hdepth : limits.maxDepth ≤ limits'.maxDepth) (hchain : limits.maxChain ≤ limits'.maxChain) :
    Sentence limits' text e := by
  obtain ⟨ts, d, w, htokens, he, hd, hw⟩ := h
  exact ⟨ts, d, w, htokens, he, Nat.le_trans hd hdepth, Nat.le_trans hw hchain⟩

/-- A text has at most one tree, whatever the limits are. -/
theorem Sentence.unique {limits limits' : Limits} {text : String} {e e' : Expr} (h : Sentence limits text e)
    (h' : Sentence limits' text e') : e = e' := by
  let wide : Limits := ⟨max limits.maxDepth limits'.maxDepth, max limits.maxChain limits'.maxChain⟩
  have hwide : Sentence wide text e := h.mono (Nat.le_max_left ..) (Nat.le_max_left ..)
  have hwide' : Sentence wide text e' := h'.mono (Nat.le_max_right ..) (Nat.le_max_right ..)
  exact Except.ok.inj ((parseWith_of_sentence hwide).symm.trans (parseWith_of_sentence hwide'))

end Grammar
end DocFilter
