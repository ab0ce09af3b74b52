import DocFilter.Proofs.Grammar.Comparison
import DocFilter.Proofs.Grammar.Contents

/-!
# Layout

What a text is as an expression depends on the kinds and the texts of its tokens, and on nothing else of its layout
(`parseWith_of_contents`).  Texts whose tokens have the same contents have the same derivations, so they have the same
tree if one of them has any.  For their errors both are compared with one stream: that of either text once every
position in it has been erased.
-/

namespace DocFilter

/-- Every position becomes the same one, and strings stay as they are. -/
def Relocation.erasing : Relocation :=
  ⟨fun _ => 0, fun _ s => s⟩

/-- The error with all its positions erased, also those of the tokens and of the errors in it. -/
def ParseError.erase (e : ParseError) : ParseError :=
  Relocation.erasing.error e

/-- An erased token is its content. -/
theorem Relocation.erasing_token (t : Token) : erasing.token t = ⟨t.content.1, t.content.2, 0, 0⟩ := by
  simp [token, erasing, Token.content]

namespace TokenStream

variable {m : Relocation} {stream stream' : TokenStream}

/-- Streams whose tokens and stops become the same have a relocation in common. -/
theorem exists_relocated (htokens : stream.tokens.map m.token = stream'.tokens.map m.token)
    (hreason : m.stop stream.reason = m.stop stream'.reason) :
    ∃ common, stream.Relocated m common ∧ stream'.Relocated m common := by
  induction stream generalizing stream' with
  | token start head rest ih =>
    cases stream' with
    | token start' head' rest' =>
      obtain ⟨hhead, hrest⟩ := List.cons.inj htokens
      obtain ⟨common, h, h'⟩ := ih hrest hreason
      have hfirst := h'.token start' 0 head'
      rw [← hhead] at hfirst
      exact ⟨_, h.token start 0 head, hfirst⟩
    | stop => cases htokens
  | stop start reason =>
    cases stream' with
    | token => cases htokens
    | stop start' reason' =>
      have hlast := Relocated.stop (m := m) start' 0 reason'
      rw [← show m.stop reason = m.stop reason' from hreason] at hlast
      exact ⟨_, .stop start 0 reason, hlast⟩

/-- Well-formed texts whose tokens have the same contents become the same stream when positions are erased. -/
theorem exists_erased {text text' : String} {ts ts' : List Token} (h : tokenize text = .ok ts)
    (h' : tokenize text' = .ok ts') (hcontents : ts.map Token.content = ts'.map Token.content) :
    ∃ common, (read 0 text.toList).Relocated .erasing common ∧ (read 0 text'.toList).Relocated .erasing common := by
  obtain ⟨start, position, hpass⟩ := tokenize_eq_ok_iff.1 h
  obtain ⟨start', position', hpass'⟩ := tokenize_eq_ok_iff.1 h'
  refine exists_relocated ?_ ?_
  · have hmap (us : List Token) : us.map Relocation.erasing.token =
        (us.map Token.content).map fun c => ⟨c.1, c.2, 0, 0⟩ := by
      rw [List.map_map]
      exact List.map_congr_left fun t _ => Relocation.erasing_token t
    rw [tokens_of_tokenize h, tokens_of_tokenize h', hmap, hmap, hcontents]
  · rw [hpass.reason_eq, hpass'.reason_eq]
    rfl

end TokenStream

namespace Grammar

/-- Where the tokens of a sentence stand in the text does not matter. -/
theorem Sentence.of_contents {limits : Limits} {text text' : String} {ts ts' : List Token} {e : Expr}
    (hsentence : Sentence limits text e) (h : tokenize text = .ok ts) (h' : tokenize text' = .ok ts')
    (hcontents : ts.map Token.content = ts'.map Token.content) : Sentence limits text' e := by
  obtain ⟨us, d, w, hus, he, hd, hw⟩ := hsentence
  obtain rfl := Except.ok.inj (h.symm.trans hus)
  exact ⟨ts', d, w, h', he.of_contents hcontents.symm, hd, hw⟩

/-- Texts whose tokens agree in kinds and texts are the same expression, or they fail with errors that are equal once
all positions are erased. -/
theorem parseWith_of_contents (limits : Limits) {text text' : String} {ts ts' : List Token}
    (h : tokenize text = .ok ts) (h' : tokenize text' = .ok ts')
    (hcontents : ts.map Token.content = ts'.map Token.content) :
    (Expr.parseWith limits text).mapError ParseError.erase =
      (Expr.parseWith limits text').mapError ParseError.erase := by
  cases hparse : Expr.parseWith limits text with
  | ok e =>
    have hsame := (sentence_of_parseWith hparse).of_contents h h' hcontents
    rw [parseWith_of_sentence hsame]
  | error error =>
    cases hparse' : Expr.parseWith limits text' with
    | ok e =>
      have hsame := (sentence_of_parseWith hparse').of_contents h' h hcontents.symm
      rw [parseWith_of_sentence hsame] at hparse
      cases hparse
    | error error' =>
      -- both errors, erased, are the error of the erased stream
      obtain ⟨common, hstream, hstream'⟩ := TokenStream.exists_erased h h' hcontents
      rw [parseWith_eq_conclude] at hparse hparse'
      have hsame : Leaves (fun _ => False) limits limits (limits.maxDepth + 1) (limits.maxDepth + 1) := .inl ⟨rfl, rfl⟩
      have hchain : Leaves (fun _ => False) limits limits limits.maxChain limits.maxChain := .inl ⟨rfl, rfl⟩
      have hfollows := conclusion_follows (fun _ _ hfree _ => hfree) hstream hsame hchain
      have hfollows' := conclusion_follows (fun _ _ hfree _ => hfree) hstream' hsame hchain
      rw [hparse] at hfollows
      rw [hparse'] at hfollows'
      have herror := Except.error.inj (hfollows.eq_error.symm.trans hfollows'.eq_error)
      exact congrArg Except.error herror

/-- An operand that is missing within a group, without blanks and with them. -/
theorem parseWith_of_contents_spaced :
    (∃ ts ts', tokenize "x<=(1+*2)" = .ok ts ∧ tokenize "x <= (1 + *\t2)" = .ok ts' ∧
        ts.map Token.content = ts'.map Token.content) ∧
      Expr.parseWith .standard "x<=(1+*2)" =
        .error (.noAlternative 4 (.unexpectedToken .leftParen ⟨.times, "*", 6, 7⟩)) ∧
      (Expr.parseWith .standard "x<=(1+*2)").mapError ParseError.erase =
        (Expr.parseWith .standard "x <= (1 + *\t2)").mapError ParseError.erase :=
  ⟨⟨_, _, rfl, rfl, rfl⟩, rfl, parseWith_of_contents .standard rfl rfl rfl⟩

end Grammar
end DocFilter
