import DocFilter.Proofs.Grammar.Contents
import DocFilter.Proofs.Grammar.Writing
import DocFilter.Proofs.Token.Seam

/-!
# Composition of texts

Sentences are put together as texts: in parentheses a sentence is an operand, whatever it says.  So it can stand by
itself, behind a `!` or a sign, and two sentences in parentheses with an operator between them are a sentence whose
tree is that operator over the two trees (`Sentence.binary`).  Nothing in the parts can take hold of what is put around
them (`parseWith_composed`).
-/

namespace DocFilter
namespace Grammar

variable {limits : Limits} {text text' : String} {e e' : Expr}

/-- A sentence in parentheses is an operand wherever it stands, one level deeper. -/
private theorem Sentence.covers_enclose (h : Sentence limits text e) (offset : Nat) (rest : List Char) :
    ∃ ts d w, Covers offset (Expr.enclose text).toList rest ts ∧ Derives .operand ts e (d + 1) w ∧
      d ≤ limits.maxDepth ∧ w ≤ limits.maxChain := by
  obtain ⟨ts, d, w, htokens, he, hd, hw⟩ := h
  have hclosing : Delimited ([')'] ++ rest) := .cons (by decide) rest
  have hopen := (spells_leftParen (text.toList ++ ([')'] ++ rest))).covers offset
  have hinner := covers_of_tokenize htokens (offset + ['('].length) hclosing
  have hclose := (spells_rightParen rest).covers (offset + (['('] ++ text.toList).length)
  have hmoved : Derives (.chain .logical) (ts.map (Relocation.shift (offset + ['('].length)).token) e d w :=
    he.of_contents (Relocation.contents_shift _ ts)
  rw [toList_enclose]
  exact ⟨_, d, w, (hopen.append hinner).append hclose, .group _ _ rfl hmoved rfl, hd, hw⟩

/-- A sentence in parentheses is by itself an operand, one level deeper. -/
theorem Sentence.exists_operand (h : Sentence limits text e) :
    ∃ ts d w, tokenize (Expr.enclose text) = .ok ts ∧ Derives .operand ts e (d + 1) w ∧ d ≤ limits.maxDepth ∧
      w ≤ limits.maxChain := by
  obtain ⟨ts, d, w, hcovers, he, hd, hw⟩ := h.covers_enclose 0 []
  exact ⟨ts, d, w, hcovers.tokenize_eq, he, hd, hw⟩

/-- A sentence in parentheses is a sentence with the same tree, one level deeper. -/
theorem Sentence.enclosed (h : Sentence limits text e) :
    Sentence ⟨limits.maxDepth + 1, limits.maxChain⟩ (Expr.enclose text) e := by
  obtain ⟨ts, d, w, htokens, he, hd, hw⟩ := h.exists_operand
  exact ⟨ts, d + 1, w, htokens, he.expression_of_operand, Nat.succ_le_succ hd, hw⟩

/-- A mark in front of a sentence in parentheses takes it as its operand, and the mark and the parentheses are two
levels. -/
private theorem Sentence.marked (h : Sentence limits text e) {mark : String} {kind : TokenKind} {content : String}
    (hmark : ∀ {rest}, Delimited rest → Spells mark.toList rest kind content) {whole : Expr}
    (hwhole : ∀ (t : Token) {ts d w}, t.kind = kind → Derives .operand ts e d w →
      Derives (.chain .logical) (t :: ts) whole (d + 1) w) :
    Sentence ⟨limits.maxDepth + 2, limits.maxChain⟩ (mark ++ Expr.enclose text) whole := by
  obtain ⟨ts, d, w, hoperand, he, hd, hw⟩ := h.covers_enclose (0 + mark.toList.length) []
  have hfirst := (hmark (delimited_enclose text [])).covers 0
  have hcovers := hfirst.append hoperand
  rw [← String.toList_append] at hcovers
  exact ⟨_, d + 1 + 1, w, hcovers.tokenize_eq, hwhole _ rfl he, by dsimp only; omega, hw⟩

/-- The negation of a sentence in parentheses. -/
theorem Sentence.negated (h : Sentence limits text e) :
    Sentence ⟨limits.maxDepth + 2, limits.maxChain⟩ ("!" ++ Expr.enclose text) (.not e) :=
  h.marked (fun hrest => spells_not hrest.ne_equalSign) fun t _ _ _ ht hoperand =>
    .expression_of_boolean (.negation t ht hoperand.boolean_of_operand)

/-- A sentence in parentheses with a sign. -/
theorem Sentence.signed (h : Sentence limits text e) (sign : Sign) :
    Sentence ⟨limits.maxDepth + 2, limits.maxChain⟩ (sign.symbol ++ Expr.enclose text) (.signed sign e) := by
  refine h.marked (fun _ => sign.spells _) fun t _ _ _ ht hoperand => ?_
  have hsign : Sign.ofKind? t.kind = some sign := ht ▸ sign.ofKind?_kind
  exact .expression_of_chain (.single .multiplicative (.sign t hsign hoperand))

/-- An operator between blanks is one token. -/
theorem covers_spaced (op : BinOp) (offset : Nat) (rest : List Char) :
    ∃ t : Token, t.kind = op.kind ∧ Covers offset ([' '] ++ op.symbol.toList ++ [' ']) rest [t] := by
  have hblank : isBlank ' ' := by decide
  have hdelimited : Delimited ([' '] ++ rest) := .cons (by decide) rest
  have hfirst := covers_blank offset hblank (op.symbol.toList ++ ([' '] ++ rest))
  have hop := (op.spells hdelimited).covers (offset + [' '].length)
  have hlast := covers_blank (offset + ([' '] ++ op.symbol.toList).length) hblank rest
  exact ⟨_, rfl, (hfirst.append hop).append hlast⟩

/-- A blank stands before an operator between blanks. -/
theorem delimited_spaced (op : BinOp) (rest : List Char) : Delimited ((" " ++ op.symbol ++ " ").toList ++ rest) := by
  rw [String.toList_append, String.toList_append, List.append_assoc, List.append_assoc]
  exact .cons (by decide) _

/-- An operator and another text behind a text are tokens behind those of the text. -/
theorem tokenize_operation (op : BinOp) {ts us : List Token} (h : tokenize text' = .ok us)
    (hleft : Covers 0 text.toList ((" " ++ op.symbol ++ " ").toList ++ (text'.toList ++ [])) ts) :
    ∃ (t : Token) (us' : List Token), t.kind = op.kind ∧ us'.map Token.content = us.map Token.content ∧
      tokenize (text ++ (" " ++ op.symbol ++ " ") ++ text') = .ok (ts ++ t :: us') := by
  have hspaced : (" " ++ op.symbol ++ " ").toList = [' '] ++ op.symbol.toList ++ [' '] := by
    rw [String.toList_append, String.toList_append]
    rfl
  obtain ⟨t, ht, hop⟩ := covers_spaced op (0 + text.toList.length) (text'.toList ++ [])
  rw [← hspaced] at hop
  have hbegin := hleft.append hop
  rw [← String.toList_append] at hbegin
  have hright := covers_of_tokenize h (0 + (text ++ (" " ++ op.symbol ++ " ")).toList.length) .nil
  have hwhole := hbegin.append hright
  rw [← String.toList_append, List.append_assoc, List.singleton_append] at hwhole
  exact ⟨t, _, ht, Relocation.contents_shift _ us, hwhole.tokenize_eq⟩

/-- Two sentences in parentheses with an operator between them are a sentence, one level deeper. -/
theorem Sentence.binary (h : Sentence limits text e) (h' : Sentence limits text' e') (op : BinOp) :
    Sentence ⟨limits.maxDepth + 1, max limits.maxChain 1⟩
      (Expr.enclose text ++ (" " ++ op.symbol ++ " ") ++ Expr.enclose text') (.binary op e e') := by
  obtain ⟨ts, d, w, hleft, he, hd, hw⟩ := h.covers_enclose 0 ((" " ++ op.symbol ++ " ").toList ++
    ((Expr.enclose text').toList ++ []))
  obtain ⟨us, d', w', hright, he', hd', hw'⟩ := h'.exists_operand
  obtain ⟨t, us', ht, hcontents, htokens⟩ := tokenize_operation op hright hleft
  refine ⟨_, _, _, htokens, he.binary ht (he'.of_contents hcontents), ?_, ?_⟩
  · dsimp only
    omega
  · dsimp only
    omega

/-- Texts that are expressions can be put together in parentheses, with nothing but the depth and a chain of one
operator to pay: by themselves, behind `!` or a sign, and on both sides of every operator.  Whatever the texts are, the
trees are put together in the same way. -/
theorem parseWith_composed (h : Expr.parseWith limits text = .ok e) (h' : Expr.parseWith limits text' = .ok e') :
    Expr.parseWith ⟨limits.maxDepth + 1, limits.maxChain⟩ (Expr.enclose text) = .ok e ∧
      (∀ op : BinOp, Expr.parseWith ⟨limits.maxDepth + 1, max limits.maxChain 1⟩
        (Expr.enclose text ++ (" " ++ op.symbol ++ " ") ++ Expr.enclose text') = .ok (.binary op e e')) ∧
      Expr.parseWith ⟨limits.maxDepth + 2, limits.maxChain⟩ ("!" ++ Expr.enclose text) = .ok (.not e) ∧
      ∀ sign : Sign, Expr.parseWith ⟨limits.maxDepth + 2, limits.maxChain⟩ (sign.symbol ++ Expr.enclose text) =
        .ok (.signed sign e) := by
  have hs := sentence_of_parseWith h
  have hs' := sentence_of_parseWith h'
  exact ⟨parseWith_of_sentence hs.enclosed, fun op => parseWith_of_sentence (hs.binary hs' op),
    parseWith_of_sentence hs.negated, fun sign => parseWith_of_sentence (hs.signed sign)⟩

/-- A disjunction and a string that holds a parenthesis and an operator, under every operator and mark. -/
theorem parseWith_composed_disjunction :
    let e : Expr := .binary .or (.field (.last "a")) (.not (.field (.step "b" (.last "c"))))
    let e' : Expr := .binary .equal (.string ") && (") (.field (.last "d"))
    Expr.parseWith ⟨1, 1⟩ "a | !b.c" = .ok e ∧ Expr.parseWith ⟨1, 1⟩ "') && (' == d" = .ok e' ∧
      Expr.parseWith ⟨2, 1⟩ "(a | !b.c)" = .ok e ∧
      Expr.parseWith ⟨2, 1⟩ "(a | !b.c) * (') && (' == d)" = .ok (.binary .multiply e e') ∧
      Expr.parseWith ⟨3, 1⟩ "!(a | !b.c)" = .ok (.not e) ∧ Expr.parseWith ⟨3, 1⟩ "-(a | !b.c)" = .ok (.signed .minus e) := by
  intro e e'
  have h : Expr.parseWith ⟨1, 1⟩ "a | !b.c" = .ok e := rfl
  have h' : Expr.parseWith ⟨1, 1⟩ "') && (' == d" = .ok e' := rfl
  obtain ⟨henclosed, hbinary, hnegated, hsigned⟩ := parseWith_composed h h'
  exact ⟨h, h', henclosed, hbinary .multiply, hnegated, hsigned .minus⟩

end Grammar
end DocFilter
