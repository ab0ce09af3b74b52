import DocFilter.Proofs.Eval.Grouping
import DocFilter.Proofs.Grammar.Composition

/-!
# Parentheses in logical chains

Parentheses around parts of a chain of `&&` or of `||` can be put and left out (`eval_of_joined`).  They change only how
the tree over the operands is grouped (`Joined.sentence`), and the grouping makes no difference
(`Expr.eval_of_grouping`).
-/

namespace DocFilter
namespace Grammar

/-- The text can stand between logical operators as it is. -/
def IsLogicalOperand (text : String) : Prop :=
  ∃ ts e depth width, tokenize text = .ok ts ∧ Derives Level.logical.operand ts e depth width

/-- The text joins the operands by the operator, in their order.  What stands behind an operator, an operand or a text
that joins several of them, is in parentheses or can stand there without, and there may be parentheses around anything
else. -/
inductive Joined (op : BinOp) : List String → String → Prop where
  | single (operand : String) : Joined op [operand] operand
  | link {operands operands' : List String} {left right : String} (hl : Joined op operands left)
      (hr : Joined op operands' right) :
      Joined op (operands ++ operands') (left ++ (" " ++ op.symbol ++ " ") ++ Expr.enclose right)
  | bareLink {operands operands' : List String} {left right : String} (hl : Joined op operands left)
      (hr : Joined op operands' right) (hbare : IsLogicalOperand right) :
      Joined op (operands ++ operands') (left ++ (" " ++ op.symbol ++ " ") ++ right)
  | group {operands : List String} {text : String} (h : Joined op operands text) :
      Joined op operands (Expr.enclose text)

variable {limits : Limits} {op : BinOp} {text text' : String} {e e' : Expr} {operands : List String}

/-- A sentence that can stand between logical operators stands there with its tree. -/
private theorem IsLogicalOperand.derives (hbare : IsLogicalOperand text) (h : Sentence limits text e) :
    ∃ ts d w, tokenize text = .ok ts ∧ Derives Level.logical.operand ts e d w := by
  obtain ⟨ts, e', d, w, htokens, he'⟩ := hbare
  have hsentence : Sentence ⟨d, w⟩ text e' := ⟨ts, d, w, htokens, .single .logical he', Nat.le_refl d, Nat.le_refl w⟩
  obtain rfl := hsentence.unique h
  exact ⟨ts, d, w, htokens, he'⟩

/-- Every sentence goes on with a logical operator and an operand of it: the sentence's tree becomes the left one. -/
private theorem Sentence.linked (h : Sentence limits text e) (hop : op.isLogical) {us : List Token} {d' w' : Nat}
    (htokens' : tokenize text' = .ok us) (he' : Derives Level.logical.operand us e' d' w') :
    ∃ limits, Sentence limits (text ++ (" " ++ op.symbol ++ " ") ++ text') (.binary op e e') := by
  obtain ⟨ts, d, w, htokens, he, -, -⟩ := h
  obtain ⟨t, us', ht, hcontents, hwhole⟩ :=
    tokenize_operation op htokens' (covers_of_tokenize_head htokens (delimited_spaced op _))
  have hkind : Level.logical.operator? t.kind = some op := by
    rw [ht]
    cases op with
    | and | or => rfl
    | _ => cases hop
  cases he with
  | chain hlinks =>
    exact ⟨⟨_, _⟩, _, _, _, hwhole, .chain (.link hlinks hkind (he'.of_contents hcontents)), Nat.le_refl _,
      Nat.le_refl _⟩

/-- A text that joins expressions is an expression, and its tree has theirs for its leaves. -/
theorem Joined.sentence (hop : op.isLogical) {tree : String → Expr} (h : Joined op operands text)
    (htree : ∀ q ∈ operands, ∃ limits, Sentence limits q (tree q)) :
    ∃ limits t, Sentence limits text t ∧ Expr.Grouping op (operands.map tree) t := by
  induction h with
  | single operand =>
    obtain ⟨limits, hoperand⟩ := htree operand (.head _)
    exact ⟨limits, tree operand, hoperand, .single _⟩
  | link hl hr ihl ihr =>
    obtain ⟨_, left, hleft, hgroup⟩ := ihl fun q hq => htree q (List.mem_append_left _ hq)
    obtain ⟨_, right, hright, hgroup'⟩ := ihr fun q hq => htree q (List.mem_append_right _ hq)
    obtain ⟨_, _, _, htokens, hoperand, -, -⟩ := hright.exists_operand
    obtain ⟨limits, hwhole⟩ := hleft.linked hop htokens (hoperand.operand_of_operand .logical)
    rw [List.map_append]
    exact ⟨limits, _, hwhole, .join hgroup hgroup'⟩
  | bareLink hl hr hbare ihl ihr =>
    obtain ⟨_, left, hleft, hgroup⟩ := ihl fun q hq => htree q (List.mem_append_left _ hq)
    obtain ⟨_, right, hright, hgroup'⟩ := ihr fun q hq => htree q (List.mem_append_right _ hq)
    obtain ⟨_, _, _, htokens, hoperand⟩ := hbare.derives hright
    obtain ⟨limits, hwhole⟩ := hleft.linked hop htokens hoperand
    rw [List.map_append]
    exact ⟨limits, _, hwhole, .join hgroup hgroup'⟩
  | group h ih =>
    obtain ⟨limits, t, ht, hgroup⟩ := ih htree
    exact ⟨_, t, ht.enclosed, hgroup⟩

/-- How the operands of a logical chain are grouped makes no difference.  All trees over the same operands, the one
that is grouped to the left among them, have the same value or the same error, and an error is raised by the same
operand in all of them.  And all texts that join the same expressions, with parentheses around whatever parts or with
none, are expressions with the same value or the same error. -/
theorem eval_of_joined (hop : op.isLogical) :
    (∀ (doc : Document) (es : List Expr) (t t' : Expr), Expr.Grouping op es t → Expr.Grouping op es t' →
      t.eval doc = t'.eval doc ∧
        (∀ first rest, es = first :: rest → t.eval doc = (rest.foldl (.binary op) first).eval doc) ∧
        ∀ error, t.eval doc = .error error ↔ ∃! i, Expr.RaisedAt doc op es i error) ∧
    ∀ (operands : List String) (tree : String → Expr) (text text' : String),
      (∀ q ∈ operands, ∃ limits, Expr.parseWith limits q = .ok (tree q)) →
      Joined op operands text → Joined op operands text' →
      ∃ limits t limits' t', Expr.parseWith limits text = .ok t ∧ Expr.parseWith limits' text' = .ok t' ∧
        Expr.Grouping op (operands.map tree) t ∧ Expr.Grouping op (operands.map tree) t' ∧
        ∀ doc, t.eval doc = t'.eval doc := by
  refine ⟨fun doc es t t' h h' => Expr.eval_of_grouping doc hop h h', fun operands tree text text' htree h h' => ?_⟩
  have hsentence : ∀ q ∈ operands, ∃ limits, Sentence limits q (tree q) := fun q hq =>
    (htree q hq).imp fun _ => sentence_of_parseWith
  obtain ⟨limits, t, ht, hgroup⟩ := h.sentence hop hsentence
  obtain ⟨limits', t', ht', hgroup'⟩ := h'.sentence hop hsentence
  exact ⟨limits, t, limits', t', parseWith_of_sentence ht, parseWith_of_sentence ht', hgroup, hgroup', fun doc =>
    (Expr.eval_of_grouping doc hop hgroup hgroup').1⟩

/-- The second of three operands is no boolean: on the right of the first operator in one tree, on the left of the
second one in the other. -/
theorem eval_of_joined_second :
    let a : Expr := .field (.last "a")
    let b : Expr := .field (.last "b")
    let c : Expr := .not (.field (.last "b"))
    let doc : Document := [("a", .bool true), ("b", .string "x")]
    BinOp.and.isLogical ∧ Joined .and ["a", "b", "!b"] "a && (b) && (!b)" ∧
      Joined .and ["a", "b", "!b"] "a && ((b) && (!b))" ∧
      (Expr.binary .and (.binary .and a b) c).eval doc = (Expr.binary .and a (.binary .and b c)).eval doc ∧
      (∃! i, Expr.RaisedAt doc .and [a, b, c] i (.logicOperand .and .string)) ∧
      (∃ limits t limits' t', Expr.parseWith limits "a && (b) && (!b)" = .ok t ∧
        Expr.parseWith limits' "a && ((b) && (!b))" = .ok t' ∧ ∀ doc, t.eval doc = t'.eval doc) ∧
      Joined .and ["a", "b", "!b"] "a && b && !b" ∧
      ∃ limits t limits' t', Expr.parseWith limits "a && b && !b" = .ok t ∧
        Expr.parseWith limits' "a && ((b) && (!b))" = .ok t' ∧ ∀ doc, t.eval doc = t'.eval doc := by
  intro a b c doc
  have hleft : Expr.Grouping .and [a, b, c] (.binary .and (.binary .and a b) c) :=
    .join (.join (.single a) (.single b)) (.single c)
  have hright : Expr.Grouping .and [a, b, c] (.binary .and a (.binary .and b c)) :=
    .join (.single a) (.join (.single b) (.single c))
  have hplain : Joined .and ["a", "b", "!b"] "a && (b) && (!b)" := by
    have h : Joined .and _ _ := .link (.link (.single "a") (.single "b")) (.single "!b")
    exact h
  have hnested : Joined .and ["a", "b", "!b"] "a && ((b) && (!b))" := by
    have h : Joined .and _ _ := .link (.single "a") (.link (.group (.single "b")) (.single "!b"))
    exact h
  have hbare : Joined .and ["a", "b", "!b"] "a && b && !b" := by
    have hb (start stop : Nat) : Derives .boolean [⟨.identifier, "b", start, stop⟩] b 0 0 :=
      .boolean_of_operand (.path (.last _ rfl))
    have hsecond : IsLogicalOperand "b" := ⟨_, _, _, _, rfl, .single .relational (hb 0 1)⟩
    have hthird : IsLogicalOperand "!b" := ⟨_, _, _, _, rfl, .single .relational (.negation _ rfl (hb 1 2))⟩
    have h : Joined .and _ _ := .bareLink (.bareLink (.single "a") (.single "b") hsecond) (.single "!b") hthird
    exact h
  obtain ⟨htrees, htexts⟩ := eval_of_joined (by rfl : BinOp.and.isLogical)
  obtain ⟨hsame, -, herror⟩ := htrees doc _ _ _ hleft hright
  let tree (q : String) : Expr := if q = "a" then a else if q = "b" then b else c
  have htree : ∀ q ∈ ["a", "b", "!b"], ∃ limits, Expr.parseWith limits q = .ok (tree q) := by
    intro q hq
    simp only [List.mem_cons, List.not_mem_nil, or_false] at hq
    rcases hq with rfl | rfl | rfl
    · exact ⟨.standard, rfl⟩
    · exact ⟨.standard, rfl⟩
    · exact ⟨.standard, rfl⟩
  obtain ⟨limits, t, limits', t', ht, ht', -, -, heval⟩ := htexts _ tree _ _ htree hplain hnested
  obtain ⟨limits₂, t₂, limits₂', t₂', ht₂, ht₂', -, -, heval₂⟩ := htexts _ tree _ _ htree hbare hnested
  exact ⟨rfl, hplain, hnested, hsame, (herror _).1 rfl, ⟨limits, t, limits', t', ht, ht', heval⟩, hbare, limits₂, t₂,
    limits₂', t₂', ht₂, ht₂', heval₂⟩

end Grammar
end DocFilter
