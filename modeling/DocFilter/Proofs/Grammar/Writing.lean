import DocFilter.Proofs.Grammar.Language
import DocFilter.Proofs.Token.Spelling

/-!
# Writing trees

Every tree that the lexical grammar can spell is a tree of the language: write it with all operands in parentheses,
and it is read back as it is (`parseWith_of_writtenAs`).  The parentheses make any tree an operand, so it does not
matter which operators stand inside which others.
-/

namespace DocFilter

/-- The level on which the grammar has the operator. -/
def BinOp.level : BinOp → Grammar.Level
  | and | or => .logical
  | equal | notEqual | less | greater | lessEqual | greaterEqual => .relational
  | add | subtract => .additive
  | multiply | divide => .multiplicative

theorem BinOp.operator?_kind (op : BinOp) : op.level.operator? op.kind = some op := by
  cases op <;> rfl

theorem Sign.ofKind?_kind (sign : Sign) : Sign.ofKind? sign.kind = some sign := by
  cases sign <;> rfl

namespace Expr

/-- The keys in the tree are identifiers, and its numbers have literals. -/
def Writable : Expr → Prop
  | binary _ left right => left.Writable ∧ right.Writable
  | signed _ operand => operand.Writable
  | not operand => operand.Writable
  | number value => ∃ literal, NumberLiteral literal value
  | field path => ∀ key ∈ path.segments, IsIdentifier key
  | bool _ | string _ | null => True

/-- The text in parentheses. -/
def enclose (text : String) : String :=
  "(" ++ text ++ ")"

/-- The text is the tree with all operands in parentheses.  A number can be written as any of its literals, and
anything may be put into further parentheses. -/
inductive WrittenAs : Expr → String → Prop where
  | bool (value : Bool) : WrittenAs (.bool value) (if value then "true" else "false")
  | number {literal : String} {value : Float} (h : NumberLiteral literal value) : WrittenAs (.number value) literal
  | string (value : String) : WrittenAs (.string value) (quoted value)
  | null : WrittenAs .null "null"
  | field (path : FieldPath) : WrittenAs (.field path) path.display
  | not {operand : Expr} {text : String} (h : WrittenAs operand text) :
      WrittenAs (.not operand) ("!" ++ enclose text)
  | signed (sign : Sign) {operand : Expr} {text : String} (h : WrittenAs operand text) :
      WrittenAs (.signed sign operand) (sign.symbol ++ enclose text)
  | binary (op : BinOp) {left right : Expr} {text text' : String} (hl : WrittenAs left text)
      (hr : WrittenAs right text') : WrittenAs (.binary op left right) (enclose text ++ op.symbol ++ enclose text')
  | enclosed {e : Expr} {text : String} (h : WrittenAs e text) : WrittenAs e (enclose text)

/-- Every writable tree can be written. -/
theorem Writable.exists_writtenAs {e : Expr} (h : e.Writable) : ∃ text, e.WrittenAs text := by
  induction e with
  | binary op left right ihl ihr =>
    obtain ⟨hl, hr⟩ := h
    obtain ⟨text, htext⟩ := ihl hl
    obtain ⟨text', htext'⟩ := ihr hr
    exact ⟨_, .binary op htext htext'⟩
  | signed sign operand ih =>
    obtain ⟨text, htext⟩ := ih h
    exact ⟨_, .signed sign htext⟩
  | not operand ih =>
    obtain ⟨text, htext⟩ := ih h
    exact ⟨_, .not htext⟩
  | bool value => exact ⟨_, .bool value⟩
  | number value =>
    obtain ⟨literal, hliteral⟩ := h
    exact ⟨literal, .number hliteral⟩
  | string value => exact ⟨_, .string value⟩
  | null => exact ⟨_, .null⟩
  | field path => exact ⟨_, .field path⟩

end Expr

namespace Grammar

/-- On both sides of an operator stands what its level is made of. -/
theorem Derives.operation {ts us : List Token} {t : Token} {op : BinOp} {left right : Expr} {d w d' w' : Nat}
    (hl : Derives op.level.operand ts left d w) (ht : t.kind = op.kind) (hr : Derives op.level.operand us right d' w') :
    Derives (.chain op.level) (ts ++ t :: us) (.binary op left right) (max d d') (max 1 (max w w')) := by
  have hkind : op.level.operator? t.kind = some op := by
    rw [ht]
    exact op.operator?_kind
  exact .chain (.link (.one hl) hkind hr)

/-- Two operands with an operator between them are an expression. -/
theorem Derives.binary {ts us : List Token} {t : Token} {op : BinOp} {left right : Expr} {d w d' w' : Nat}
    (hl : Derives .operand ts left d w) (ht : t.kind = op.kind) (hr : Derives .operand us right d' w') :
    Derives (.chain .logical) (ts ++ t :: us) (.binary op left right) (max d d') (max 1 (max w w')) :=
  .expression_of_chain (.operation (hl.operand_of_operand op.level) ht (hr.operand_of_operand op.level))

/-- Wherever the text stands before `rest`, its tokens are the part with the tree `e`, and what the derivation needs
of the limits is at most the length of the text. -/
def ReadsAs (part : Part) (text rest : List Char) (e : Expr) : Prop :=
  ∀ offset, ∃ ts d w, Tokenizes offset text rest ts ∧ Derives part ts e d w ∧ d ≤ text.length ∧ w ≤ text.length

namespace ReadsAs

variable {part part' : Part} {text rest : List Char} {e : Expr}

theorem imp (h : ReadsAs part text rest e)
    (himp : ∀ {ts d w}, Derives part ts e d w → Derives part' ts e d w) : ReadsAs part' text rest e := by
  intro offset
  obtain ⟨ts, d, w, htext, he, hd, hw⟩ := h offset
  exact ⟨ts, d, w, htext, himp he, hd, hw⟩

/-- A lexeme is read as what its token is. -/
theorem of_spells {kind : TokenKind} {content : String} (h : Spells text rest kind content)
    (ht : ∀ t : Token, t.kind = kind → t.text = content → Derives part [t] e 0 0) : ReadsAs part text rest e := by
  intro offset
  exact ⟨_, 0, 0, h.tokenizes offset, ht _ rfl rfl, Nat.zero_le _, Nat.zero_le _⟩

/-- In parentheses an expression is an operand, whatever comes behind it. -/
theorem enclosed (h : ReadsAs (.chain .logical) text ([')'] ++ rest) e) :
    ReadsAs .operand (['('] ++ text ++ [')']) rest e := by
  intro offset
  obtain ⟨ts, d, w, htext, he, hd, hw⟩ := h (offset + 1)
  have hopen := (spells_leftParen (text ++ ([')'] ++ rest))).tokenizes offset
  have hclose := (spells_rightParen rest).tokenizes (offset + (['('] ++ text).length)
  refine ⟨_, d + 1, w, (hopen.append htext).append hclose, .group _ _ rfl he rfl, ?_, ?_⟩
  · simp only [List.length_append, List.length_singleton]
    omega
  · simp only [List.length_append, List.length_singleton]
    omega

/-- A sign or a `!` takes the operand behind it. -/
theorem prefixed {mark : List Char} {kind : TokenKind} {content : String} {e' : Expr}
    (hmark : Spells mark (text ++ rest) kind content) (h : ReadsAs part text rest e)
    (hstep : ∀ (t : Token) {ts d w}, t.kind = kind → Derives part ts e d w → Derives part' (t :: ts) e' (d + 1) w) :
    ReadsAs part' (mark ++ text) rest e' := by
  intro offset
  obtain ⟨ts, d, w, htext, he, hd, hw⟩ := h (offset + mark.length)
  refine ⟨_, d + 1, w, (hmark.tokenizes offset).append htext, hstep _ rfl he, ?_, ?_⟩
  · obtain ⟨c, cs, rfl, -⟩ := hmark
    simp only [List.length_append, List.length_cons]
    omega
  · simp only [List.length_append]
    omega

/-- Two operands and an operator between them are an expression. -/
theorem binary {op : BinOp} {text' : List Char} {left right : Expr}
    (hl : ReadsAs .operand text (op.symbol.toList ++ (text' ++ rest)) left)
    (hop : Spells op.symbol.toList (text' ++ rest) op.kind op.symbol) (hr : ReadsAs .operand text' rest right) :
    ReadsAs (.chain .logical) (text ++ op.symbol.toList ++ text') rest (.binary op left right) := by
  intro offset
  obtain ⟨ts, d, w, htext, he, hd, hw⟩ := hl offset
  obtain ⟨us, d', w', htext', he', hd', hw'⟩ := hr (offset + (text ++ op.symbol.toList).length)
  have htokens := (htext.append (hop.tokenizes (offset + text.length))).append htext'
  rw [List.append_assoc ts] at htokens
  refine ⟨_, _, _, htokens, he.binary rfl he', ?_, ?_⟩
  · simp only [List.length_append]
    omega
  · obtain ⟨c, cs, hsymbol, -⟩ := hop
    simp only [List.length_append, hsymbol, List.length_cons]
    omega

end ReadsAs

/-! ### Reading what is written -/

theorem toList_enclose (text : String) : (Expr.enclose text).toList = ['('] ++ text.toList ++ [')'] := by
  simp [Expr.enclose]

private theorem readsAs_enclose {text : String} {rest : List Char} {e : Expr}
    (h : ReadsAs (.chain .logical) text.toList (')' :: rest) e) :
    ReadsAs .operand (Expr.enclose text).toList rest e := by
  rw [toList_enclose]
  exact .enclosed h

theorem delimited_enclose (text : String) (rest : List Char) :
    Delimited ((Expr.enclose text).toList ++ rest) := by
  rw [toList_enclose]
  exact .cons (by decide) _

/-- A path is read back over its dots. -/
theorem readsAs_path {path : FieldPath} (hpath : ∀ key ∈ path.segments, IsIdentifier key) {rest : List Char}
    (hrest : Ends rest) (offset : Nat) :
    ∃ ts dots, Tokenizes offset path.display.toList rest ts ∧ DerivesPath ts path dots ∧
      dots ≤ path.display.toList.length := by
  induction path generalizing offset with
  | last key =>
    have hkey := (hpath key List.mem_cons_self).spells hrest.delimited.not_isWordChar
    rw [FieldPath.display_last]
    exact ⟨_, 0, hkey.tokenizes offset, .last _ rfl, Nat.zero_le _⟩
  | step key path ih =>
    have hdisplay : (FieldPath.step key path).display.toList = key.toList ++ ['.'] ++ path.display.toList := by
      rw [FieldPath.display_step, String.toList_append, String.toList_append]
      rfl
    have hkey : Spells key.toList (['.'] ++ (path.display.toList ++ rest)) .identifier key := by
      refine (hpath key List.mem_cons_self).spells fun d hd => ?_
      obtain rfl := Option.some.inj hd
      rfl
    have hdot := spells_dot (path.display.toList ++ rest)
    obtain ⟨ts, dots, htext, hts, hdots⟩ :=
      ih (fun k hk => hpath k (List.mem_cons_of_mem key hk)) (offset + (key.toList ++ ['.']).length)
    rw [hdisplay]
    refine ⟨_, dots + 1, ((hkey.tokenizes offset).append (hdot.tokenizes _)).append htext, .step _ _ rfl rfl hts, ?_⟩
    simp only [List.length_append, List.length_singleton]
    omega

/-- A tree that is written down is read back from the text, wherever the text ends or is closed. -/
theorem readsAs_of_writtenAs {e : Expr} {text : String} (h : e.WrittenAs text) (he : e.Writable) {rest : List Char}
    (hrest : Ends rest) : ReadsAs (.chain .logical) text.toList rest e := by
  -- operands stand in parentheses, so each of them is read before a closing one and becomes an operand
  induction h generalizing rest with
  | bool value =>
    cases value with
    | true =>
      have htrue := spells_true hrest.delimited.not_isWordChar
      exact (ReadsAs.of_spells htrue fun t hk _ => .trueWord t hk).imp .expression_of_boolean
    | false =>
      have hfalse := spells_false hrest.delimited.not_isWordChar
      exact (ReadsAs.of_spells hfalse fun t hk _ => .falseWord t hk).imp .expression_of_boolean
  | number h =>
    cases h with
    | integer hc hread hn =>
      rw [String.toList_ofList]
      refine (ReadsAs.of_spells (spells_number hc hread hrest.delimited) fun t hk ht => ?_).imp .expression_of_operand
      rw [← String.toList_ofList (l := _ :: _), ← ht] at hn
      exact .integer t hk hn
    | decimal hc hread hx =>
      rw [String.toList_ofList]
      refine (ReadsAs.of_spells (spells_number hc hread hrest.delimited) fun t hk ht => ?_).imp .expression_of_operand
      rw [← String.toList_ofList (l := _ :: _), ← ht] at hx
      exact .decimal t hk hx
  | string value =>
    exact (ReadsAs.of_spells (spells_quoted value rest) fun t hk ht => ht ▸ .string t hk).imp .expression_of_operand
  | null =>
    have hnull := spells_null hrest.delimited.not_isWordChar
    exact (ReadsAs.of_spells hnull fun t hk _ => .nullWord t hk).imp .expression_of_operand
  | field path =>
    intro offset
    obtain ⟨ts, dots, htext, hts, hdots⟩ := readsAs_path he hrest offset
    exact ⟨ts, 0, dots, htext, .expression_of_operand (.path hts), Nat.zero_le _, hdots⟩
  | @not _ text _ ih =>
    have hoperand := readsAs_enclose (ih he (ends_closing rest))
    have hmark := spells_not (delimited_enclose text rest).ne_equalSign
    rw [String.toList_append]
    exact .prefixed hmark hoperand fun t _ _ _ ht h =>
      .expression_of_boolean (.negation t ht h.boolean_of_operand)
  | @signed sign _ text _ ih =>
    have hoperand := readsAs_enclose (ih he (ends_closing rest))
    have hmark := sign.spells ((Expr.enclose text).toList ++ rest)
    rw [String.toList_append]
    refine .prefixed hmark hoperand fun t _ _ _ ht h => .expression_of_chain (.single .multiplicative (.sign t ?_ h))
    rw [ht]
    exact sign.ofKind?_kind
  | @binary op _ _ text text' _ _ ihl ihr =>
    obtain ⟨hleft, hright⟩ := he
    have hop := op.spells (delimited_enclose text' rest)
    rw [String.toList_append, String.toList_append]
    exact .binary (readsAs_enclose (ihl hleft (ends_closing _))) hop (readsAs_enclose (ihr hright (ends_closing _)))
  | enclosed _ ih => exact (readsAs_enclose (ih he (ends_closing rest))).imp .expression_of_operand

/-- Every writable tree can be written, and every way to write it is read back as the tree if the limits are at least
the length of the text. -/
theorem parseWith_of_writtenAs (e : Expr) (he : e.Writable) :
    (∃ text, e.WrittenAs text) ∧
      ∀ text, e.WrittenAs text → ∀ limits : Limits, text.length ≤ limits.maxDepth → text.length ≤ limits.maxChain →
        Expr.parseWith limits text = .ok e := by
  refine ⟨he.exists_writtenAs, fun text htext limits hdepth hchain => ?_⟩
  obtain ⟨ts, d, w, htokens, hderives, hd, hw⟩ := readsAs_of_writtenAs htext he ends_nil 0
  rw [String.length_toList] at hd hw
  exact parseWith_of_sentence
    ⟨ts, d, w, htokens.tokenize_eq, hderives, Nat.le_trans hd hdepth, Nat.le_trans hw hchain⟩

/-- A sign over `!`, a comparison under `*`, and a truth value and a string with a quote under `+`. -/
theorem parseWith_of_writtenAs_mixed :
    let e : Expr := .signed .minus (.not (.binary .multiply
      (.binary .less (.field (.step "a" (.last "b_1"))) (.number (Float.ofNat 2)))
      (.binary .add (.bool true) (.string "it's"))))
    let text := "-(!(((a.b_1)<(2))*((true)+('it\\'s'))))"
    e.Writable ∧ e.WrittenAs text ∧ Expr.parseWith ⟨60, 60⟩ text = .ok e := by
  intro e text
  have htwo : NumberLiteral "2" (Float.ofNat 2) := .integer (c := '2') (by decide) (by decide) (by decide)
  have ha : IsIdentifier "a" :=
    ⟨'a', [], rfl, by decide, List.all_eq_true.1 (by decide), by decide, by decide, by decide⟩
  have hb : IsIdentifier "b_1" :=
    ⟨'b', ['_', '1'], rfl, by decide, List.all_eq_true.1 (by decide), by decide, by decide, by decide⟩
  have he : e.Writable := by
    refine ⟨⟨?_, "2", htwo⟩, trivial, trivial⟩
    intro key hkey
    rcases List.mem_cons.1 hkey with rfl | hkey
    · exact ha
    · obtain rfl := List.mem_singleton.1 hkey
      exact hb
  have htext : e.WrittenAs text :=
    .signed .minus (.not (.binary .multiply (.binary .less (.field _) (.number htwo))
      (.binary .add (.bool true) (.string _))))
  exact ⟨he, htext, (parseWith_of_writtenAs e he).2 text htext ⟨60, 60⟩ (by decide) (by decide)⟩

end Grammar
end DocFilter
