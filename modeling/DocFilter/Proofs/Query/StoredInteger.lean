import DocFilter.Proofs.Eval.Meaning
import DocFilter.Proofs.Grammar.Composition
import DocFilter.Proofs.Token.Numeral
import DocFilter.Proofs.Value.NotANumber
import DocFilter.Query

/-!
# Asking for a stored integer

A document that holds an integer satisfies the query that compares it with its own numeral.  There is one exception:
the sign of a numeral is no part of its literal, and the magnitude of the least integer is out of the bounds of
literals, so the query with that numeral is no expression (`test_equal_numeral`).
-/

namespace DocFilter

variable {key : String}

/-! ### The text -/

private theorem covers_natural (n offset : Nat) :
    Covers offset (toString (Int.ofNat n)).toList []
      [⟨.integer, String.ofList (Nat.toDigits 10 n), offset, offset + (Nat.toDigits 10 n).length⟩] := by
  have htext : (toString (Int.ofNat n)).toList = Nat.toDigits 10 n := Nat.toList_repr
  rw [htext]
  exact (spells_toDigits n .nil).covers offset

private theorem covers_negative (n offset : Nat) :
    Covers offset (toString (Int.negSucc n)).toList []
      [⟨.minus, "-", offset, offset + 1⟩,
        ⟨.integer, String.ofList (Nat.toDigits 10 (n + 1)), offset + 1,
          offset + 1 + (Nat.toDigits 10 (n + 1)).length⟩] := by
  have htext : (toString (Int.negSucc n)).toList = ['-'] ++ Nat.toDigits 10 (n + 1) := by
    show ("-" ++ (n + 1).repr).toList = _
    rw [String.toList_append, Nat.toList_repr]
    rfl
  have hsign : Spells ['-'] (Nat.toDigits 10 (n + 1) ++ []) .minus "-" := by
    refine ⟨'-', [], rfl, rfl, ?_⟩
    cases Nat.toDigits 10 (n + 1) ++ [] <;> rfl
  have hmagnitude := (spells_toDigits (n + 1) .nil).covers (offset + 1)
  rw [htext]
  exact (hsign.covers offset).append hmagnitude

private theorem tokenize_equal (hkey : IsIdentifier key) {numeral : String} {ts : List Token}
    (h : Covers (key.length + 4) numeral.toList [] ts) :
    ∃ k t : Token, k.kind = .identifier ∧ k.text = key ∧ t.kind = .equal ∧
      tokenize (key ++ " == " ++ numeral) = .ok (k :: t :: ts) := by
  have hblank : Delimited ([' '] ++ BinOp.equal.symbol.toList ++ [' '] ++ (numeral.toList ++ [])) :=
    .cons (by decide) _
  have hfirst := (hkey.spells hblank.not_isWordChar).covers 0
  obtain ⟨t, ht, hoperator⟩ := Grammar.covers_spaced .equal (0 + key.toList.length) (numeral.toList ++ [])
  have hnumeral : Covers (0 + (key.toList ++ ([' '] ++ BinOp.equal.symbol.toList ++ [' '])).length)
      numeral.toList [] ts := by
    rw [Nat.zero_add, List.length_append, String.length_toList]
    exact h
  have hcovers := (hfirst.append hoperator).append hnumeral
  have htext : key.toList ++ ([' '] ++ BinOp.equal.symbol.toList ++ [' ']) ++ numeral.toList =
      (key ++ " == " ++ numeral).toList := by
    rw [String.toList_append, String.toList_append]
    rfl
  rw [htext] at hcovers
  exact ⟨_, t, rfl, rfl, ht, hcovers.tokenize_eq⟩

/-! ### The expression -/

section

open Grammar

/-- A key, `==` and what can stand behind it as a sum without a group are a sentence within the standard limits. -/
private theorem parse_equal (hkey : IsIdentifier key) {numeral : String} {ts : List Token} {e : Expr} {d : Nat}
    (h : Covers (key.length + 4) numeral.toList [] ts) (he : Derives .signed ts e d 0) (hd : d ≤ 1) :
    Expr.parse (key ++ " == " ++ numeral) = .ok (.binary .equal (.field (.last key)) e) := by
  obtain ⟨k, t, hk, rfl, ht, htokens⟩ := tokenize_equal hkey h
  have hleft : Derives .boolean [k] (.field (.last k.text)) 0 0 := .boolean_of_operand (.path (.last k hk))
  have hright : Derives .boolean ts e d 0 := .arithmetic (.single .additive (.single .multiplicative he))
  have hequal : Level.relational.operator? t.kind = some .equal := by
    rw [ht]
    rfl
  have hwhole : Derives (.chain .relational) ([k] ++ t :: ts) _ _ _ := .chain (.link (.one hleft) hequal hright)
  refine parseWith_of_sentence ⟨_, _, _, htokens, hwhole.expression_of_chain, ?_, by decide⟩
  have hmax : max 0 d ≤ 128 := by omega
  exact hmax

/-- A sign in front of a literal that denotes nothing is an error, and no alternative is tried. -/
private theorem boolean_of_invalid {limits : Limits} (levels : Nat) {sign literal : Token} (hsign : sign.kind = .minus)
    (hliteral : literal.kind = .integer) (hvalue : Numeral.integer? literal.text.toList = none) (start start' : Nat)
    (rest : TokenStream) :
    boolean limits (levels + 2) (.token start sign (.token start' literal rest)) = .error (.invalidNumber literal) := by
  have hoperand : operand limits (levels + 1) (.token start' literal rest) = .error (.invalidNumber literal) := by
    rw [operand_succ, Rule.primary, hliteral]
    simp only [Rule.integer, hvalue, Option.map_none, Rule.number, Except.map]
  have hsigned : signed limits (levels + 2) (.token start sign (.token start' literal rest)) =
      .error (.invalidNumber literal) := by
    rw [signed, Rule.signed, hsign]
    show operand limits (levels + 1) (.token start' literal rest) >>= _ = _
    rw [hoperand]
    rfl
  exact boolean_of_signed_error (by rw [hsign]; rfl) rfl hsigned

private theorem parse_equal_of_invalid (hkey : IsIdentifier key) {numeral : String} {sign literal : Token}
    (h : Covers (key.length + 4) numeral.toList [] [sign, literal]) (hsign : sign.kind = .minus)
    (hliteral : literal.kind = .integer) (hvalue : Numeral.integer? literal.text.toList = none) :
    Expr.parse (key ++ " == " ++ numeral) = .error (.invalidNumber literal) := by
  obtain ⟨k, t, hk, rfl, ht, htokens⟩ := tokenize_equal hkey h
  obtain ⟨start, position, hpass⟩ := tokenize_eq_ok_iff.1 htokens
  simp only [TokenStream.Passes.cons_iff, TokenStream.Passes.nil_iff] at hpass
  obtain ⟨s₁, _, hstream, s₂, _, rfl, s₃, _, rfl, s₄, _, rfl, rfl⟩ := hpass
  generalize hrest : TokenStream.stop start (.endOfInput position) = rest at hstream
  have hleft : boolean .standard 129 (.token s₁ k (.token s₂ t (.token s₃ sign (.token s₄ literal rest)))) =
      .ok (.field (.last k.text), .token s₂ t (.token s₃ sign (.token s₄ literal rest))) := by
    obtain ⟨kind, text, p, q⟩ := k
    obtain ⟨kind', text', p', q'⟩ := t
    obtain rfl : kind = .identifier := hk
    obtain rfl : kind' = .equal := ht
    rfl
  have hlinks : Rule.chainFrom .standard BinOp.relational? (boolean .standard 129) 4096 (.field (.last k.text))
      (.token s₂ t (.token s₃ sign (.token s₄ literal rest))) = .error (.invalidNumber literal) := by
    rw [Rule.chainFrom, Rule.operatorAhead?, ht]
    show boolean .standard 129 (.token s₃ sign (.token s₄ literal rest)) >>= _ = _
    rw [boolean_of_invalid 127 hsign hliteral hvalue]
    rfl
  rw [Expr.parse, parseWith_eq_conclude, hstream]
  show expression .standard 129 _ >>= _ = _
  rw [expression, Rule.logical, Rule.chain, Rule.comparison, Rule.chain, hleft]
  show (Rule.chainFrom .standard BinOp.relational? (boolean .standard 129) 4096 _ _ >>= _) >>= _ = _
  rw [hlinks]
  rfl

end

/-! ### The answer -/

/-- Comparing the only field of a document with a number that is its own value. -/
private theorem test_equal {n : Int64} {e : Expr} {x : Float} (he : e.eval [(key, .integer n)] = .ok (.float x))
    (hx : (Float.ofInt n.toInt == x) = true) :
    (Expr.binary .equal (.field (.last key)) e).test [(key, .integer n)] = .ok true := by
  have hfield : (Expr.field (.last key)).eval [(key, .integer n)] = .ok (.integer n) := by
    have hlookup : List.lookup key [(key, Value.integer n)] = some (.integer n) := by simp
    show Except.ok ((List.lookup key [(key, Value.integer n)]).getD .null) = _
    rw [hlookup]
    rfl
  have hvalue : (Expr.binary .equal (.field (.last key)) e).eval [(key, .integer n)] = .ok (.bool true) := by
    rw [Expr.eval_binary, hfield, he, ← hx]
    rfl
  rw [Expr.test, hvalue]
  rfl

namespace Query

private theorem derives_literal {n position stop : Nat} (hn : n < Numeral.integerBound) :
    Grammar.Derives .operand [⟨.integer, String.ofList (Nat.toDigits 10 n), position, stop⟩]
      (.number (Float.ofNat n)) 0 0 := by
  refine .integer _ rfl ?_
  rw [String.toList_ofList, Numeral.integer?_toDigits, if_pos hn]

private theorem ofInt_beq_self (n : Int) : (Float.ofInt n == Float.ofInt n) = true := by
  rw [beq_self_eq_not_isNaN, isNaN_ofInt]
  rfl

/-- An integer that a document holds is tested for by its numeral.  Only the numeral of the least integer is no
expression, because the bounds of literals hold before the sign is applied. -/
theorem test_equal_numeral (n : Int64) (hkey : IsIdentifier key) :
    (n ≠ Int64.minValue → test [(key, .integer n)] (key ++ " == " ++ toString n) = .ok true) ∧
      (n = Int64.minValue → test [(key, .integer n)] (key ++ " == " ++ toString n) =
        .error (.parse (.invalidNumber ⟨.integer, "9223372036854775808", key.length + 5, key.length + 24⟩))) := by
  have htext : toString n = toString n.toInt := rfl
  rw [htext]
  constructor
  · intro hn
    have hlow : -9223372036854775808 < n.toInt := by
      have hle := n.le_toInt
      have hne : n.toInt ≠ -9223372036854775808 := fun h => hn (Int64.toInt_inj.1 h)
      omega
    have hhigh := n.toInt_lt
    cases hvalue : n.toInt with
    | ofNat m =>
      have hm : m < Numeral.integerBound := by
        rw [hvalue] at hhigh
        exact Int.ofNat_lt.1 hhigh
      have hparse := parse_equal hkey (covers_natural m _) (.unsigned (derives_literal hm)) (by decide)
      have hsame : (Float.ofInt n.toInt == Float.ofNat m) = true := by
        rw [hvalue]
        exact ofInt_beq_self (Int.ofNat m)
      rw [test_of_parse hparse, test_equal rfl hsame]
      rfl
    | negSucc m =>
      have hm : m + 1 < Numeral.integerBound := by
        rw [hvalue] at hlow
        have hbound : Numeral.integerBound = 9223372036854775808 := rfl
        omega
      have hparse := parse_equal hkey (covers_negative m _) (.sign _ rfl (derives_literal hm)) (by decide)
      have hsame : (Float.ofInt n.toInt == -Float.ofNat (m + 1)) = true := by
        rw [hvalue]
        exact ofInt_beq_self (Int.negSucc m)
      rw [test_of_parse hparse, test_equal rfl hsame]
      rfl
  · rintro rfl
    have hcovers := covers_negative 9223372036854775807 (key.length + 4)
    have hinvalid : Numeral.integer? (String.ofList (Nat.toDigits 10 9223372036854775808)).toList = none := by
      rw [String.toList_ofList, Numeral.integer?_toDigits, if_neg (by decide)]
    have hparse := parse_equal_of_invalid hkey hcovers rfl rfl hinvalid
    exact test_of_parse_error hparse _

/-- The greatest integer, under a key that begins like a reserved word. -/
theorem test_equal_numeral_greatest :
    IsIdentifier "true_1" ∧ Int64.maxValue ≠ Int64.minValue ∧
      test [("true_1", .integer Int64.maxValue)] "true_1 == 9223372036854775807" = .ok true := by
  have hkey : IsIdentifier "true_1" :=
    ⟨'t', ['r', 'u', 'e', '_', '1'], rfl, by decide, List.all_eq_true.1 (by decide), by decide, by decide, by decide⟩
  have hne : Int64.maxValue ≠ Int64.minValue := by decide
  exact ⟨hkey, hne, (test_equal_numeral Int64.maxValue hkey).1 hne⟩

/-- The least integer is not tested for by its numeral.  The same number with a point is an expression, and it holds. -/
theorem least_integer_untested :
    IsIdentifier "k" ∧
      test [("k", .integer Int64.minValue)] ("k" ++ " == " ++ toString Int64.minValue) =
        .error (.parse (.invalidNumber ⟨.integer, "9223372036854775808", 6, 25⟩)) ∧
      test [("k", .integer Int64.minValue)] ("k" ++ " == " ++ toString Int64.minValue ++ ".") = .ok true := by
  have hkey : IsIdentifier "k" :=
    ⟨'k', [], rfl, by decide, List.all_eq_true.1 (by decide), by decide, by decide, by decide⟩
  exact ⟨hkey, by decide +kernel, by decide +kernel⟩

end Query

end DocFilter
