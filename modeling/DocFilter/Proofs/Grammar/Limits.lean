import DocFilter.Proofs.Grammar.Comparison
import DocFilter.Proofs.Grammar.Extent

/-!
# Limits

Limits only ever take answers away (`parseWith_limits`): an answer that is not about a limit is the answer under all
wider limits, and every text that some limits admit demands a certain depth and a certain width of them.  For errors
the proof compares two readings of the same text of which the first is free where it exceeds a limit; for trees it is
that wider limits admit the same sentences.
-/

namespace DocFilter
namespace Grammar

/-- The text is an expression with the tree `e` that demands exactly the given depth and width of the limits. -/
structure Demands (text : String) (e : Expr) (depth width : Nat) : Prop where
  /-- The depth counts the groups, negations and signs around one point, and the width the operators of one chain or
  the dots of one path. -/
  extent : ∃ ts, tokenize text = .ok ts ∧ IsGreatest (Phrase.nestings ⟨.chain .logical, ts, e⟩) depth ∧
    IsGreatest (Phrase.lengths ⟨.chain .logical, ts, e⟩) width
  /-- In a text that is itself a chain, operands beside each other are not deeper together than apart. -/
  siblings : ∀ {level : Level} {n : Nat} {ts us : List Token} {t : Token} {op : BinOp} {left right : Expr}
    {d w d' w' : Nat}, tokenize text = .ok (ts ++ t :: us) → Derives (.links level n) ts left d w →
    level.operator? t.kind = some op → Derives level.operand us right d' w' → depth = max d d'
  admitted : ∀ limits : Limits, depth ≤ limits.maxDepth → width ≤ limits.maxChain →
    Expr.parseWith limits text = .ok e
  refused : ∀ limits : Limits, ¬(depth ≤ limits.maxDepth ∧ width ≤ limits.maxChain) →
    Expr.parseWith limits text = .error (.tooDeep limits.maxDepth) ∨
      Expr.parseWith limits text = .error (.chainTooLong limits.maxChain)

private theorem Derives.demands {text : String} {ts : List Token} {e : Expr} {depth width : Nat}
    (h : Derives (.chain .logical) ts e depth width) (htokens : tokenize text = .ok ts) :
    Demands text e depth width where
  extent := ⟨ts, htokens, h.isGreatest_depth htokens, h.isGreatest_width htokens⟩
  siblings := by
    intro level n us vs t op left right d w d' w' hsplit hl ht hr
    have hchain := (Derives.chain (.link hl ht hr)).expression_of_chain
    obtain rfl := Except.ok.inj (htokens.symm.trans hsplit)
    exact (h.extent_unique hchain htokens).1
  admitted limits hdepth hwidth := (h.parseWith_settles htokens limits).1 ⟨hdepth, hwidth⟩
  refused limits := (h.parseWith_settles htokens limits).2

/-- What parsing answers stays the answer under wider limits, unless it is that a limit is exceeded. -/
theorem parseWith_widen {limits limits' : Limits} {text : String}
    (hdepth : limits.maxDepth ≤ limits'.maxDepth) (hchain : limits.maxChain ≤ limits'.maxChain)
    (h : ∀ error, Expr.parseWith limits text = .error error → error.isLimit = false) :
    Expr.parseWith limits' text = Expr.parseWith limits text := by
  have hfree : ∀ e e' : ParseError, e.isLimit = true → e.isBacktrackable = true → e'.isLimit = true := by
    intro e e' hlimit hback
    cases e <;> cases hlimit <;> cases hback
  have hfollows := parseWith_follows hfree (TokenStream.Relocated.refl (.read 0 text.toList))
    (.inr ⟨Nat.succ_le_succ hdepth, fun _ he => he⟩) (.inr ⟨hchain, fun _ he => he⟩)
  cases hfirst : Expr.parseWith limits text with
  | ok e => exact parseWith_of_sentence ((sentence_of_parseWith hfirst).mono hdepth hchain)
  | error error =>
    have hno := h error hfirst
    rw [hfirst] at hfollows
    generalize Expr.parseWith limits' text = second at hfollows
    cases hfollows with
    | error => rw [Relocation.error_identity]
    | free result he =>
      rw [hno] at he
      cases he

/-- An answer that is not about a limit is the answer under all wider limits; and a text that some limits admit has a
depth and a width such that limits admit it exactly if they are not below these, and are reported else. -/
theorem parseWith_limits (text : String) :
    (∀ limits limits' : Limits, limits.maxDepth ≤ limits'.maxDepth → limits.maxChain ≤ limits'.maxChain →
      (∀ error, Expr.parseWith limits text = .error error → error.isLimit = false) →
        Expr.parseWith limits' text = Expr.parseWith limits text) ∧
      ∀ (admitting : Limits) (e : Expr), Expr.parseWith admitting text = .ok e →
        ∃ depth width, Demands text e depth width := by
  constructor
  · intro limits limits' hdepth hchain h
    exact parseWith_widen hdepth hchain h
  · intro admitting e h
    obtain ⟨ts, depth, width, htokens, he, -, -⟩ := sentence_of_parseWith h
    exact ⟨depth, width, he.demands htokens⟩

/-- A group under a negation, with a path and a chain in it. -/
theorem parseWith_limits_group :
    Expr.parseWith ⟨2, 1⟩ "!(a.b == c)" =
        .ok (.not (.binary .equal (.field (.step "a" (.last "b"))) (.field (.last "c")))) ∧
      Expr.parseWith ⟨9, 9⟩ "!(a.b == c)" = Expr.parseWith ⟨2, 1⟩ "!(a.b == c)" ∧
      ∃ depth width, Demands "!(a.b == c)"
        (.not (.binary .equal (.field (.step "a" (.last "b"))) (.field (.last "c")))) depth width := by
  have hparse : Expr.parseWith ⟨2, 1⟩ "!(a.b == c)" =
      .ok (.not (.binary .equal (.field (.step "a" (.last "b"))) (.field (.last "c")))) := rfl
  refine ⟨hparse, (parseWith_limits _).1 ⟨2, 1⟩ ⟨9, 9⟩ (by decide) (by decide) ?_, (parseWith_limits _).2 _ _ hparse⟩
  intro error herror
  rw [hparse] at herror
  cases herror

end Grammar
end DocFilter
