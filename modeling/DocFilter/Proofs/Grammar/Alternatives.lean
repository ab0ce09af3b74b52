import DocFilter.Proofs.Grammar.Comparison

/-!
# All alternatives tried

The grammar has a group in two places: as an operand, and as a boolean of its own.  The rule for booleans does not try
the second one, because arithmetic has then already tried the first one at the same parenthesis.  The grammar here does
try it; it reads no other language (`Exhaustive.parse_eq_ok_iff`).

A second attempt can succeed where arithmetic fails behind the group, as in `(a) + ` with nothing after the plus sign.
But nothing goes on from there: what the exhaustive rules read to the end is a sentence, because they are sound too,
and every sentence is found without them.
-/

namespace DocFilter

namespace Rule

/-- A boolean for which all alternatives are tried: where arithmetic fails at a parenthesis with an error that an
alternative may repair, what `inside` reads behind the parenthesis and a closing one are the last alternative. -/
def booleanOrGroup (arithmetic deeper inside : Rule Expr) : Rule Expr := fun stream =>
  match stream with
  | .stop _ _ => boolean arithmetic deeper stream
  | .token _ head rest =>
    if head.kind = .leftParen then
      match arithmetic stream with
      | .ok result => .ok result
      | .error e =>
        if e.isBacktrackable then do
          let (inner, rest) ← inside rest
          let (_, rest) ← expect .rightParen rest
          return (inner, rest)
        else .error e
    else boolean arithmetic deeper stream

end Rule

namespace Grammar
namespace Exhaustive

mutual

/-- An operand of a comparison. -/
def boolean (limits : Limits) : (levels : Nat) → Rule Expr
  | 0, _ => .error (.tooDeep limits.maxDepth)
  | levels + 1, stream =>
    let inside := Rule.logical limits (boolean limits levels)
    let arithmetic := Rule.sum limits (Rule.signed (Rule.primary limits inside) (operand limits levels))
    Rule.booleanOrGroup arithmetic (boolean limits levels) inside stream

/-- An operand of a product without its sign. -/
def operand (limits : Limits) : (levels : Nat) → Rule Expr
  | 0, _ => .error (.tooDeep limits.maxDepth)
  | levels + 1, stream => Rule.primary limits (Rule.logical limits (boolean limits levels)) stream

end

/-- A complete expression. -/
def expression (limits : Limits) (levels : Nat) : Rule Expr :=
  Rule.logical limits (boolean limits levels)

/-- The expression that a text is if all alternatives are tried. -/
def parse (limits : Limits) (text : String) : Except ParseError Expr :=
  expression limits (limits.maxDepth + 1) (.read 0 text.toList) >>= fun p => conclude p.1 p.2

end Exhaustive

variable {limits : Limits} {levels : Nat}

/-! ### Soundness -/

private theorem Sound.booleanOrGroup {arithmetic deeper inside : Rule Expr}
    (hsum : Sound limits (levels + 1) (.chain .additive) arithmetic) (hdeeper : Sound limits levels .boolean deeper)
    (hinside : Sound limits levels (.chain .logical) inside) :
    Sound limits (levels + 1) .boolean (Rule.booleanOrGroup arithmetic deeper inside) := by
  intro stream rest e h
  unfold Rule.booleanOrGroup at h
  split at h
  · exact hsum.boolean hdeeper _ _ _ h
  · rename_i start head next
    split at h
    · rename_i hk
      split at h
      · rename_i hread
        obtain rfl := Except.ok.inj h
        exact hsum.arithmetic _ _ _ hread
      · split at h
        · obtain ⟨⟨inner, behind⟩, hinner, hthen⟩ := bind_eq_ok h
          obtain ⟨⟨closing, behind'⟩, hclosing, hlast⟩ := bind_eq_ok hthen
          obtain ⟨rfl, rfl⟩ := Prod.mk.inj (Except.ok.inj hlast)
          obtain ⟨start', rfl, hc⟩ := expect_eq_ok hclosing
          obtain ⟨ts, d, w, hpass, he, hd, hw⟩ := hinside _ _ _ hinner
          exact ⟨head :: (ts ++ [closing]), d + 1, w, .cons _ _ (hpass.append (.cons _ _ (.nil _))),
            .booleanGroup head closing hk he hc, by omega, hw⟩
        · cases h
    · exact hsum.boolean hdeeper _ _ _ h

private theorem exhaustive_sound (limits : Limits) (levels : Nat) :
    Sound limits levels .boolean (Exhaustive.boolean limits levels) ∧
      Sound limits levels .operand (Exhaustive.operand limits levels) := by
  induction levels with
  | zero => constructor <;> intro _ _ _ h <;> cases h
  | succ levels ih =>
    have hinside : Sound limits levels (.chain .logical) (Exhaustive.expression limits levels) :=
      Sound.chain (Sound.chain ih.1)
    have hoperand : Sound limits (levels + 1) .operand (Rule.primary limits (Exhaustive.expression limits levels)) :=
      hinside.primary
    exact ⟨Sound.booleanOrGroup (Sound.chain (Sound.chain (hoperand.signed ih.2))) ih.1 hinside, hoperand⟩

/-! ### Comparison with the grammar -/

/-- Whatever a boolean is without the last alternative, it is with it. -/
private theorem booleanOrGroup_follows {m : Relocation} {arithmetic arithmetic' deeper deeper' inside : Rule Expr}
    (h : RuleFollows m (fun _ => True) arithmetic arithmetic')
    (hdeeper : RuleFollows m (fun _ => True) deeper deeper') :
    RuleFollows m (fun _ => True) (Rule.boolean arithmetic deeper)
      (Rule.booleanOrGroup arithmetic' deeper' inside) := by
  intro stream stream' hstream
  have hboolean := boolean_follows (fun _ _ _ _ => trivial) h hdeeper hstream
  cases hstream with
  | stop start start' reason => exact hboolean
  | @token start start' head rest rest' hrest =>
    rw [Rule.booleanOrGroup]
    split
    · rename_i hk
      -- arithmetic is all that is tried at a parenthesis
      have hshipped : Rule.boolean arithmetic deeper (.token start head rest) =
          arithmetic (.token start head rest) := by
        rw [Rule.boolean, ← m.kind_token, hk]
      have harithmetic := h (hrest.token start start' head)
      rw [hshipped]
      revert harithmetic
      generalize arithmetic _ = x
      generalize arithmetic' _ = y
      rintro (hread | _ | _)
      · exact .ok hread
      · exact .free _ trivial
      · exact .free _ trivial
    · exact hboolean

private theorem exhaustive_follows (limits : Limits) (levels : Nat) :
    RuleFollows .identity (fun _ => True) (boolean limits levels) (Exhaustive.boolean limits levels) ∧
      RuleFollows .identity (fun _ => True) (operand limits levels) (Exhaustive.operand limits levels) := by
  have hchain : Leaves (fun _ => True) limits limits limits.maxChain limits.maxChain := .inl ⟨rfl, rfl⟩
  induction levels with
  | zero => constructor <;> intro _ _ _ <;> exact .free _ trivial
  | succ levels ih =>
    obtain ⟨hboolean, hoperand⟩ := ih
    have hgroup := primary_follows (fun _ _ _ _ => trivial) hchain (logical_follows hchain hboolean)
    exact ⟨booleanOrGroup_follows (sum_follows hchain (signed_follows hgroup hoperand)) hboolean, hgroup⟩

namespace Exhaustive

/-- Trying a group once more where arithmetic has failed reads no other language: the same texts are expressions, with
the same trees. -/
theorem parse_eq_ok_iff (limits : Limits) (text : String) (e : Expr) :
    parse limits text = .ok e ↔ Expr.parseWith limits text = .ok e := by
  have hsound {e : Expr} (h : parse limits text = .ok e) : Sentence limits text e :=
    sentence_of_conclude (Sound.chain (Sound.chain (exhaustive_sound limits _).1)) h
  constructor
  · intro h
    exact parseWith_of_sentence (hsound h)
  · intro h
    have hrule : RuleFollows .identity (fun _ => True) (Grammar.expression limits (limits.maxDepth + 1))
        (expression limits (limits.maxDepth + 1)) :=
      logical_follows (.inl ⟨rfl, rfl⟩) (exhaustive_follows limits _).1
    have hread : Follows .identity (fun _ => True) (fun _ _ => True) (Expr.parseWith limits text)
        (parse limits text) := by
      rw [parseWith_eq_conclude]
      exact (hrule (.refl (.read 0 text.toList))).bind fun p q hpq => conclude_follows p.1 q.1 hpq
    rw [h] at hread
    cases hparse : parse limits text with
    | error e' =>
      rw [hparse] at hread
      cases hread
    | ok e' => rw [(hsound hparse).unique (sentence_of_parseWith h)]

end Exhaustive

end Grammar
end DocFilter
