import DocFilter.Proofs.Grammar.Language
import DocFilter.Proofs.Token.Prolongation

/-!
# Errors that no continuation repairs

A rule looks at no more tokens than it needs for its answer, so what comes behind a text matters to it only if it has
read all of the text.  Then its error says that the text stops, or `HidesEnd`: a path that breaks off behind a dot is
reported at its first key, and an alternative that does not match is reported where it starts.  Every other error stays
as it is when the text goes on (`parseWith_prolonged`).

Each building block of the grammar persists in this sense if the rules that it is given do.
-/

namespace DocFilter
namespace Grammar

/-- The tokens are keys with a dot behind each of them, the last one included. -/
inductive BrokenPath : List Token → Prop where
  | last {key dot : Token} (hkey : key.kind = .identifier) (hdot : dot.kind = .dot) : BrokenPath [key, dot]
  | step {key dot : Token} (hkey : key.kind = .identifier) (hdot : dot.kind = .dot) {ts : List Token}
      (h : BrokenPath ts) : BrokenPath (key :: dot :: ts)

/-- The error names a token although the text with the tokens `ts` merely stops too early: the first key of a broken
path at the end of the text, or the token at which something starts that the text does not finish. -/
inductive HidesEnd (ts : List Token) : ParseError → Prop where
  | path (before : List Token) {after : List Token} {key : Token} (htokens : ts = before ++ key :: after)
      (h : BrokenPath (key :: after)) : HidesEnd ts (.unexpectedToken .leftParen key)
  | operand (position stop : Nat) : HidesEnd ts (.noAlternative position (.endOfStream stop))
  | alternatives (position : Nat) {source : ParseError} (h : HidesEnd ts source) :
      HidesEnd ts (.noAlternative position source)

/-- The error is that the text with the tokens `ts` has ended, said openly or hidden. -/
inductive Unfinished (ts : List Token) : ParseError → Prop where
  | stop (position : Nat) : Unfinished ts (.endOfStream position)
  | hidden {e : ParseError} (h : HidesEnd ts e) : Unfinished ts e

/-- The error is that the text has ended, be it inside a string. -/
inductive StopsShort (ts : List Token) : ParseError → Prop where
  | unfinished {e : ParseError} (h : Unfinished ts e) : StopsShort ts e
  | openString (position : Nat) : StopsShort ts (.scan ⟨.unterminatedString, position⟩)

theorem HidesEnd.behind {ts us : List Token} (h : ts <:+ us) {e : ParseError} (he : HidesEnd ts e) : HidesEnd us e := by
  induction he with
  | path before htokens hpath =>
    obtain ⟨first, rfl⟩ := h
    exact .path (first ++ before) (by rw [htokens, List.append_assoc]) hpath
  | operand position stop => exact .operand position stop
  | alternatives position _ ih => exact .alternatives position ih

/-- An alternative that does not match hides that the text has ended. -/
theorem Unfinished.alternatives {ts : List Token} {source : ParseError} (h : Unfinished ts source) (position : Nat) :
    Unfinished ts (.noAlternative position source) := by
  cases h with
  | stop p => exact .hidden (.operand position p)
  | hidden h => exact .hidden (.alternatives position h)

namespace StopsShort

variable {ts us : List Token}

/-- A rule that needs a token at an open stop stops short. -/
theorem stop {reason : Stop} (h : reason.isOpen) : StopsShort ts (.ofStop reason) := by
  cases reason with
  | endOfInput p => exact .unfinished (.stop p)
  | malformed e =>
    obtain ⟨fault, p⟩ := e
    obtain rfl := of_decide_eq_true h
    exact .openString p

theorem behind (h : ts <:+ us) {e : ParseError} (he : StopsShort ts e) : StopsShort us e := by
  cases he with
  | unfinished he =>
    cases he with
    | stop p => exact .unfinished (.stop p)
    | hidden he => exact .unfinished (.hidden (he.behind h))
  | openString p => exact .openString p

theorem alternatives {source : ParseError} (h : StopsShort ts source) (hb : source.isBacktrackable)
    (position : Nat) : StopsShort ts (.noAlternative position source) := by
  cases h with
  | unfinished h => exact .unfinished (h.alternatives position)
  | openString p => cases hb

end StopsShort

/-! ### Answers -/

/-- The text may go on behind all that was read, or the error is one of the free ones. -/
inductive Undecided (free : ParseError → Prop) {α : Type} : Except ParseError (α × TokenStream) → Prop where
  | ok (a : α) (start : Nat) {reason : Stop} (h : reason.isOpen) : Undecided free (.ok (a, .stop start reason))
  | error {e : ParseError} (h : free e) : Undecided free (.error e)

/-- How the answer for a text that goes on is bound by the one for the text, which has the tokens `ts`: it is the same
one, except for what is left, or the first one was undecided. -/
inductive Persists (free : ParseError → Prop) (ts : List Token) {α : Type} :
    Except ParseError (α × TokenStream) → Except ParseError (α × TokenStream) → Prop where
  | undecided {x : Except ParseError (α × TokenStream)} (h : Undecided free x)
      (y : Except ParseError (α × TokenStream)) : Persists free ts x y
  | ok (a : α) {rest rest' : TokenStream} (hsuffix : rest.tokens <:+ ts) (h : rest.Prolonged rest') :
      Persists free ts (.ok (a, rest)) (.ok (a, rest'))
  | error (e : ParseError) : Persists free ts (.error e) (.error e)

/-- The answers of the rule persist unless they say that the text stops. -/
def RulePersists {α : Type} (rule : Rule α) : Prop :=
  ∀ ⦃stream stream' : TokenStream⦄, stream.Prolonged stream' →
    Persists (StopsShort stream.tokens) stream.tokens (rule stream) (rule stream')

namespace Persists

variable {free free' : ParseError → Prop} {ts us : List Token} {α β : Type}

theorem imp {x y : Except ParseError (α × TokenStream)} (h : Persists free ts x y) (hfree : ∀ e, free e → free' e)
    (hsuffix : ts <:+ us) : Persists free' us x y := by
  cases h with
  | undecided h y =>
    cases h with
    | ok a start h => exact .undecided (.ok a start h) y
    | error h => exact .undecided (.error (hfree _ h)) y
  | ok a hrest h => exact .ok a (hrest.trans hsuffix) h
  | error e => exact .error e

/-- What holds of the rest of a text holds of the text. -/
theorem behind {x y : Except ParseError (α × TokenStream)} (h : Persists (StopsShort ts) ts x y) (hsuffix : ts <:+ us) :
    Persists (StopsShort us) us x y :=
  h.imp (fun _ => StopsShort.behind hsuffix) hsuffix

theorem bind {x y : Except ParseError (α × TokenStream)}
    {f : α × TokenStream → Except ParseError (β × TokenStream)} (h : Persists free ts x y)
    (hopen : ∀ a start reason, reason.isOpen → Undecided free (f (a, .stop start reason)))
    (hf : ∀ a rest rest', rest.tokens <:+ ts → rest.Prolonged rest' → Persists free ts (f (a, rest)) (f (a, rest'))) :
    Persists free ts (x >>= f) (y >>= f) := by
  cases h with
  | undecided h y =>
    cases h with
    | ok a start h => exact .undecided (hopen a start _ h) _
    | error h => exact .undecided (.error h) _
  | ok a hsuffix h => exact hf a _ _ hsuffix h
  | error e => exact .error e

/-- The error of a stop persists, or the text may go on there. -/
theorem ofStop {start : Nat} {reason : Stop} {stream : TokenStream} {rule : Rule α}
    (h : (TokenStream.stop start reason).Prolonged stream)
    (hrule : ∀ start reason, rule (.stop start reason) = .error (.ofStop reason)) :
    Persists (StopsShort ts) ts (rule (.stop start reason)) (rule stream) := by
  cases h with
  | stop =>
    rw [hrule]
    exact .error _
  | opened _ hopen =>
    rw [hrule]
    exact .undecided (.error (.stop hopen)) _

/-- What was read before a stop persists, or the text may go on there. -/
theorem okStop {start : Nat} {reason : Stop} {stream : TokenStream} {rule : Rule α} {a : α}
    (h : (TokenStream.stop start reason).Prolonged stream)
    (hrule : ∀ start reason, rule (.stop start reason) = .ok (a, .stop start reason)) :
    Persists free ts (rule (.stop start reason)) (rule stream) := by
  cases h with
  | stop =>
    rw [hrule]
    exact .ok a (List.nil_suffix ..) (.stop _ _)
  | opened _ hopen =>
    rw [hrule]
    exact .undecided (.ok a _ hopen) _

end Persists

/-! ### Building blocks -/

theorem expect_persists (k : TokenKind) : RulePersists (Rule.expect k) := by
  intro stream stream' h
  cases stream with
  | stop start reason => exact .ofStop h fun _ _ => rfl
  | token start head rest =>
    cases h with
    | token _ _ h =>
      rw [Rule.expect, Rule.expect]
      split
      · exact .ok head (List.suffix_cons ..) h
      · exact .error _

private theorem chainFrom_stop (limits : Limits) (operator? : TokenKind → Option BinOp) (operand : Rule Expr)
    (budget : Nat) (left : Expr) (start : Nat) (reason : Stop) :
    Rule.chainFrom limits operator? operand budget left (.stop start reason) = .ok (left, .stop start reason) := by
  cases budget <;> rfl

theorem chainFrom_persists (limits : Limits) (operator? : TokenKind → Option BinOp) {operand : Rule Expr}
    (h : RulePersists operand) (budget : Nat) (left : Expr) :
    RulePersists (Rule.chainFrom limits operator? operand budget left) := by
  induction budget generalizing left with
  | zero =>
    intro stream stream' hstream
    cases stream with
    | stop start reason => exact .okStop hstream fun _ _ => chainFrom_stop ..
    | token start head rest =>
      cases hstream with
      | token _ _ hrest =>
        rw [Rule.chainFrom, Rule.chainFrom, Rule.operatorAhead?, Rule.operatorAhead?]
        cases operator? head.kind with
        | none => exact .ok left (List.suffix_refl _) (.token start head hrest)
        | some op => exact .error _
  | succ budget ih =>
    intro stream stream' hstream
    cases stream with
    | stop start reason => exact .okStop hstream fun _ _ => chainFrom_stop ..
    | token start head rest =>
      cases hstream with
      | token _ _ hrest =>
        rw [Rule.chainFrom, Rule.chainFrom, Rule.operatorAhead?, Rule.operatorAhead?]
        cases operator? head.kind with
        | none => exact .ok left (List.suffix_refl _) (.token start head hrest)
        | some op =>
          have hright := (h hrest).behind (List.suffix_cons head rest.tokens)
          refine hright.bind (fun right start reason hopen => ?_) fun right behind behind' hsuffix hbehind => ?_
          · dsimp only
            rw [chainFrom_stop]
            exact .ok _ start hopen
          · exact (ih _ hbehind).behind hsuffix

theorem chain_persists (limits : Limits) (operator? : TokenKind → Option BinOp) {operand : Rule Expr}
    (h : RulePersists operand) : RulePersists (Rule.chain limits operator? operand) := by
  intro stream stream' hstream
  refine (h hstream).bind (fun left start reason hopen => ?_) fun left rest rest' hsuffix hrest => ?_
  · dsimp only
    rw [chainFrom_stop]
    exact .ok _ start hopen
  · exact (chainFrom_persists limits operator? h _ left hrest).behind hsuffix

/-- The error of a path with the tokens `ts` that breaks off where the text may go on. -/
private def BreaksOff (ts : List Token) (e : ParseError) : Prop :=
  BrokenPath ts ∧ ∃ reason : Stop, reason.isOpen ∧ e = .ofStop reason

theorem path_eq_pathFrom (limits : Limits) (start : Nat) {head : Token} (hk : head.kind = .identifier)
    (rest : TokenStream) : Rule.path limits (.token start head rest) =
      Rule.pathFrom limits limits.maxChain head.text rest := by
  rw [Rule.path, Rule.expect, if_pos hk]
  rfl

private theorem pathFrom_stop (limits : Limits) (budget : Nat) (key : String) (start : Nat) (reason : Stop) :
    Rule.pathFrom limits budget key (.stop start reason) = .ok (.last key, .stop start reason) := by
  cases budget <;> rfl

private theorem pathFrom_persists (limits : Limits) (budget : Nat) {key : Token} (hkey : key.kind = .identifier)
    {stream stream' : TokenStream} (hstream : stream.Prolonged stream') :
    Persists (BreaksOff (key :: stream.tokens)) stream.tokens (Rule.pathFrom limits budget key.text stream)
      (Rule.pathFrom limits budget key.text stream') := by
  induction budget generalizing key stream stream' with
  | zero =>
    cases stream with
    | stop start reason => exact .okStop hstream fun _ _ => pathFrom_stop ..
    | token start dot rest =>
      cases hstream with
      | token _ _ hrest =>
        rw [Rule.pathFrom, Rule.pathFrom, Rule.behindDot?, Rule.behindDot?]
        by_cases hdot : dot.kind = .dot
        · rw [if_pos hdot, if_pos hdot]
          exact .error _
        · rw [if_neg hdot, if_neg hdot]
          exact .ok _ (List.suffix_refl _) (.token start dot hrest)
  | succ budget ih =>
    cases stream with
    | stop start reason => exact .okStop hstream fun _ _ => pathFrom_stop ..
    | token start dot rest =>
      cases hstream with
      | @token _ _ _ rest' hrest =>
        rw [Rule.pathFrom, Rule.pathFrom, Rule.behindDot?, Rule.behindDot?]
        by_cases hdot : dot.kind = .dot
        · rw [if_pos hdot, if_pos hdot]
          dsimp only
          cases rest with
          | stop start' reason =>
            cases hrest with
            | stop => exact .error _
            | opened _ hopen => exact .undecided (.error ⟨.last hkey hdot, reason, hopen, rfl⟩) _
          | token start' next behind =>
            cases hrest with
            | token _ _ hbehind =>
              rw [Rule.expect, Rule.expect]
              by_cases hnext : next.kind = .identifier
              · rw [if_pos hnext, if_pos hnext]
                have hlonger (e : ParseError) (h : BreaksOff (next :: behind.tokens) e) :
                    BreaksOff (key :: dot :: next :: behind.tokens) e := ⟨.step hkey hdot h.1, h.2⟩
                have hpath := (ih hnext hbehind).imp hlonger (List.suffix_append [dot, next] behind.tokens)
                refine hpath.bind (fun path start reason hopen => .ok _ start hopen) ?_
                exact fun path rest rest' hsuffix hrest => .ok _ hsuffix hrest
              · rw [if_neg hnext, if_neg hnext]
                exact .error _
        · rw [if_neg hdot, if_neg hdot]
          exact .ok _ (List.suffix_refl _) (.token start dot hrest)

private theorem number_persists {free : ParseError → Prop} (head : Token) (value? : Option Float)
    {rest rest' : TokenStream} (h : rest.Prolonged rest') :
    Persists free (head :: rest.tokens) ((Rule.number head value?).map fun e => (e, rest))
      ((Rule.number head value?).map fun e => (e, rest')) := by
  cases value? with
  | some x => exact .ok _ (List.suffix_cons ..) h
  | none => exact .error _

theorem primary_persists (limits : Limits) {group : Rule Expr} (h : RulePersists group) :
    RulePersists (Rule.primary limits group) := by
  intro stream stream' hstream
  cases stream with
  | stop start reason => exact .ofStop hstream fun _ _ => rfl
  | token start head rest =>
    cases hstream with
    | @token _ _ _ rest' hrest =>
      rw [Rule.primary, Rule.primary]
      split
      · exact .ok _ (List.suffix_cons ..) hrest
      · rename_i hk
        have hpath := pathFrom_persists limits limits.maxChain hk hrest
        rw [path_eq_pathFrom limits start hk, path_eq_pathFrom limits start hk]
        revert hpath
        generalize Rule.pathFrom limits limits.maxChain head.text rest = x
        generalize Rule.pathFrom limits limits.maxChain head.text rest' = y
        -- a path that breaks off is reported at its head, unless it breaks off before an open string
        rintro (⟨⟨path, start, hopen⟩ | ⟨hbroken, reason, hopen, rfl⟩, y⟩ | ⟨path, hsuffix, hbehind⟩ | e)
        · exact .undecided (.ok _ start hopen) _
        · refine .undecided (.error ?_) _
          cases reason with
          | endOfInput p => exact .unfinished (.hidden (.path [] rfl hbroken))
          | malformed error => exact .stop hopen
        · exact .ok _ (hsuffix.trans (List.suffix_cons ..)) hbehind
        · exact .error _
      · exact .ok _ (List.suffix_cons ..) hrest
      · exact number_persists head _ hrest
      · exact number_persists head _ hrest
      · have hinner := (h hrest).behind (List.suffix_cons head rest.tokens)
        refine hinner.bind (fun inner start reason hopen => .error (.stop hopen)) ?_
        intro inner behind behind' hsuffix hbehind
        refine ((expect_persists .rightParen hbehind).behind hsuffix).bind ?_ ?_
        · exact fun _ start reason hopen => .ok _ start hopen
        · exact fun _ rest rest' hsuffix hrest => .ok _ hsuffix hrest
      · exact .error _

theorem signed_persists {operand deeper : Rule Expr} (h : RulePersists operand) (hdeeper : RulePersists deeper) :
    RulePersists (Rule.signed operand deeper) := by
  intro stream stream' hstream
  cases stream with
  | stop start reason => exact .ofStop hstream fun _ _ => rfl
  | token start head rest =>
    cases hstream with
    | token _ _ hrest =>
      rw [Rule.signed, Rule.signed]
      split
      · refine ((hdeeper hrest).behind (List.suffix_cons head rest.tokens)).bind ?_ ?_
        · exact fun _ start reason hopen => .ok _ start hopen
        · exact fun _ rest rest' hsuffix hrest => .ok _ hsuffix hrest
      · exact h (.token start head hrest)

theorem boolean_persists {arithmetic deeper : Rule Expr} (h : RulePersists arithmetic) (hdeeper : RulePersists deeper) :
    RulePersists (Rule.boolean arithmetic deeper) := by
  intro stream stream' hstream
  cases stream with
  | stop start reason => exact .ofStop hstream fun _ _ => rfl
  | token start head rest =>
    cases hstream with
    | @token _ _ _ rest' hrest =>
      rw [Rule.boolean, Rule.boolean]
      split
      · exact .ok _ (List.suffix_cons ..) hrest
      · exact .ok _ (List.suffix_cons ..) hrest
      · refine ((hdeeper hrest).behind (List.suffix_cons head rest.tokens)).bind ?_ ?_
        · exact fun _ start reason hopen => .ok _ start hopen
        · exact fun _ rest rest' hsuffix hrest => .ok _ hsuffix hrest
      · exact h (.token start head hrest)
      · have harithmetic := h (.token start head hrest)
        revert harithmetic
        generalize arithmetic (.token start head rest) = x
        generalize arithmetic (.token start head rest') = y
        rintro (⟨⟨e, start, hopen⟩ | hshort, y⟩ | ⟨e, hsuffix, hbehind⟩ | e)
        · exact .undecided (.ok e start hopen) _
        · refine .undecided (.error ?_) _
          split
          · rename_i hb
            exact hshort.alternatives hb head.position
          · exact hshort
        · exact .ok e hsuffix hbehind
        · exact .error _

/-! ### The grammar -/

theorem expression_persists (limits : Limits) (levels : Nat) : RulePersists (expression limits levels) := by
  refine (rule_induction limits (P := fun _ _ rule => RulePersists rule) ?_ ?_ ?_ ?_ ?_ levels).2.2
  · exact fun _ _ _ _ => .error _
  · exact fun level _ _ h => chain_persists limits level.operator? h
  · exact fun h => primary_persists limits h
  · exact fun h hdeeper => signed_persists h hdeeper
  · exact fun h hdeeper => boolean_persists h hdeeper

/-- Behind an expression an open stop can only be inside a string. -/
private theorem stopsShort_of_conclude {e : Expr} {error : ParseError} {start : Nat} {reason : Stop} {ts : List Token}
    (h : conclude e (.stop start reason) = .error error) (hopen : reason.isOpen) : StopsShort ts error := by
  cases reason with
  | endOfInput p => cases h
  | malformed fault =>
    obtain rfl := Except.error.inj h
    exact .stop hopen

/-- What is left behind an expression leads to the same error when the text goes on, unless the text stops there. -/
private theorem conclude_prolonged {e : Expr} {error : ParseError} {rest rest' : TokenStream} {ts : List Token}
    (h : conclude e rest = .error error) (hrest : rest.Prolonged rest') (hshort : ¬StopsShort ts error) :
    conclude e rest' = .error error := by
  cases hrest with
  | stop => exact h
  | token =>
    obtain rfl := Except.error.inj h
    rfl
  | opened _ hopen => exact absurd (stopsShort_of_conclude h hopen) hshort

/-- A text whose error is not that it stops short has this error however it goes on. -/
theorem parseWith_append_of_error {limits : Limits} {text : String} {error : ParseError}
    (h : Expr.parseWith limits text = .error error)
    (hshort : ¬StopsShort (TokenStream.read 0 text.toList).tokens error) {more : String}
    (hmore : Delimited more.toList) : Expr.parseWith limits (text ++ more) = .error error := by
  have hstream : (TokenStream.read 0 text.toList).Prolonged (.read 0 (text ++ more).toList) := by
    rw [String.toList_append]
    exact TokenStream.prolonged_readFrom 0 0 0 text.toList hmore (Nat.zero_le _)
  have hread := expression_persists limits (limits.maxDepth + 1) hstream
  rw [parseWith_eq_conclude] at h ⊢
  revert hread h
  generalize expression limits (limits.maxDepth + 1) (.read 0 text.toList) = x
  generalize expression limits (limits.maxDepth + 1) (.read 0 (text ++ more).toList) = y
  rintro h (⟨⟨e, start, hopen⟩ | hstops, y⟩ | ⟨e, -, hrest⟩ | e)
  · exact absurd (stopsShort_of_conclude h hopen) hshort
  · obtain rfl := Except.error.inj h
    exact absurd hstops hshort
  · exact conclude_prolonged h hrest hshort
  · exact h

end Grammar
end DocFilter
