import DocFilter.Proofs.Grammar.Prolongation
import DocFilter.Proofs.Token.Seam
import Mathlib.Data.List.Basic

/-!
# Unfinished texts

A text that stops short can be finished: what it lacks is an operand, a key behind a dot or nothing, and then each of
its open groups is closed (`Ending`).  The tree is built along the run of the rules.  What a rule has read is derived
within the limits already, the rule that fails is finished by its own ending, and what encloses it takes the ending
over, a group with one more parenthesis.  No limit stands against it, since an exceeded limit is reported earlier.
-/

namespace DocFilter
namespace Grammar

/-- The tokens are the part, within the limits. -/
def Fits (limits : Limits) (levels : Nat) (part : Part) (ts : List Token) : Prop :=
  ∃ e d w, Derives part ts e d w ∧ d < levels ∧ w ≤ limits.maxChain

namespace Fits

variable {limits : Limits} {levels : Nat} {ts us : List Token}

theorem one {level : Level} (h : Fits limits levels level.operand ts) : Fits limits levels (.links level 0) ts := by
  obtain ⟨e, d, w, he, hd, hw⟩ := h
  exact ⟨e, d, w, .one he, hd, hw⟩

theorem link {level : Level} {n : Nat} {t : Token} {op : BinOp} (h : Fits limits levels (.links level n) ts)
    (ht : level.operator? t.kind = some op) (hn : n < limits.maxChain) (h' : Fits limits levels level.operand us) :
    Fits limits levels (.links level (n + 1)) (ts ++ t :: us) := by
  obtain ⟨left, d, w, hleft, hd, hw⟩ := h
  obtain ⟨right, d', w', hright, hd', hw'⟩ := h'
  exact ⟨_, _, _, hleft.link ht hright, by omega, by omega⟩

theorem chain {level : Level} {n : Nat} (h : Fits limits levels (.links level n) ts) :
    Fits limits levels (.chain level) ts := by
  obtain ⟨e, d, w, he, hd, hw⟩ := h
  exact ⟨e, d, w, he.chain, hd, hw⟩

theorem boolean_of_operand (h : Fits limits levels .operand ts) : Fits limits levels .boolean ts := by
  obtain ⟨e, d, w, he, hd, hw⟩ := h
  exact ⟨e, d, w, he.boolean_of_operand, hd, hw⟩

theorem arithmetic (h : Fits limits levels (.chain .additive) ts) : Fits limits levels .boolean ts := by
  obtain ⟨e, d, w, he, hd, hw⟩ := h
  exact ⟨e, d, w, .arithmetic he, hd, hw⟩

theorem negation {t : Token} (ht : t.kind = .notOp) (h : Fits limits levels .boolean ts) :
    Fits limits (levels + 1) .boolean (t :: ts) := by
  obtain ⟨e, d, w, he, hd, hw⟩ := h
  exact ⟨_, d + 1, w, .negation t ht he, by omega, hw⟩

theorem unsigned (h : Fits limits levels .operand ts) : Fits limits levels .signed ts := by
  obtain ⟨e, d, w, he, hd, hw⟩ := h
  exact ⟨e, d, w, .unsigned he, hd, hw⟩

theorem sign {t : Token} {sign : Sign} (ht : Sign.ofKind? t.kind = some sign) (h : Fits limits levels .operand ts) :
    Fits limits (levels + 1) .signed (t :: ts) := by
  obtain ⟨e, d, w, he, hd, hw⟩ := h
  exact ⟨_, d + 1, w, .sign t ht he, by omega, hw⟩

theorem group {opening closing : Token} (ho : opening.kind = .leftParen) (h : Fits limits levels (.chain .logical) ts)
    (hc : closing.kind = .rightParen) : Fits limits (levels + 1) .operand (opening :: (ts ++ [closing])) := by
  obtain ⟨e, d, w, he, hd, hw⟩ := h
  exact ⟨e, d + 1, w, .group opening closing ho he hc, by omega, hw⟩

end Fits

/-- What a rule has read fits. -/
theorem Sound.fits {limits : Limits} {levels : Nat} {part : Part} {rule : Rule Expr} (h : Sound limits levels part rule)
    {stream rest : TokenStream} {e : Expr} (hread : rule stream = .ok (e, rest)) :
    ∃ ts, stream.Passes ts rest ∧ Fits limits levels part ts := by
  obtain ⟨ts, d, w, hpass, he, hd, hw⟩ := h _ _ _ hread
  exact ⟨ts, hpass, e, d, w, he, hd, hw⟩

/-! ### Endings -/

/-- What an unfinished text lacks before its groups can be closed. -/
inductive Lack where
  | nothing
  | operand
  | key
  deriving DecidableEq, Repr

namespace Lack

def kinds : Lack → List TokenKind
  | nothing => []
  | operand => [.nullWord]
  | key => [.identifier]

def spelling : Lack → List Char
  | nothing => []
  | operand => ['n', 'u', 'l', 'l']
  | key => ['k']

end Lack

/-- What an unfinished text is finished with: what it lacks and a closing parenthesis for each of its open groups. -/
structure Ending where
  lack : Lack
  groups : Nat
  deriving DecidableEq, Repr

namespace Ending

def kinds (x : Ending) : List TokenKind :=
  x.lack.kinds ++ List.replicate x.groups .rightParen

def spelling (x : Ending) : List Char :=
  x.lack.spelling ++ List.replicate x.groups ')'

/-- The same ending inside of one more group. -/
def inGroup (x : Ending) : Ending :=
  { x with groups := x.groups + 1 }

theorem kinds_inGroup (x : Ending) : x.inGroup.kinds = x.kinds ++ [.rightParen] := by
  simp [kinds, inGroup, List.replicate_succ']

end Ending

namespace Unfinished

variable {all : List Token} {e : ParseError}

theorem isBacktrackable (h : Unfinished all e) : e.isBacktrackable := by
  cases h with
  | stop position => rfl
  | hidden h => cases h <;> rfl

theorem source {position : Nat} (h : Unfinished all (.noAlternative position e)) : Unfinished all e := by
  cases h with
  | hidden h =>
    cases h with
    | operand _ stop => exact .stop stop
    | alternatives _ h => exact .hidden h

/-- A token is reported only where a broken path starts. -/
theorem brokenPath {expected : TokenKind} {found : Token} (h : Unfinished all (.unexpectedToken expected found)) :
    expected = .leftParen ∧ ∃ before after, all = before ++ found :: after ∧ BrokenPath (found :: after) := by
  cases h with
  | hidden h =>
    cases h with
    | path before htokens h => exact ⟨rfl, before, _, htokens, h⟩

/-- An alternative reports an unfinished text only in place of an error that it may repair. -/
theorem eq_report {α : Type} {e' report : ParseError} (h : Unfinished all e)
    (he : (.error (if e'.isBacktrackable then report else e') : Except ParseError α) = .error e) :
    e'.isBacktrackable ∧ e = report := by
  obtain rfl := Except.error.inj he
  by_cases hb : e'.isBacktrackable
  · exact ⟨hb, if_pos hb⟩
  · rw [if_neg hb] at h
    exact absurd h.isBacktrackable hb

theorem reason_of_ofStop {reason : Stop} (h : Unfinished all (.ofStop reason)) : ∃ p, reason = .endOfInput p := by
  cases reason with
  | endOfInput p => exact ⟨p, rfl⟩
  | malformed fault => cases h.isBacktrackable

end Unfinished

/-- The tokens `ts` up to a stop for the `reason` fit as the part once an ending stands behind them.  If the error `e`
is openly that the text has ended, no key is lacking. -/
def Finishes (limits : Limits) (levels : Nat) (part : Part) (ts : List Token) (reason : Stop) (e : ParseError) : Prop :=
  (∃ p, reason = .endOfInput p) ∧ ∃ x : Ending, (e.isEndOfStream → x.lack ≠ .key) ∧
    ∀ us : List Token, us.map Token.kind = x.kinds → Fits limits levels part (ts ++ us)

/-- Whenever the rule fails because the text with the tokens `all` has ended, the text can be finished. -/
def Finishable (all : List Token) (limits : Limits) (levels : Nat) (part : Part) (rule : Rule Expr) : Prop :=
  ∀ ⦃stream : TokenStream⦄ ⦃e : ParseError⦄, stream.tokens <:+ all → rule stream = .error e → Unfinished all e →
    Finishes limits levels part stream.tokens stream.reason e

variable {all : List Token} {limits : Limits} {levels : Nat} {rule : Rule Expr}

/-- What encloses an unfinished part takes its ending over. -/
theorem Finishes.imp {levels' : Nat} {part part' : Part} {ts ts' : List Token} {reason : Stop} {e : ParseError}
    (h : Finishes limits levels part ts reason e)
    (himp : ∀ us, Fits limits levels part (ts ++ us) → Fits limits levels' part' (ts' ++ us)) :
    Finishes limits levels' part' ts' reason e := by
  obtain ⟨hreason, x, hlack, hfits⟩ := h
  exact ⟨hreason, x, hlack, fun us hus => himp us (hfits us hus)⟩

/-- A missing operand is a lack that `null` makes good. -/
theorem finishes_operand (limits : Limits) (levels : Nat) {reason : Stop} (h : Unfinished all (.ofStop reason)) :
    Finishes limits (levels + 1) .operand [] reason (.ofStop reason) := by
  refine ⟨h.reason_of_ofStop, ⟨.operand, 0⟩, fun _ => by decide, fun us hus => ?_⟩
  obtain ⟨t, rfl, ht⟩ := List.map_eq_singleton_iff.1 hus
  exact ⟨.null, 0, 0, .nullWord t ht, by omega, by omega⟩

/-! ### Building blocks -/

private theorem chainFrom_finishable {level : Level} (hsound : Sound limits levels level.operand rule)
    (h : Finishable all limits levels level.operand rule) {n budget : Nat} (hn : n + budget = limits.maxChain)
    {ts : List Token} (hlinks : Fits limits levels (.links level n) ts) {left : Expr} {stream : TokenStream}
    {e : ParseError} (hstream : stream.tokens <:+ all)
    (hrule : Rule.chainFrom limits level.operator? rule budget left stream = .error e) (he : Unfinished all e) :
    Finishes limits levels (.chain level) (ts ++ stream.tokens) stream.reason e := by
  -- each operator moves one from the budget to the links, so there is always room for the link that is finished
  induction budget generalizing n ts left stream with
  | zero =>
    unfold Rule.chainFrom at hrule
    split at hrule
    · cases hrule
    · obtain rfl := Except.error.inj hrule
      cases he.isBacktrackable
  | succ budget ih =>
    unfold Rule.chainFrom at hrule
    split at hrule
    · cases hrule
    · rename_i op rest hop
      obtain ⟨start, t, rfl, ht⟩ := operatorAhead?_eq_some hop
      have hrest : rest.tokens <:+ all := (List.suffix_cons t rest.tokens).trans hstream
      dsimp only at hrule
      rcases bind_eq_error hrule with hright | ⟨⟨right, behind⟩, hright, hmore⟩
      · refine (h hrest hright he).imp fun us hus => ?_
        have hchain := (hlinks.link ht (by omega) hus).chain
        simpa [TokenStream.tokens] using hchain
      · obtain ⟨us, hpass, hus⟩ := hsound.fits hright
        have hbehind : behind.tokens <:+ all := hpass.tokens_suffix.trans hrest
        have hfinish := ih (by omega) (hlinks.link ht (by omega) hus) hbehind hmore
        rw [TokenStream.tokens, TokenStream.reason, hpass.tokens_eq, hpass.reason_eq]
        simpa using hfinish

theorem chain_finishable {level : Level} (hsound : Sound limits levels level.operand rule)
    (h : Finishable all limits levels level.operand rule) :
    Finishable all limits levels (.chain level) (Rule.chain limits level.operator? rule) := by
  intro stream e hstream hrule he
  rcases bind_eq_error hrule with hleft | ⟨⟨left, rest⟩, hleft, hmore⟩
  · exact (h hstream hleft he).imp fun us hus => hus.one.chain
  · obtain ⟨ts, hpass, hts⟩ := hsound.fits hleft
    have hrest : rest.tokens <:+ all := hpass.tokens_suffix.trans hstream
    have hfinish := chainFrom_finishable hsound h (Nat.zero_add _) hts.one hrest hmore he
    rw [hpass.tokens_eq, hpass.reason_eq]
    exact hfinish

private theorem BrokenPath.head {key : Token} {ts : List Token} (h : BrokenPath (key :: ts)) :
    key.kind = .identifier := by
  cases h with
  | last hkey _ => exact hkey
  | step hkey _ _ => exact hkey

/-- One more key finishes a broken path that is not too long, and only the end of the text has broken it off. -/
private theorem pathFrom_broken {budget : Nat} {key : Token} {stream : TokenStream} {e : ParseError}
    (hbroken : BrokenPath (key :: stream.tokens)) (h : Rule.pathFrom limits budget key.text stream = .error e)
    (hb : e.isBacktrackable) : (∃ p, stream.reason = .endOfInput p) ∧ ∀ t : Token, t.kind = .identifier →
      ∃ path dots, DerivesPath (key :: (stream.tokens ++ [t])) path dots ∧ dots ≤ budget := by
  induction budget generalizing key stream with
  | zero =>
    unfold Rule.pathFrom at h
    split at h
    · cases h
    · obtain rfl := Except.error.inj h
      cases hb
  | succ budget ih =>
    unfold Rule.pathFrom at h
    split at h
    · cases h
    · rename_i rest hrest
      obtain ⟨start, dot, rfl, hdot⟩ := behindDot?_eq_some hrest
      dsimp only at h
      cases rest with
      | stop start' reason =>
        obtain rfl := Except.error.inj h
        cases hbroken with
        | last hkey _ =>
          refine ⟨?_, fun t ht => ⟨_, 1, .step key dot hkey hdot (.last t ht), by omega⟩⟩
          cases reason with
          | endOfInput p => exact ⟨p, rfl⟩
          | malformed fault => cases hb
        | step _ _ h => cases h
      | token start' next behind =>
        cases hbroken with
        | step hkey _ hbroken =>
          rw [Rule.expect, if_pos hbroken.head] at h
          have hpath : Rule.pathFrom limits budget next.text behind = .error e := by
            rcases bind_eq_error h with hnext | ⟨_, hnext, hthen⟩
            · cases hnext
            · obtain rfl := Except.ok.inj hnext
              rcases bind_eq_error hthen with hpath | ⟨_, -, hlast⟩
              · exact hpath
              · cases hlast
          obtain ⟨hreason, hkeys⟩ := ih hbroken hpath
          refine ⟨hreason, fun t ht => ?_⟩
          obtain ⟨path, dots, hder, hdots⟩ := hkeys t ht
          exact ⟨_, dots + 1, .step key dot hkey hdot hder, by omega⟩

private theorem after_unique (hnodup : all.Nodup) {t : Token} {ts before after : List Token} (h : t :: ts <:+ all)
    (h' : all = before ++ t :: after) : after = ts := by
  obtain ⟨front, rfl⟩ := h
  obtain ⟨-, hts, hfront⟩ := List.nodup_append.1 hnodup
  have hnot : t ∉ front := fun ht => hfront t ht t (.head _) rfl
  have heq := (List.append_cons_inj_of_notMem hnot (List.nodup_cons.1 hts).1).1 h'
  exact heq.2.2.symm

theorem eq_of_number_eq_error {t : Token} {value? : Option Float} {rest : TokenStream} {e : ParseError}
    (h : ((Rule.number t value?).map fun expr => (expr, rest)) = .error e) : e = .invalidNumber t := by
  cases value? with
  | some x => cases h
  | none => exact (Except.error.inj h).symm

theorem primary_finishable (hnodup : all.Nodup) {group : Rule Expr}
    (hsound : Sound limits levels (.chain .logical) group) (h : Finishable all limits levels (.chain .logical) group) :
    Finishable all limits (levels + 1) .operand (Rule.primary limits group) := by
  intro stream e hstream hrule he
  cases stream with
  | stop start reason =>
    obtain rfl := Except.error.inj hrule
    exact finishes_operand limits levels he
  | token start head rest =>
    have hrest : rest.tokens <:+ all := (List.suffix_cons head rest.tokens).trans hstream
    rw [Rule.primary] at hrule
    split at hrule
    · cases hrule
    · rename_i hk
      rw [path_eq_pathFrom limits start hk] at hrule
      split at hrule
      · cases hrule
      · rename_i e' hpath
        obtain ⟨hb, rfl⟩ := he.eq_report hrule
        -- the token that is reported is the head, so the broken path starts here and not elsewhere in the text
        obtain ⟨-, before, after, htokens, hbroken⟩ := he.brokenPath
        obtain rfl := after_unique hnodup hstream htokens
        obtain ⟨hreason, hkeys⟩ := pathFrom_broken hbroken hpath hb
        refine ⟨hreason, ⟨.key, 0⟩, fun h => absurd h Bool.false_ne_true, fun us hus => ?_⟩
        obtain ⟨t, rfl, ht⟩ := List.map_eq_singleton_iff.1 hus
        obtain ⟨path, dots, hder, hdots⟩ := hkeys t ht
        exact ⟨.field path, 0, dots, .path hder, by omega, hdots⟩
    · cases hrule
    · obtain rfl := eq_of_number_eq_error hrule
      cases he.isBacktrackable
    · obtain rfl := eq_of_number_eq_error hrule
      cases he.isBacktrackable
    · rename_i hopening
      rcases bind_eq_error hrule with hinner | ⟨⟨inner, behind⟩, hinner, hclose⟩
      · obtain ⟨hreason, x, hlack, hfits⟩ := h hrest hinner he
        refine ⟨hreason, x.inGroup, hlack, fun us hus => ?_⟩
        rw [x.kinds_inGroup] at hus
        obtain ⟨vs, ws, rfl, hvs, hws⟩ := List.map_eq_append_iff.1 hus
        obtain ⟨closing, rfl, hclosing⟩ := List.map_eq_singleton_iff.1 hws
        have hgroup := Fits.group hopening (hfits vs hvs) hclosing
        simpa [TokenStream.tokens] using hgroup
      · obtain ⟨ts, hpass, hts⟩ := hsound.fits hinner
        rcases bind_eq_error hclose with hclosing | ⟨_, -, hlast⟩
        · cases behind with
          | stop start' reason =>
            obtain rfl := Except.error.inj hclosing
            have htokens := hpass.tokens_eq
            have hreason := hpass.reason_eq
            rw [TokenStream.tokens, List.append_nil] at htokens
            rw [TokenStream.reason] at hreason
            rw [TokenStream.tokens, TokenStream.reason, htokens, hreason]
            refine ⟨he.reason_of_ofStop, ⟨.nothing, 1⟩, fun _ => by decide, fun us hus => ?_⟩
            obtain ⟨closing, rfl, hkind⟩ := List.map_eq_singleton_iff.1 hus
            exact .group hopening hts hkind
          | token start' found behind =>
            rw [Rule.expect] at hclosing
            split at hclosing
            · cases hclosing
            · obtain rfl := Except.error.inj hclosing
              cases he.brokenPath.1
        · cases hlast
    · rename_i hidentifier _ _ _ _
      obtain rfl := Except.error.inj hrule
      obtain ⟨-, _, _, -, hbroken⟩ := he.brokenPath
      exact absurd hbroken.head hidentifier

theorem signed_finishable {operand deeper : Rule Expr} (h : Finishable all limits (levels + 1) .operand operand)
    (hdeeper : Finishable all limits levels .operand deeper) :
    Finishable all limits (levels + 1) .signed (Rule.signed operand deeper) := by
  intro stream e hstream hrule he
  cases stream with
  | stop start reason =>
    obtain rfl := Except.error.inj hrule
    exact (finishes_operand limits levels he).imp fun us hus => hus.unsigned
  | token start head rest =>
    rw [Rule.signed] at hrule
    split at hrule
    · rename_i sign hsign
      have hrest : rest.tokens <:+ all := (List.suffix_cons head rest.tokens).trans hstream
      rcases bind_eq_error hrule with hoperand | ⟨_, -, hlast⟩
      · exact (hdeeper hrest hoperand he).imp fun us hus => hus.sign hsign
      · cases hlast
    · exact (h hstream hrule he).imp fun us hus => hus.unsigned

theorem boolean_finishable {arithmetic deeper : Rule Expr}
    (h : Finishable all limits (levels + 1) (.chain .additive) arithmetic)
    (hdeeper : Finishable all limits levels .boolean deeper) :
    Finishable all limits (levels + 1) .boolean (Rule.boolean arithmetic deeper) := by
  intro stream e hstream hrule he
  cases stream with
  | stop start reason =>
    obtain rfl := Except.error.inj hrule
    exact (finishes_operand limits levels he).imp fun us hus => hus.boolean_of_operand
  | token start head rest =>
    rw [Rule.boolean] at hrule
    split at hrule
    · cases hrule
    · cases hrule
    · rename_i hnot
      have hrest : rest.tokens <:+ all := (List.suffix_cons head rest.tokens).trans hstream
      rcases bind_eq_error hrule with hoperand | ⟨_, -, hlast⟩
      · exact (hdeeper hrest hoperand he).imp fun us hus => hus.negation hnot
      · cases hlast
    · exact (h hstream hrule he).imp fun us hus => hus.arithmetic
    · split at hrule
      · cases hrule
      · rename_i e' harithmetic
        -- the report does not say that the text has ended, so a key may be lacking
        obtain ⟨-, rfl⟩ := he.eq_report hrule
        obtain ⟨hreason, x, -, hfits⟩ := h hstream harithmetic he.source
        exact ⟨hreason, x, fun h => absurd h Bool.false_ne_true, fun us hus => (hfits us hus).arithmetic⟩

/-! ### The grammar -/

theorem expression_finishable (hnodup : all.Nodup) (limits : Limits) (levels : Nat) :
    Finishable all limits levels (.chain .logical) (expression limits levels) := by
  refine (rule_induction limits (P := fun levels part rule => Sound limits levels part rule ∧
    Finishable all limits levels part rule) ?_ ?_ ?_ ?_ ?_ levels).2.2.2
  · refine fun part => ⟨nofun, fun stream e _ hrule he => ?_⟩
    obtain rfl := Except.error.inj hrule
    cases he.isBacktrackable
  · exact fun level _ _ ⟨hsound, h⟩ => ⟨hsound.chain, chain_finishable hsound h⟩
  · exact fun ⟨hsound, h⟩ => ⟨hsound.primary, primary_finishable hnodup hsound h⟩
  · exact fun ⟨hsound, h⟩ ⟨hdeeper, h'⟩ => ⟨hsound.signed hdeeper, signed_finishable h h'⟩
  · exact fun ⟨hsound, h⟩ ⟨hdeeper, h'⟩ => ⟨hsound.boolean hdeeper, boolean_finishable h h'⟩

end Grammar
end DocFilter
