import DocFilter.Proofs.Token.Delimiter
import DocFilter.Token.Stream

/-!
# Texts that go on

A text that goes on behind a delimiter keeps its tokens, and malformed text stops its stream where it did before.  Only
an open stop gives way: where the text ended, or ended inside a string, anything may come (`prolonged_readFrom`).
-/

namespace DocFilter

/-- Whether the text might go on where its stream stops: it has ended there, or has ended inside a string. -/
def Stop.isOpen : Stop → Bool
  | endOfInput _ => true
  | malformed e => e.fault = .unterminatedString

namespace TokenStream

/-- The second stream is that of a text that goes on where the text of the first one ended. -/
inductive Prolonged : TokenStream → TokenStream → Prop where
  | token (start : Nat) (head : Token) {rest rest' : TokenStream} (h : Prolonged rest rest') :
      Prolonged (token start head rest) (token start head rest')
  | stop (start : Nat) (reason : Stop) : Prolonged (stop start reason) (stop start reason)
  | opened (start : Nat) {reason : Stop} (h : reason.isOpen) (stream : TokenStream) :
      Prolonged (stop start reason) stream

theorem prolonged_readFrom (start offset skip : Nat) (text : List Char) {more : List Char} (hmore : Delimited more)
    (hskip : skip ≤ text.length) :
    (readFrom start offset skip text).Prolonged (readFrom start offset skip (text ++ more)) := by
  fun_induction readFrom start offset skip text with
  | case1 => exact .opened _ rfl _
  | case2 start offset skip c text ih => exact ih (by simpa using hskip)
  | case3 start offset c text hblank ih =>
    rw [List.cons_append, readFrom, if_pos hblank]
    exact ih (Nat.zero_le _)
  | case4 start offset c text hblank e hread =>
    by_cases hopen : e = ⟨.unterminatedString, 0⟩
    · subst hopen
      exact .opened _ rfl _
    · rw [List.cons_append, readFrom, if_neg hblank,
        Lexeme.read_append_of_closed hmore (by rw [hread]; exact fun h => hopen (Except.error.inj h)), hread]
      exact .stop _ _
  | case5 start offset c text hblank lexeme hread behind ih =>
    have hwidth := Lexeme.width_bounds hread
    rw [List.cons_append, readFrom, if_neg hblank, Lexeme.read_append hmore hread]
    exact .token _ _ (ih (by omega))

end TokenStream

end DocFilter
