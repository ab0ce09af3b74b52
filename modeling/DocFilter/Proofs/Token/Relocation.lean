import DocFilter.Proofs.Token.Passage

/-!
# Relocations

Two texts can have the same tokens at other places, or the same but for what stands inside their strings.  A
`Relocation` tells where a position of the first text is in the second one and what its strings become there.  A
stream is `Relocated` to another one if it has the same tokens and the same stop, relocated; how many blanks stand
before a token does not matter.  A text that is read from another position on is relocated (`relocated_readFrom`).
-/

namespace DocFilter

/-- Where the positions of one text are in another, and what the string at a position becomes. -/
structure Relocation where
  position : Nat → Nat
  string : Nat → String → String

namespace Relocation

/-- All stays as it is. -/
def identity : Relocation :=
  ⟨id, fun _ s => s⟩

/-- All positions move by `n` characters. -/
def shift (n : Nat) : Relocation :=
  ⟨(· + n), fun _ s => s⟩

def token (m : Relocation) (t : Token) : Token where
  kind := t.kind
  text := if t.kind = .string then m.string t.position t.text else t.text
  position := m.position t.position
  stop := m.position t.stop

def lexError (m : Relocation) (e : LexError) : LexError :=
  { e with position := m.position e.position }

def stop (m : Relocation) : Stop → Stop
  | .endOfInput p => .endOfInput (m.position p)
  | .malformed e => .malformed (m.lexError e)

@[simp] theorem kind_token (m : Relocation) (t : Token) : (m.token t).kind = t.kind := rfl

/-- Only a string can become another text. -/
theorem text_token {m : Relocation} {t : Token} (h : t.kind = .string → m.string t.position t.text = t.text) :
    (m.token t).text = t.text :=
  ite_eq_right_iff.2 h

@[simp] theorem identity_token (t : Token) : identity.token t = t := by
  simp [token, identity]

@[simp] theorem identity_stop (reason : Stop) : identity.stop reason = reason := by
  cases reason <;> rfl

@[simp] theorem text_shift (n : Nat) (t : Token) : ((shift n).token t).text = t.text :=
  text_token fun _ => rfl

/-- A token that is moved stands `n` characters further back. -/
theorem token_shift (n : Nat) (t : Token) :
    (shift n).token t = { t with position := t.position + n, stop := t.stop + n } := by
  simp only [token, shift, ite_self]

end Relocation

namespace TokenStream

/-- The second stream has the tokens and the stop of the first one, relocated. -/
inductive Relocated (m : Relocation) : TokenStream → TokenStream → Prop where
  | token (start start' : Nat) (head : Token) {rest rest' : TokenStream} (h : Relocated m rest rest') :
      Relocated m (token start head rest) (token start' (m.token head) rest')
  | stop (start start' : Nat) (reason : Stop) : Relocated m (stop start reason) (stop start' (m.stop reason))

namespace Relocated

variable {m : Relocation} {stream stream' rest rest' : TokenStream} {ts : List Token}

theorem refl (stream : TokenStream) : stream.Relocated .identity stream := by
  induction stream with
  | token start head rest ih =>
    have h := ih.token start start head
    rwa [Relocation.identity_token] at h
  | stop start reason =>
    have h := Relocated.stop (m := .identity) start start reason
    rwa [Relocation.identity_stop] at h

theorem tokens_eq (h : stream.Relocated m stream') : stream'.tokens = stream.tokens.map m.token := by
  induction h with
  | token _ _ head _ ih => rw [tokens, tokens, ih, List.map_cons]
  | stop => rfl

theorem reason_eq (h : stream.Relocated m stream') : stream'.reason = m.stop stream.reason := by
  induction h with
  | token _ _ _ _ ih => exact ih
  | stop => rfl

/-- Streams are relocated if passages of them are and what the passages leave. -/
theorem of_passes (h : stream.Passes ts rest) (h' : stream'.Passes (ts.map m.token) rest')
    (hrest : rest.Relocated m rest') : stream.Relocated m stream' := by
  induction h generalizing stream' with
  | nil stream =>
    obtain rfl := Passes.nil_iff.1 h'
    exact hrest
  | cons start head _ ih =>
    obtain ⟨start', next', rfl, hnext⟩ := Passes.cons_iff.1 h'
    exact .token start start' head (ih hnext hrest)

end Relocated

/-- A text read from `offset'` on is what it is from `offset` on, relocated, if positions correspond and strings stay
as they are. -/
theorem relocated_readFrom {m : Relocation} (start start' : Nat) {offset offset' : Nat} (skip : Nat) (text : List Char)
    (hposition : ∀ k, m.position (offset + k) = offset' + k) (hstring : ∀ k s, m.string (offset + k) s = s) :
    (readFrom start offset skip text).Relocated m (readFrom start' offset' skip text) := by
  have hnext {o o' : Nat} (h : ∀ k, m.position (o + k) = o' + k) (k : Nat) :
      m.position (o + 1 + k) = o' + 1 + k := by
    rw [Nat.add_assoc, h, ← Nat.add_assoc]
  have hstay {o : Nat} (h : ∀ k s, m.string (o + k) s = s) (k : Nat) (s : String) :
      m.string (o + 1 + k) s = s := by
    rw [Nat.add_assoc, h]
  fun_induction readFrom start offset skip text generalizing start' offset' with
  | case1 start offset skip =>
    have hend : m.position offset = offset' := hposition 0
    rw [readFrom, ← hend]
    exact .stop start start' (.endOfInput offset)
  | case2 start offset skip c rest ih => exact ih start' (hnext hposition) (hstay hstring)
  | case3 start offset c rest hblank ih =>
    rw [readFrom, if_pos hblank]
    exact ih start' (hnext hposition) (hstay hstring)
  | case4 start offset c rest hblank e hread =>
    have herror : m.lexError (e.shift offset) = e.shift offset' := by
      have := hposition e.position
      rw [Nat.add_comm offset, Nat.add_comm offset'] at this
      rw [LexError.shift, Relocation.lexError, this]
      rfl
    rw [readFrom, if_neg hblank, hread]
    have hstop := Relocated.stop (m := m) start start' (.malformed (e.shift offset))
    rwa [Relocation.stop, herror] at hstop
  | case5 start offset c rest hblank lexeme hread behind ih =>
    have htoken : m.token ⟨lexeme.kind, lexeme.text, offset, behind⟩ =
        ⟨lexeme.kind, lexeme.text, offset', offset' + lexeme.width⟩ := by
      have hhere : m.position offset = offset' := hposition 0
      have hbehind : m.position behind = offset' + lexeme.width := hposition lexeme.width
      have hsame : m.string offset lexeme.text = lexeme.text := hstring 0 lexeme.text
      simp only [Relocation.token, hhere, hbehind, hsame, ite_self]
    rw [readFrom, if_neg hblank, hread]
    dsimp only
    rw [← htoken]
    exact .token _ _ _ (ih _ (hnext hposition) (hstay hstring))

/-- A text that is read behind `n` characters is what it is by itself, moved by as many. -/
theorem relocated_shift (start n : Nat) (text : List Char) :
    (read 0 text).Relocated (.shift n) (readFrom start n 0 text) :=
  relocated_readFrom 0 start 0 text (fun k => by simp [Relocation.shift, Nat.add_comm]) fun _ _ => rfl

end TokenStream

/-- A text to whose stream that of a well-formed text is relocated is well formed too. -/
theorem tokenize_of_relocated {m : Relocation} {text text' : String} {ts : List Token}
    (h : (TokenStream.read 0 text.toList).Relocated m (.read 0 text'.toList)) (htext : tokenize text = .ok ts) :
    tokenize text' = .ok (ts.map m.token) := by
  obtain ⟨start, position, hpass⟩ := tokenize_eq_ok_iff.1 htext
  have htokens := h.tokens_eq
  have hreason := h.reason_eq
  rw [tokens_of_tokenize htext] at htokens
  rw [hpass.reason_eq, TokenStream.reason, Relocation.stop] at hreason
  simp only [tokenize, htokens, hreason]

end DocFilter
