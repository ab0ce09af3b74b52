import DocFilter.Proofs.Grammar.Comparison
import DocFilter.Proofs.Grammar.Contents
import DocFilter.Proofs.Token.Seam

/-!
# Strings in the place of strings

A string literal is one leaf of the tree, and what stands in it has no influence on anything else: with another string
in its quotes the text has the same tree around the leaf, or the same error (`parseWith_quoted`).

An `Expr.Context` is a tree with a hole in the place of one leaf.  The grammar looks at no string, so a derivation with
a string token in it is one for every other string, in the same context (`Derives.replace_string`).
-/

namespace DocFilter

/-- A tree with a hole in the place of one leaf. -/
inductive Expr.Context where
  | hole
  | onLeft (op : BinOp) (inner : Context) (right : Expr)
  | onRight (op : BinOp) (left : Expr) (inner : Context)
  | signed (sign : Sign) (inner : Context)
  | not (inner : Context)

/-- The tree with `e` in the place of the hole. -/
def Expr.Context.plug : Context → Expr → Expr
  | .hole, e => e
  | .onLeft op inner right, e => .binary op (inner.plug e) right
  | .onRight op left inner, e => .binary op left (inner.plug e)
  | .signed sign inner, e => .signed sign (inner.plug e)
  | .not inner, e => .not (inner.plug e)

/-! ### Strings as holes -/

namespace Grammar

/-- There is no string in a path. -/
theorem DerivesPath.kind_ne_string {ts : List Token} {path : FieldPath} {dots : Nat} (h : DerivesPath ts path dots)
    {t : Token} (ht : t ∈ ts) : t.kind ≠ .string := by
  rcases h.kinds t ht with hk | hk <;> rw [hk] <;> decide

section

variable {t x y : Token} {ts us before after : List Token} (ht : t.kind = .string)

private theorem hole_append (h : ts ++ us = before ++ t :: after) :
    (∃ rest, ts = before ++ t :: rest ∧ after = rest ++ us) ∨
      ∃ rest, before = ts ++ rest ∧ us = rest ++ t :: after := by
  rcases List.append_eq_append_iff.1 h with ⟨rest, hbefore, hus⟩ | ⟨rest, hts, hafter⟩
  · exact .inr ⟨rest, hbefore, hus⟩
  · cases rest with
    | nil => exact .inr ⟨[], by simpa using hts.symm, hafter.symm⟩
    | cons _ rest =>
      obtain ⟨rfl, rfl⟩ := List.cons.inj hafter
      exact .inl ⟨rest, hts, rfl⟩

include ht

private theorem hole_cons (hx : x.kind ≠ .string) (h : x :: ts = before ++ t :: after) :
    ∃ before', before = x :: before' ∧ ts = before' ++ t :: after := by
  cases before with
  | nil =>
    obtain ⟨rfl, -⟩ := List.cons.inj h
    exact absurd ht hx
  | cons _ before =>
    obtain ⟨rfl, rfl⟩ := List.cons.inj h
    exact ⟨before, rfl, rfl⟩

private theorem not_hole_singleton (hx : x.kind ≠ .string) : [x] ≠ before ++ t :: after := by
  intro h
  obtain ⟨before', -, hnil⟩ := hole_cons ht hx h
  cases before' <;> cases hnil

private theorem hole_group (hx : x.kind ≠ .string) (hy : y.kind ≠ .string)
    (h : x :: (ts ++ [y]) = before ++ t :: after) :
    ∃ before' after', before = x :: before' ∧ after = after' ++ [y] ∧ ts = before' ++ t :: after' := by
  obtain ⟨before', rfl, hinner⟩ := hole_cons ht hx h
  rcases hole_append hinner with ⟨after', hts, rfl⟩ | ⟨rest, -, hlast⟩
  · exact ⟨before', after', rfl, rfl, hts⟩
  · exact absurd hlast (not_hole_singleton ht hy)

end

private theorem kind_ne_string {t : Token} {k : TokenKind} (h : t.kind = k) (hk : k ≠ .string) : t.kind ≠ .string := by
  rwa [h]

private theorem operator_ne_string {level : Level} {t : Token} {op : BinOp} (h : level.operator? t.kind = some op) :
    t.kind ≠ .string := by
  intro hk
  rw [hk] at h
  cases level <;> cases h

private theorem sign_ne_string {t : Token} {sign : Sign} (h : Sign.ofKind? t.kind = some sign) : t.kind ≠ .string := by
  intro hk
  rw [hk] at h
  cases h

/-- A string in a derivation is a leaf of the tree, and the same tokens with another string in its place are derived
with that string in the place of the leaf. -/
theorem Derives.replace_string {part : Part} {ts before after : List Token} {t : Token} {e : Expr} {d w : Nat}
    (h : Derives part ts e d w) (hts : ts = before ++ t :: after) (ht : t.kind = .string) :
    ∃ C : Expr.Context, e = C.plug (.string t.text) ∧
      ∀ t' : Token, t'.kind = .string → Derives part (before ++ t' :: after) (C.plug (.string t'.text)) d w := by
  induction h generalizing before after with
  | one _ ih =>
    obtain ⟨C, he, hC⟩ := ih hts
    exact ⟨C, he, fun t' ht' => .one (hC t' ht')⟩
  | @link level n ts us operator op left right d w d' w' hl ho hr ihl ihr =>
    rcases hole_append hts with ⟨rest, hleft, rfl⟩ | ⟨rest, rfl, hbehind⟩
    · obtain ⟨C, rfl, hC⟩ := ihl hleft
      refine ⟨.onLeft op C right, rfl, fun t' ht' => ?_⟩
      have hlink := Derives.link (hC t' ht') ho hr
      rwa [List.append_assoc, List.cons_append] at hlink
    · obtain ⟨before', rfl, hright⟩ := hole_cons ht (operator_ne_string ho) hbehind
      obtain ⟨C, rfl, hC⟩ := ihr hright
      refine ⟨.onRight op left C, rfl, fun t' ht' => ?_⟩
      rw [List.append_assoc, List.cons_append]
      exact .link hl ho (hC t' ht')
  | chain _ ih =>
    obtain ⟨C, he, hC⟩ := ih hts
    exact ⟨C, he, fun t' ht' => .chain (hC t' ht')⟩
  | arithmetic _ ih =>
    obtain ⟨C, he, hC⟩ := ih hts
    exact ⟨C, he, fun t' ht' => .arithmetic (hC t' ht')⟩
  | negation head hk _ ih =>
    obtain ⟨before', rfl, hoperand⟩ := hole_cons ht (kind_ne_string hk (by decide)) hts
    obtain ⟨C, rfl, hC⟩ := ih hoperand
    exact ⟨.not C, rfl, fun t' ht' => .negation head hk (hC t' ht')⟩
  | booleanGroup opening closing ho _ hc ih =>
    obtain ⟨before', after', rfl, rfl, hinner⟩ :=
      hole_group ht (kind_ne_string ho (by decide)) (kind_ne_string hc (by decide)) hts
    obtain ⟨C, he, hC⟩ := ih hinner
    refine ⟨C, he, fun t' ht' => ?_⟩
    have hgroup := Derives.booleanGroup opening closing ho (hC t' ht') hc
    rwa [List.append_assoc] at hgroup
  | unsigned _ ih =>
    obtain ⟨C, he, hC⟩ := ih hts
    exact ⟨C, he, fun t' ht' => .unsigned (hC t' ht')⟩
  | @sign head sign _ _ _ _ hk _ ih =>
    obtain ⟨before', rfl, hoperand⟩ := hole_cons ht (sign_ne_string hk) hts
    obtain ⟨C, rfl, hC⟩ := ih hoperand
    exact ⟨.signed sign C, rfl, fun t' ht' => .sign head hk (hC t' ht')⟩
  | string head hk =>
    cases before with
    | nil =>
      obtain ⟨rfl, rfl⟩ := List.cons.inj hts
      exact ⟨.hole, rfl, fun t' ht' => .string t' ht'⟩
    | cons _ before => cases before <;> cases hts
  | path h =>
    have hmem : t ∈ before ++ t :: after := List.mem_append_right before List.mem_cons_self
    exact absurd ht (h.kind_ne_string (hts ▸ hmem))
  | group opening closing ho _ hc ih =>
    obtain ⟨before', after', rfl, rfl, hinner⟩ :=
      hole_group ht (kind_ne_string ho (by decide)) (kind_ne_string hc (by decide)) hts
    obtain ⟨C, he, hC⟩ := ih hinner
    refine ⟨C, he, fun t' ht' => ?_⟩
    have hgroup := Derives.group opening closing ho (hC t' ht') hc
    rwa [List.append_assoc] at hgroup
  | trueWord _ hk | falseWord _ hk | nullWord _ hk | decimal _ hk _ | integer _ hk _ =>
    exact absurd hts (not_hole_singleton ht (kind_ne_string hk (by decide)))

end Grammar

/-! ### Other strings in the quotes -/

/-- The string in quotes at `offset` becomes another one, and everything behind it moves. -/
def Relocation.literal (offset : Nat) (x y : String) : Relocation where
  position p := if p < offset + (quoted x).length then p else p - (quoted x).length + (quoted y).length
  string p s := if p = offset then y else s

namespace Grammar

section

variable {u : String} {ts : List Token} (hu : tokenize u = .ok ts)
include hu

/-- Behind a text that is well formed the string in quotes is one token. -/
private theorem passes_quoted (z v : String) :
    ∃ start, (TokenStream.read 0 (u ++ quoted z ++ v).toList).Passes
      (ts ++ [⟨.string, z, u.length, u.length + (quoted z).length⟩])
      (.readFrom start (u.length + (quoted z).length) 0 v.toList) := by
  have hquote : Delimited ((quoted z).toList ++ v.toList) := by
    rw [toList_quoted]
    exact .cons (by decide) _
  have hstay : ts.map (Relocation.shift 0).token = ts := List.map_id'' Relocation.identity_token ts
  have hprefix := covers_of_tokenize hu 0 hquote
  have hliteral := (spells_quoted z v.toList).covers (0 + u.toList.length)
  obtain ⟨start, htext⟩ := hprefix.append hliteral 0
  rw [hstay, Nat.zero_add, Nat.zero_add, List.length_append, String.length_toList, String.length_toList,
    List.append_assoc, ← List.append_assoc u.toList] at htext
  rw [String.toList_append, String.toList_append, List.append_assoc, ← List.append_assoc u.toList]
  exact ⟨start, htext⟩

private theorem map_literal_token (x y : String) : ts.map (Relocation.literal u.length x y).token = ts := by
  have hstay : ∀ t ∈ ts, (Relocation.literal u.length x y).token t = t := by
    intro t ht
    have hbounds := bounds_of_tokenize hu ht
    have hpositive := length_quoted_pos x
    have hposition : t.position < u.length + (quoted x).length := by omega
    have hstop : t.stop < u.length + (quoted x).length := by omega
    have hother : t.position ≠ u.length := by omega
    simp only [Relocation.token, Relocation.literal, hposition, hstop, hother, if_true, if_false, ite_self]
  rw [List.map_congr_left hstay, List.map_id']

omit hu in
private theorem literal_token (x y : String) :
    (Relocation.literal u.length x y).token ⟨.string, x, u.length, u.length + (quoted x).length⟩ =
      ⟨.string, y, u.length, u.length + (quoted y).length⟩ := by
  simp [Relocation.token, Relocation.literal, length_quoted_pos]

private theorem relocated_quoted (x y v : String) :
    (TokenStream.read 0 (u ++ quoted x ++ v).toList).Relocated (.literal u.length x y)
      (.read 0 (u ++ quoted y ++ v).toList) := by
  obtain ⟨start, hx⟩ := passes_quoted hu x v
  obtain ⟨start', hy⟩ := passes_quoted hu y v
  have hbehind : (TokenStream.readFrom start (u.length + (quoted x).length) 0 v.toList).Relocated
      (.literal u.length x y) (.readFrom start' (u.length + (quoted y).length) 0 v.toList) := by
    apply TokenStream.relocated_readFrom
    · intro k
      simp only [Relocation.literal]
      rw [if_neg (by omega)]
      omega
    · intro k s
      have := length_quoted_pos x
      exact if_neg (by omega)
  refine .of_passes hx ?_ hbehind
  rw [List.map_append, map_literal_token hu, List.map_singleton, literal_token]
  exact hy

/-- The tree of a sentence with a string in quotes has that string in one leaf, and with another string in the quotes
the text is the sentence with the other string in that leaf. -/
private theorem Sentence.replace_quoted {limits : Limits} {x v : String} {e : Expr}
    (h : Sentence limits (u ++ quoted x ++ v) e) :
    ∃ C : Expr.Context, ∀ y, Sentence limits (u ++ quoted y ++ v) (C.plug (.string y)) := by
  obtain ⟨tokens, d, w, htokens, he, hd, hw⟩ := h
  obtain ⟨start, hpass⟩ := passes_quoted hu x v
  have hsplit := hpass.tokens_eq
  rw [tokens_of_tokenize htokens, List.append_assoc, List.singleton_append] at hsplit
  obtain ⟨C, -, hC⟩ := he.replace_string hsplit rfl
  refine ⟨C, fun y => ?_⟩
  have htokens' := tokenize_of_relocated (relocated_quoted hu x y v) htokens
  rw [hsplit, List.map_append, map_literal_token hu, List.map_cons, literal_token] at htokens'
  -- behind the literal the tokens have moved, which the derivation does not notice
  have hmoved : ∀ t ∈ (TokenStream.readFrom start (u.length + (quoted x).length) 0 v.toList).tokens,
      (Token.content ∘ (Relocation.literal u.length x y).token) t = t.content := by
    intro t ht
    have hbounds := TokenStream.mem_tokens_readFrom ht
    have hpositive := length_quoted_pos x
    have hother : t.position ≠ u.length := by omega
    exact congrArg (Prod.mk t.kind) (Relocation.text_token fun _ => if_neg hother)
  have hderives := hC ⟨.string, y, u.length, u.length + (quoted y).length⟩ rfl
  refine ⟨_, d, w, htokens', hderives.of_contents ?_, hd, hw⟩
  simp only [List.map_append, List.map_cons, List.map_map, List.map_congr_left hmoved]

end

/-- What stands in quotes cannot change the structure of a query: behind a text that is well formed, either every
string can be put in quotes, and it is one leaf of a tree that is otherwise the same for all strings, or none can, and
the errors for two strings are the same but for the string itself and the places behind it. -/
theorem parseWith_quoted {u : String} {ts : List Token} (hu : tokenize u = .ok ts) (v : String) (limits : Limits) :
    (∃ C : Expr.Context, ∀ z, Expr.parseWith limits (u ++ quoted z ++ v) = .ok (C.plug (.string z))) ∨
      ∀ x y, ∃ e, Expr.parseWith limits (u ++ quoted x ++ v) = .error e ∧
        Expr.parseWith limits (u ++ quoted y ++ v) = .error ((Relocation.literal u.length x y).error e) := by
  have hfollows (x y : String) : Follows (.literal u.length x y) (fun _ => False) (fun _ _ => True)
      (Expr.parseWith limits (u ++ quoted x ++ v)) (Expr.parseWith limits (u ++ quoted y ++ v)) :=
    parseWith_follows (fun _ _ h _ => h) (relocated_quoted hu x y v) (.inl ⟨rfl, rfl⟩) (.inl ⟨rfl, rfl⟩)
  -- one string tells which of the two it is
  cases hparse : Expr.parseWith limits (u ++ quoted "" ++ v) with
  | ok e =>
    obtain ⟨C, hC⟩ := (sentence_of_parseWith hparse).replace_quoted hu
    exact .inl ⟨C, fun z => parseWith_of_sentence (hC z)⟩
  | error e =>
    refine .inr fun x y => ?_
    have hx := hfollows "" x
    have hy := hfollows x y
    rw [hparse] at hx
    have herror := hx.eq_error
    rw [herror] at hy
    exact ⟨_, herror, hy.eq_error⟩

/-- Whatever name is looked for, the query stays a conjunction. -/
theorem parseWith_quoted_name :
    tokenize "name == " = .ok [⟨.identifier, "name", 0, 4⟩, ⟨.equal, "==", 5, 7⟩] ∧
      ∃ C : Expr.Context, ∀ z,
        Expr.parseWith .standard ("name == " ++ quoted z ++ " && active") = .ok (C.plug (.string z)) := by
  have hname : tokenize "name == " = .ok [⟨.identifier, "name", 0, 4⟩, ⟨.equal, "==", 5, 7⟩] := rfl
  refine ⟨hname, ?_⟩
  rcases parseWith_quoted hname " && active" .standard with hcontext | herrors
  · exact hcontext
  · obtain ⟨e, herror, -⟩ := herrors "Ada" "Ada"
    have hread : (Expr.parseWith .standard ("name == " ++ quoted "Ada" ++ " && active")).isOk := rfl
    rw [herror] at hread
    cases hread

end Grammar
end DocFilter
