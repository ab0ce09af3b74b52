import DocFilter.Proofs.Grammar.Derivation
import DocFilter.Proofs.Token.Relocation

/-!
# Contents of tokens

The grammar sees what a token is and what it says, but not where it stands: tokens with the same contents are derived
alike (`Derives.of_contents`).
-/

namespace DocFilter

/-- What the grammar sees of a token. -/
def Token.content (t : Token) : TokenKind × String :=
  (t.kind, t.text)

/-- Tokens that are moved keep their contents. -/
theorem Relocation.contents_shift (n : Nat) (ts : List Token) :
    (ts.map (shift n).token).map Token.content = ts.map Token.content := by
  rw [List.map_map]
  exact List.map_congr_left fun t _ => congrArg (Prod.mk t.kind) (text_shift n t)

namespace Grammar

section

variable {us ts ts' : List Token} {t : Token}

private theorem contents_nil (h : us.map Token.content = [].map Token.content) : us = [] :=
  List.map_eq_nil_iff.1 h

private theorem contents_cons (h : us.map Token.content = (t :: ts).map Token.content) :
    ∃ t' rest, us = t' :: rest ∧ t'.kind = t.kind ∧ t'.text = t.text ∧
      rest.map Token.content = ts.map Token.content := by
  obtain ⟨t', rest, rfl, hcontent, hrest⟩ := List.map_eq_cons_iff.1 h
  obtain ⟨hkind, htext⟩ := Prod.mk.inj hcontent
  exact ⟨t', rest, rfl, hkind, htext, hrest⟩

private theorem contents_singleton (h : us.map Token.content = [t].map Token.content) :
    ∃ t', us = [t'] ∧ t'.kind = t.kind ∧ t'.text = t.text := by
  obtain ⟨t', rest, rfl, hkind, htext, hrest⟩ := contents_cons h
  obtain rfl := contents_nil hrest
  exact ⟨t', rfl, hkind, htext⟩

private theorem contents_append (h : us.map Token.content = (ts ++ ts').map Token.content) :
    ∃ first second, us = first ++ second ∧ first.map Token.content = ts.map Token.content ∧
      second.map Token.content = ts'.map Token.content := by
  rw [List.map_append] at h
  exact List.map_eq_append_iff.1 h

end

theorem DerivesPath.of_contents {ts us : List Token} {path : FieldPath} {dots : Nat} (h : DerivesPath ts path dots)
    (hus : us.map Token.content = ts.map Token.content) : DerivesPath us path dots := by
  induction h generalizing us with
  | last t ht =>
    obtain ⟨t', rfl, hkind, htext⟩ := contents_singleton hus
    rw [← htext]
    exact .last t' (hkind.trans ht)
  | step t dot ht hdot _ ih =>
    obtain ⟨t', rest, rfl, hkind, htext, hrest⟩ := contents_cons hus
    obtain ⟨dot', rest', rfl, hkind', -, hrest'⟩ := contents_cons hrest
    rw [← htext]
    exact .step t' dot' (hkind.trans ht) (hkind'.trans hdot) (ih hrest')

/-- Where the tokens stand does not matter. -/
theorem Derives.of_contents {part : Part} {ts us : List Token} {e : Expr} {d w : Nat} (h : Derives part ts e d w)
    (hus : us.map Token.content = ts.map Token.content) : Derives part us e d w := by
  induction h generalizing us with
  | one _ ih => exact .one (ih hus)
  | link _ ht _ ihl ihr =>
    obtain ⟨left, rest, rfl, hleft, hrest⟩ := contents_append hus
    obtain ⟨t', right, rfl, hkind, -, hright⟩ := contents_cons hrest
    exact .link (ihl hleft) (hkind ▸ ht) (ihr hright)
  | chain _ ih => exact .chain (ih hus)
  | trueWord t ht =>
    obtain ⟨t', rfl, hkind, -⟩ := contents_singleton hus
    exact .trueWord t' (hkind.trans ht)
  | falseWord t ht =>
    obtain ⟨t', rfl, hkind, -⟩ := contents_singleton hus
    exact .falseWord t' (hkind.trans ht)
  | arithmetic _ ih => exact .arithmetic (ih hus)
  | negation t ht _ ih =>
    obtain ⟨t', rest, rfl, hkind, -, hrest⟩ := contents_cons hus
    exact .negation t' (hkind.trans ht) (ih hrest)
  | booleanGroup opening closing ho _ hc ih =>
    obtain ⟨opening', rest, rfl, hopening, -, hrest⟩ := contents_cons hus
    obtain ⟨inner, last, rfl, hinner, hlast⟩ := contents_append hrest
    obtain ⟨closing', rfl, hclosing, -⟩ := contents_singleton hlast
    exact .booleanGroup opening' closing' (hopening.trans ho) (ih hinner) (hclosing.trans hc)
  | unsigned _ ih => exact .unsigned (ih hus)
  | sign t ht _ ih =>
    obtain ⟨t', rest, rfl, hkind, -, hrest⟩ := contents_cons hus
    exact .sign t' (hkind ▸ ht) (ih hrest)
  | string t ht =>
    obtain ⟨t', rfl, hkind, htext⟩ := contents_singleton hus
    rw [← htext]
    exact .string t' (hkind.trans ht)
  | path h => exact .path (h.of_contents hus)
  | nullWord t ht =>
    obtain ⟨t', rfl, hkind, -⟩ := contents_singleton hus
    exact .nullWord t' (hkind.trans ht)
  | decimal t ht hx =>
    obtain ⟨t', rfl, hkind, htext⟩ := contents_singleton hus
    exact .decimal t' (hkind.trans ht) (htext ▸ hx)
  | integer t ht hn =>
    obtain ⟨t', rfl, hkind, htext⟩ := contents_singleton hus
    exact .integer t' (hkind.trans ht) (htext ▸ hn)
  | group opening closing ho _ hc ih =>
    obtain ⟨opening', rest, rfl, hopening, -, hrest⟩ := contents_cons hus
    obtain ⟨inner, last, rfl, hinner, hlast⟩ := contents_append hrest
    obtain ⟨closing', rfl, hclosing, -⟩ := contents_singleton hlast
    exact .group opening' closing' (hopening.trans ho) (ih hinner) (hclosing.trans hc)

end Grammar
end DocFilter
