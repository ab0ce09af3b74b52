import DocFilter.Proofs.FieldPath.Linking
import DocFilter.Proofs.Grammar.Writing

/-!
# Displayed paths

A path and its text.  If no key has a dot in it, cutting the text at its dots gives the keys
(`IsDotless.splitOn_display`), so no other such path is displayed in the same way, and there is a dot in the text for
each key but the first (`IsDotless.count_display`).  The text of identifiers is parsed as the path itself, unless it
has more dots than the limits admit (`parseWith_display`).
-/

namespace DocFilter
namespace FieldPath

/-- There is no dot inside of a key. -/
def IsDotless (path : FieldPath) : Prop :=
  ∀ key ∈ path.segments, '.' ∉ key.toList

namespace IsDotless

variable {path other : FieldPath}

/-- The keys stand between the dots of the text. -/
theorem splitOn_display (h : path.IsDotless) : path.display.toList.splitOn '.' = path.segments.map String.toList := by
  have hkeys : ∀ cs ∈ path.segments.map String.toList, '.' ∉ cs := by
    intro cs hcs
    obtain ⟨key, hkey, rfl⟩ := List.mem_map.1 hcs
    exact h key hkey
  have hne : path.segments.map String.toList ≠ [] := by
    simp [segments]
  have hdisplay : path.display.toList = ['.'].intercalate (path.segments.map String.toList) :=
    String.toList_intercalate
  rw [hdisplay]
  exact List.splitOn_intercalate '.' hkeys hne

/-- Paths without dots in their keys are told apart by their texts. -/
theorem eq_of_display_eq (h : path.IsDotless) (h' : other.IsDotless) (hdisplay : path.display = other.display) :
    path = other := by
  have hkeys : path.segments.map String.toList = other.segments.map String.toList := by
    rw [← h.splitOn_display, ← h'.splitOn_display, hdisplay]
  have hsegments : path.segments = other.segments :=
    (List.map_inj_right fun _ _ => String.toList_inj.1).1 hkeys
  exact segments_inj.1 hsegments

/-- A dot inside of a key cannot be told from one between keys. -/
example : (last "a.b").display = (step "a" (last "b")).display := by decide

/-- There is a dot for each key but the first. -/
theorem count_display (h : path.IsDotless) : path.display.toList.count '.' = path.later.length := by
  induction path with
  | last key =>
    have hkey : '.' ∉ key.toList := h key List.mem_cons_self
    rw [display_last, List.count_eq_zero.2 hkey]
    rfl
  | step key rest ih =>
    have hkey : '.' ∉ key.toList := h key List.mem_cons_self
    have hrest := ih fun k hk => h k (List.mem_cons_of_mem key hk)
    have hdot : ".".toList.count '.' = 1 := rfl
    have hlater : (step key rest).later.length = rest.later.length + 1 := rfl
    rw [display_step, String.toList_append, String.toList_append, List.count_append, List.count_append,
      List.count_eq_zero.2 hkey, hdot, hrest, hlater]
    omega

end IsDotless

/-- Identifiers have no dots in them. -/
theorem isDotless_of_isIdentifier {path : FieldPath} (h : ∀ key ∈ path.segments, IsIdentifier key) :
    path.IsDotless :=
  fun key hkey => (h key hkey).dot_not_mem

end FieldPath

namespace Grammar

variable {path : FieldPath}

private theorem expression_of_long_path {limits : Limits} (levels : Nat) {ts : List Token} {dots : Nat}
    (h : DerivesPath ts path dots) (hdots : limits.maxChain < dots) {stream rest : TokenStream}
    (hpass : stream.Passes ts rest) (hends : Rule.behindDot? rest = none) :
    expression limits (levels + 1) stream = .error (.chainTooLong limits.maxChain) := by
  have hpath := path_of_derives limits h hpass hends
  rw [if_neg (by omega)] at hpath
  obtain ⟨t, us, rfl, ht⟩ := h.opening
  obtain ⟨start, next, rfl, -⟩ := TokenStream.Passes.cons_iff.1 hpass
  have hoperand : operand limits (levels + 1) (.token start t next) = .error (.chainTooLong limits.maxChain) := by
    rw [operand_succ, Rule.primary, ht]
    simp only [hpath]
    rfl
  have hsigned : signed limits (levels + 1) (.token start t next) = .error (.chainTooLong limits.maxChain) := by
    rw [signed, Rule.signed, ht]
    exact hoperand
  have hboolean := boolean_of_signed_error (by rw [ht]; rfl) rfl hsigned
  rw [expression, Rule.logical, Rule.chain, Rule.comparison, Rule.chain, hboolean]
  rfl

/-- The text of a path of identifiers is an expression, the path, if the limits admit its dots, and is refused for
their number if they do not.  It needs no nesting. -/
theorem parseWith_display (limits : Limits) (hpath : ∀ key ∈ path.segments, IsIdentifier key) :
    Expr.parseWith limits path.display =
      if path.later.length ≤ limits.maxChain then .ok (.field path) else .error (.chainTooLong limits.maxChain) := by
  obtain ⟨ts, dots, htext, hts, -⟩ := readsAs_path hpath ends_nil 0
  have htokens := htext.tokenize_eq
  rw [← hts.dots_eq]
  split
  · rename_i hdots
    have hderives : Derives (.chain .logical) ts (.field path) 0 dots := .expression_of_operand (.path hts)
    exact parseWith_of_sentence ⟨ts, 0, dots, htokens, hderives, Nat.zero_le _, hdots⟩
  · rename_i hdots
    obtain ⟨start, position, hpass⟩ := tokenize_eq_ok_iff.1 htokens
    rw [parseWith_eq_conclude, expression_of_long_path limits.maxDepth hts (by omega) hpass rfl]
    rfl

end Grammar

namespace FieldPath

/-- A path is the list of its keys.  What is put together from keys, starting with the last one, is their chain and has
these keys; every path is the chain of its keys, gives them in order and nothing else when it is read, and is the same
as another path if the keys are the same.  It is written as its keys joined by dots.  If no key has a dot in it, no
other such path is written in the same way.  And if the keys are identifiers, the text is parsed as the path under all
limits that admit as many dots, and refused for their number under all others. -/
theorem faithful_to_segments :
    (∀ first rest, linked first rest = chain first rest ∧ (chain first rest).segments = first :: rest) ∧
    (∀ path : FieldPath, ∃ first rest, path.segments = first :: rest ∧ chain first rest = path) ∧
    (∀ (path : FieldPath) keys, path.walk.Yields keys ↔ keys = path.segments) ∧
    (∀ path other : FieldPath, path = other ↔ path.segments = other.segments) ∧
    (∀ path : FieldPath, path.written = path.display ∧ path.written = ".".intercalate path.segments) ∧
    (∀ path other : FieldPath, path.IsDotless → other.IsDotless → path.display = other.display → path = other) ∧
    ∀ (limits : Limits) (path : FieldPath), (∀ key ∈ path.segments, IsIdentifier key) →
      Expr.parseWith limits path.display =
        if path.display.toList.count '.' ≤ limits.maxChain then .ok (.field path)
        else .error (.chainTooLong limits.maxChain) := by
  refine ⟨?_, ?_, ?_, ?_, ?_, ?_, ?_⟩
  · intro first rest
    exact ⟨linked_eq_chain first rest, segments_chain first rest⟩
  · intro path
    exact ⟨path.first, path.later, rfl, chain_segments path⟩
  · intro path keys
    exact yields_iff
  · intro path other
    exact segments_inj.symm
  · intro path
    exact ⟨written_eq_display path, written_eq_display path⟩
  · intro path other hpath hother hdisplay
    exact hpath.eq_of_display_eq hother hdisplay
  · intro limits path hpath
    rw [(isDotless_of_isIdentifier hpath).count_display]
    exact Grammar.parseWith_display limits hpath

/-- Three keys, one of which only begins like a reserved word, under limits without any nesting, and two empty keys
beside one. -/
theorem faithful_to_segments_nullable :
    let path := linked "user" ["nullable", "city_2"]
    path.segments = ["user", "nullable", "city_2"] ∧ path.walk.Yields ["user", "nullable", "city_2"] ∧
      path.written = "user.nullable.city_2" ∧
      (∀ key ∈ path.segments, IsIdentifier key) ∧
      Expr.parseWith ⟨0, 2⟩ "user.nullable.city_2" = .ok (.field path) ∧
      Expr.parseWith ⟨0, 1⟩ "user.nullable.city_2" = .error (.chainTooLong 1) ∧
      (step "" (last "")).display ≠ (last "").display := by
  intro path
  obtain ⟨hchain, -, hyields, -, hwritten, hinjective, hparse⟩ := faithful_to_segments
  obtain ⟨hlinked, hsegments⟩ := hchain "user" ["nullable", "city_2"]
  have hkeys : path.segments = ["user", "nullable", "city_2"] := by
    rw [← hsegments, ← hlinked]
  have htext : path.written = "user.nullable.city_2" := by
    rw [(hwritten path).2, hkeys]
    rfl
  have hdisplay : path.display = "user.nullable.city_2" := by
    rw [← (hwritten path).1, htext]
  have hidentifiers : ∀ key ∈ path.segments, IsIdentifier key := by
    rw [hkeys]
    intro key hkey
    simp only [List.mem_cons, List.not_mem_nil, or_false] at hkey
    rcases hkey with rfl | rfl | rfl
    · exact ⟨'u', "ser".toList, rfl, by decide, List.all_eq_true.1 (by decide), by decide, by decide, by decide⟩
    · exact ⟨'n', "ullable".toList, rfl, by decide, List.all_eq_true.1 (by decide), by decide, by decide, by decide⟩
    · exact ⟨'c', "ity_2".toList, rfl, by decide, List.all_eq_true.1 (by decide), by decide, by decide, by decide⟩
  have hwide := hparse ⟨0, 2⟩ path hidentifiers
  have hnarrow := hparse ⟨0, 1⟩ path hidentifiers
  rw [hdisplay] at hwide hnarrow
  have hempty : (step "" (last "")).display ≠ (last "").display := by
    intro hsame
    have hone : (last "").IsDotless := by
      unfold IsDotless
      decide
    have htwo : (step "" (last "")).IsDotless := by
      unfold IsDotless
      decide
    cases hinjective _ _ htwo hone hsame
  exact ⟨hkeys, (hyields path _).2 hkeys.symm, htext, hidentifiers, hwide, hnarrow, hempty⟩

end FieldPath

end DocFilter
