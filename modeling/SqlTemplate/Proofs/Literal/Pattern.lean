import SqlTemplate.Proofs.Literal.Shape

/-!
# Patterns of texts

Escaping puts a backslash before each of the three characters that a pattern gives a meaning to, and
before no other (`escapedChar`), so the pattern of a text is read off character by character: in
front of any other pattern **it takes just this text from the beginning**
(`matches_escapePattern_append_iff`). A percent sign behind it or before it then lets any text
follow or precede, and the quotes around the pattern are read away. So the three literals select the
texts that equal a text, those that begin with it and those that end with it (`selects_like`).
-/

namespace SqlTemplate

namespace Literal

/-- A character as a pattern for itself. -/
def escapedChar (c : Char) : Text := if c = '\\' ∨ c = '%' ∨ c = '_' then ['\\', c] else [c]

theorem escapeWith_append (special : Char) (a b : Text) :
    escapeWith special (a ++ b) = escapeWith special a ++ escapeWith special b :=
  List.flatMap_append

/-- The three replacements one after another escape each character at most once. -/
theorem escapePattern_cons (c : Char) (s : Text) :
    escapePattern (c :: s) = escapedChar c ++ escapePattern s := by
  have hAppend : escapePattern ([c] ++ s) = escapePattern [c] ++ escapePattern s := by
    simp only [escapePattern, escapeWith_append]
  rw [List.singleton_append] at hAppend
  rw [hAppend]
  congr 1
  by_cases hBackslash : c = '\\'
  · subst hBackslash
    rfl
  by_cases hPercent : c = '%'
  · subst hPercent
    rfl
  by_cases hUnderscore : c = '_'
  · subst hUnderscore
    rfl
  · simp [escapePattern, escapeWith, escapedChar, hBackslash, hPercent, hUnderscore]

/-! ### What the parts of a pattern take -/

variable {pattern text : Text}

theorem matches_nil_iff : Matches [] text ↔ text = [] := by
  constructor
  · intro h
    cases h
    rfl
  · rintro rfl
    exact .nil

/-- A percent sign takes any text from the beginning. -/
theorem matches_any_cons_iff :
    Matches ('%' :: pattern) text ↔
      ∃ skipped rest, text = skipped ++ rest ∧ Matches pattern rest := by
  constructor
  · intro h
    cases h with
    | any skipped h => exact ⟨skipped, _, rfl, h⟩
    | plain hPercent => exact absurd rfl hPercent
  · rintro ⟨skipped, rest, rfl, h⟩
    exact .any skipped h

theorem matches_escaped_cons_iff {c : Char} :
    Matches ('\\' :: c :: pattern) text ↔ ∃ rest, text = c :: rest ∧ Matches pattern rest := by
  constructor
  · intro h
    cases h with
    | escaped c h => exact ⟨_, rfl, h⟩
    | plain _ _ hBackslash => exact absurd rfl hBackslash
  · rintro ⟨rest, rfl, h⟩
    exact .escaped c h

theorem matches_plain_cons_iff {c : Char} (hPercent : c ≠ '%') (hUnderscore : c ≠ '_')
    (hBackslash : c ≠ '\\') :
    Matches (c :: pattern) text ↔ ∃ rest, text = c :: rest ∧ Matches pattern rest := by
  constructor
  · intro h
    cases h with
    | any => exact absurd rfl hPercent
    | one => exact absurd rfl hUnderscore
    | escaped => exact absurd rfl hBackslash
    | plain _ _ _ h => exact ⟨_, rfl, h⟩
  · rintro ⟨rest, rfl, h⟩
    exact .plain hPercent hUnderscore hBackslash h

/-- An escaped character takes itself. -/
theorem matches_escapedChar_append_iff {c : Char} :
    Matches (escapedChar c ++ pattern) text ↔ ∃ rest, text = c :: rest ∧ Matches pattern rest := by
  rw [escapedChar]
  split
  next => exact matches_escaped_cons_iff
  next hOther =>
    rw [not_or, not_or] at hOther
    obtain ⟨hBackslash, hPercent, hUnderscore⟩ := hOther
    exact matches_plain_cons_iff hPercent hUnderscore hBackslash

/-- **The pattern of a text takes this text and leaves the rest to what stands behind it.** -/
theorem matches_escapePattern_append_iff (s : Text) :
    Matches (escapePattern s ++ pattern) text ↔
      ∃ rest, text = s ++ rest ∧ Matches pattern rest := by
  induction s generalizing text with
  | nil =>
    constructor
    · exact fun h => ⟨text, rfl, h⟩
    · rintro ⟨rest, rfl, h⟩
      exact h
  | cons c s ih =>
    rw [escapePattern_cons, List.append_assoc, matches_escapedChar_append_iff]
    constructor
    · rintro ⟨tail, rfl, h⟩
      obtain ⟨rest, rfl, hRest⟩ := ih.mp h
      exact ⟨rest, rfl, hRest⟩
    · rintro ⟨rest, rfl, h⟩
      exact ⟨s ++ rest, rfl, ih.mpr ⟨rest, rfl, h⟩⟩

/-! ### The three patterns of a text -/

theorem matches_escapePattern_iff (s : Text) : Matches (escapePattern s) text ↔ text = s := by
  rw [← List.append_nil (escapePattern s), matches_escapePattern_append_iff]
  simp only [matches_nil_iff]
  constructor
  · rintro ⟨rest, rfl, rfl⟩
    exact List.append_nil s
  · rintro rfl
    exact ⟨[], (List.append_nil text).symm, rfl⟩

/-- A single percent sign takes all the rest. -/
theorem matches_any (rest : Text) : Matches ['%'] rest :=
  matches_any_cons_iff.mpr ⟨rest, [], (List.append_nil rest).symm, .nil⟩

theorem matches_escapePattern_any_iff (s : Text) :
    Matches (escapePattern s ++ ['%']) text ↔ s <+: text := by
  rw [matches_escapePattern_append_iff]
  constructor
  · rintro ⟨rest, rfl, -⟩
    exact List.prefix_append s rest
  · rintro ⟨rest, rfl⟩
    exact ⟨rest, rfl, matches_any rest⟩

theorem matches_any_escapePattern_iff (s : Text) :
    Matches ('%' :: escapePattern s) text ↔ s <:+ text := by
  rw [matches_any_cons_iff]
  simp only [matches_escapePattern_iff]
  constructor
  · rintro ⟨skipped, rest, rfl, rfl⟩
    exact List.suffix_append skipped rest
  · rintro ⟨skipped, rfl⟩
    exact ⟨skipped, s, rfl, rfl⟩

/-- Whether an answer is the literal of a pattern that matches just the texts of a kind. -/
def Selects (answer : Except Fault Value) (kind : Text → Prop) : Prop :=
  ∃ literal pattern, answer = .ok (.sql literal) ∧ unquote? literal = some pattern ∧
    ∀ text, Matches pattern text ↔ kind text

theorem selects_of_quote {answer : Except Fault Value} {kind : Text → Prop} {pattern : Text}
    (hAnswer : answer = .ok (.sql (quote pattern)))
    (hPattern : ∀ text, Matches pattern text ↔ kind text) : Selects answer kind :=
  ⟨quote pattern, pattern, hAnswer, unquote?_quote pattern, hPattern⟩

/-- **The pattern literals of a text select the text itself, the texts that begin with it and those
that end with it**, whatever wildcards, backslashes and quotes it holds. -/
theorem selects_like {v : Value} {s : Text} (h : v.text? = some s) :
    Selects (Formatter.like.apply v) (· = s) ∧
    Selects (Formatter.likeStart.apply v) (s <+: ·) ∧
    Selects (Formatter.likeEnd.apply v) (s <:+ ·) := by
  have hPlain (make : Text → Text) : ofPlain make v = .ok (make s) := by
    cases v <;> cases h <;> rfl
  refine ⟨selects_of_quote ?_ fun text => matches_escapePattern_iff s,
    selects_of_quote ?_ fun text => matches_escapePattern_any_iff s,
    selects_of_quote ?_ fun text => matches_any_escapePattern_iff s⟩
  · rw [Formatter.apply, like, hPlain]
    rfl
  · rw [Formatter.apply, likeStart, hPlain]
    rfl
  · rw [Formatter.apply, likeEnd, hPlain]
    rfl

/-- A text that ends in a backslash, with both wildcards and a quote in it. -/
theorem selects_like_trailingBackslash :
    (Value.text "5%_o'\\".toList).text? = some "5%_o'\\".toList ∧
    Formatter.likeStart.apply (.text "5%_o'\\".toList) = .ok (.sql "'5\\%\\_o''\\\\%'".toList) ∧
    Selects (Formatter.likeStart.apply (.text "5%_o'\\".toList)) ("5%_o'\\".toList <+: ·) ∧
    Selects (Formatter.likeEnd.apply (.sql "5%_o'\\".toList)) ("5%_o'\\".toList <:+ ·) := by
  refine ⟨rfl, by rfl, ?_, ?_⟩
  · exact (selects_like (v := .text "5%_o'\\".toList) rfl).2.1
  · exact (selects_like (v := .sql "5%_o'\\".toList) rfl).2.2

end Literal

end SqlTemplate
