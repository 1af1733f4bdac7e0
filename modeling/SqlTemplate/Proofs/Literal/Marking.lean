import SqlTemplate.Proofs.Literal.Items

/-!
# Formatting once more

What a formatter makes is marked as SQL, so that the literal that suits it is its own text. Only the
suitable literal of nothing, a truth value, an integer, a float or ready SQL has no mark
(`Value.IsBare`, `Formatter.apply_cases`): it is a text like any other and is quoted when it is
formatted once more. **So the text stays as it is exactly if it was made by another formatter or of
another value** (`keeps_formatted_iff`).
-/

namespace SqlTemplate

/-- Whether the literal that suits a value is the text of the value and has no mark. -/
def Value.IsBare : Value → Prop
  | null | bool _ | sql _ => True
  | number n => n.isDecimal = false
  | _ => False

namespace Literal

variable {v w : Value}

theorem exists_text_of_isBare (hBare : v.IsBare) (h : ofValue v = .ok w) : ∃ t, w = .text t := by
  cases v with
  | sql s =>
    cases h
    exact ⟨s, rfl⟩
  | null => exact exists_eq_of_map_eq_ok (scalar .null) h
  | bool b => exact exists_eq_of_map_eq_ok (scalar (.bool b)) h
  | number n =>
    cases n with
    | int n => exact exists_eq_of_map_eq_ok (scalar (.number (.int n))) h
    | float x => exact exists_eq_of_map_eq_ok (scalar (.number (.float x))) h
    | decimal d => cases hBare
  | _ => cases hBare

/-- The literal that suits a value is marked, unless the value is bare. -/
theorem exists_sql_of_not_isBare (hBare : ¬v.IsBare) (h : ofValue v = .ok w) : ∃ t, w = .sql t := by
  cases v with
  | null | bool | sql => exact absurd trivial hBare
  | number n =>
    cases n with
    | int | float => exact absurd rfl hBare
    | decimal d => exact exists_eq_of_map_eq_ok (scalar (.number (.decimal d))) h
  | text s => exact exists_eq_of_map_eq_ok (scalar (.text s)) h
  | bytes b => exact exists_eq_of_map_eq_ok (scalar (.bytes b)) h
  | list items => exact exists_eq_of_map_eq_ok (inList (.list items)) h
  | tuple items => exact exists_eq_of_map_eq_ok (inList (.tuple items)) h
  | set frozen items => exact exists_eq_of_map_eq_ok (inList (.set frozen items)) h
  | date | datetime | dict =>
    cases h
    exact ⟨_, rfl⟩

end Literal

namespace Formatter

/-- **Every result is marked as SQL, except the suitable literals of bare values.** -/
theorem apply_cases {f : Formatter} {v w : Value} (h : f.apply v = .ok w) :
    (∃ t, w = .sql t) ∧ ¬(f = suitable ∧ v.IsBare) ∨
      (∃ t, w = .text t) ∧ f = suitable ∧ v.IsBare := by
  cases f with
  | suitable =>
    by_cases hBare : v.IsBare
    · exact .inr ⟨Literal.exists_text_of_isBare hBare h, rfl, hBare⟩
    · exact .inl ⟨Literal.exists_sql_of_not_isBare hBare h, fun hBoth => hBare hBoth.2⟩
  | bool | date | datetime | json =>
    cases h
    exact .inl ⟨⟨_, rfl⟩, nofun⟩
  | string | int | float | inList | like | likeStart | likeEnd | raw =>
    exact .inl ⟨exists_eq_of_map_eq_ok _ h, nofun⟩

/-- **What a formatter makes keeps its text in the literal that suits it, unless it is itself the
suitable literal of a bare value**: that is quoted. -/
theorem keeps_formatted_iff {f : Formatter} {v w : Value} (h : f.apply v = .ok w) :
    ∃ t again, w.text? = some t ∧ suitable.apply w = .ok again ∧
      (again.text? = some t ↔ ¬(f = suitable ∧ v.IsBare)) ∧
      (f = suitable ∧ v.IsBare → again.text? = some (Literal.quote t)) := by
  obtain ⟨⟨t, rfl⟩, hMarked⟩ | ⟨⟨t, rfl⟩, hBare⟩ := apply_cases h
  · exact ⟨t, .text t, rfl, rfl, iff_of_true rfl hMarked, fun hBare => absurd hBare hMarked⟩
  · have hQuoted : some (Literal.quote t) ≠ some t := fun hSame =>
      Literal.quote_ne_self t (Option.some.inj hSame)
    exact ⟨t, .sql (Literal.quote t), rfl, rfl, iff_of_false hQuoted (not_not_intro hBare),
      fun _ => rfl⟩

/-- A pattern is kept; the literal of a truth value becomes a quoted text. -/
theorem keeps_formatted_iff_pattern :
    (like.apply (.text "5%".toList) = .ok (.sql "'5\\%'".toList) ∧
      ∃ again, suitable.apply (.sql "'5\\%'".toList) = .ok again ∧
        again.text? = some "'5\\%'".toList) ∧
    suitable.apply (.bool true) = .ok (.text "TRUE".toList) ∧
      ∃ again, suitable.apply (.text "TRUE".toList) = .ok again ∧
        again.text? = some "'TRUE'".toList := by
  have hPattern : like.apply (.text "5%".toList) = .ok (.sql "'5\\%'".toList) := rfl
  have hTrue : suitable.apply (.bool true) = .ok (.text "TRUE".toList) := rfl
  obtain ⟨t, kept, ht, hKept, hText, -⟩ := keeps_formatted_iff hPattern
  obtain ⟨u, quoted, hu, hQuoted, -, hAgain⟩ := keeps_formatted_iff hTrue
  cases ht
  cases hu
  exact ⟨⟨hPattern, kept, hKept, hText.mpr nofun⟩, hTrue, quoted, hQuoted, hAgain ⟨rfl, trivial⟩⟩

/-- The literal for nothing is quoted when it is formatted once more. -/
theorem not_keeps_formatted_always :
    ¬∀ (f : Formatter) (v w : Value), f.apply v = .ok w →
      ∃ again, suitable.apply w = .ok again ∧ again.text? = w.text? := by
  intro h
  obtain ⟨again, hAgain, hText⟩ := h suitable .null (.text Literal.null) rfl
  cases hAgain
  exact absurd hText (by decide)

end Formatter

end SqlTemplate
