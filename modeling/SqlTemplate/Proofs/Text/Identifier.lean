import SqlTemplate.Proofs.Text.Decimal
import SqlTemplate.Proofs.Text.Runs
import SqlTemplate.Text.Identifier

/-!
# Where an identifier begins and ends

An identifier is read where one can begin (`identifier_eq_nil_iff`) and up to where it cannot go on
(`identifier_append_of_head?`, `exists_append_of_identifier`).
-/

namespace SqlTemplate

namespace Text

variable {name rest text : Text}

/-- An identifier begins with a letter of ASCII or an underscore. -/
theorem range_of_isIdentifierStart {c : Char} (h : isIdentifierStart c) :
    58 ≤ c.toNat ∧ c.toNat < 128 := by
  rw [isIdentifierStart, Bool.or_eq_true, beq_iff_eq] at h
  rcases h with hAlpha | rfl
  · rcases (Bool.or_eq_true _ _).mp hAlpha with hUpper | hLower
    · obtain ⟨hLow, hHigh⟩ := of_decide_eq_true hUpper
      exact ⟨Nat.le_trans (by decide) hLow, Nat.lt_of_le_of_lt hHigh (by decide)⟩
    · obtain ⟨hLow, hHigh⟩ := (Bool.and_eq_true _ _).mp hLower
      exact ⟨Nat.le_trans (by decide) (of_decide_eq_true hLow),
        Nat.lt_of_le_of_lt (of_decide_eq_true hHigh) (by decide)⟩
  · decide

theorem isBlank_of_isIdentifierPart {c : Char} (h : isIdentifierPart c) : isBlank c = false := by
  have hOutside : 33 ≤ c.toNat ∧ c.toNat < 128 := by
    rw [isIdentifierPart, Char.isAlphanum, Bool.or_assoc, Bool.or_comm c.isDigit, ← Bool.or_assoc,
      Bool.or_eq_true] at h
    rcases h with hStart | hDigit
    · obtain ⟨hLow, hHigh⟩ := range_of_isIdentifierStart hStart
      exact ⟨Nat.le_trans (by decide) hLow, hHigh⟩
    · obtain ⟨hLow, hHigh⟩ := range_of_ascii hDigit
      exact ⟨Nat.le_trans (by decide) hLow, Nat.lt_trans hHigh (by decide)⟩
  exact isBlank_eq_false_of_range hOutside.1 hOutside.2

/-- There is no identifier where none can begin. -/
theorem identifier_eq_nil_iff :
    identifier text = [] ↔ ∀ c ∈ text.head?, ¬isIdentifierStart c := by
  cases text with
  | nil => simp [identifier]
  | cons c rest =>
    rw [identifier]
    split <;> simp_all

/-- An identifier is a character with which one can begin and others with which it can go on. -/
theorem exists_cons_of_isIdentifier (h : IsIdentifier name) :
    ∃ c tail, name = c :: tail ∧ isIdentifierStart c = true ∧
      ∀ d ∈ tail, isIdentifierPart d = true := by
  obtain ⟨hne, hName⟩ := h
  cases name with
  | nil => exact absurd rfl hne
  | cons c tail =>
    rw [identifier] at hName
    split at hName
    next hStart =>
      exact ⟨c, tail, rfl, hStart, List.takeWhile_eq_self_iff.mp (List.cons.inj hName).2⟩
    · cases hName

/-- An identifier is read up to where none can go on. -/
theorem identifier_append_of_head? (h : IsIdentifier name)
    (hRest : ∀ c ∈ rest.head?, ¬isIdentifierPart c) : identifier (name ++ rest) = name := by
  obtain ⟨c, tail, rfl, hStart, hParts⟩ := exists_cons_of_isIdentifier h
  rw [List.cons_append, identifier, if_pos hStart,
    takeWhile_run hParts fun d hd => Bool.eq_false_iff.mpr (hRest d hd)]

/-- What is read as an identifier is one, and it goes on as long as it can. -/
theorem exists_append_of_identifier (h : identifier text ≠ []) :
    IsIdentifier (identifier text) ∧ ∃ rest, text = identifier text ++ rest ∧
      ∀ c ∈ rest.head?, ¬isIdentifierPart c := by
  cases text with
  | nil => exact absurd rfl h
  | cons c tail =>
    by_cases hStart : isIdentifierStart c
    · obtain ⟨run, rest, rfl, hRun, hRest⟩ := exists_run isIdentifierPart tail
      rw [identifier, if_pos hStart, takeWhile_run hRun hRest]
      refine ⟨⟨List.cons_ne_nil _ _, ?_⟩, rest, rfl, fun d hd => ?_⟩
      · rw [identifier, if_pos hStart, List.takeWhile_eq_self_iff.mpr hRun]
      · exact ne_true_of_eq_false (hRest d hd)
    · rw [identifier, if_neg hStart] at h
      exact absurd rfl h

end Text

end SqlTemplate
