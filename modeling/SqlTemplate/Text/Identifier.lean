import SqlTemplate.Text.Search

/-!
# Identifiers

An identifier is an ASCII letter or underscore and then letters, digits and underscores, as many
as there are.
-/

namespace SqlTemplate

namespace Text

/-- Whether an identifier can begin with a character. -/
def isIdentifierStart (c : Char) : Bool := c.isAlpha || c == '_'

/-- Whether an identifier can go on with a character. -/
def isIdentifierPart (c : Char) : Bool := c.isAlphanum || c == '_'

/-- The identifier at the beginning of a text; empty if there is none. -/
def identifier : Text → Text
  | [] => []
  | c :: rest => if isIdentifierStart c then c :: rest.takeWhile isIdentifierPart else []

/-- Whether a text as a whole is an identifier. -/
def IsIdentifier (text : Text) : Prop := text ≠ [] ∧ identifier text = text

/-- Whatever begins an identifier can also stand inside it. -/
theorem isIdentifierPart_of_isIdentifierStart {c : Char} (h : isIdentifierStart c) :
    isIdentifierPart c := by
  simp only [isIdentifierStart, isIdentifierPart, Char.isAlphanum, Bool.or_eq_true] at h ⊢
  rcases h with hAlpha | hUnderscore
  · exact .inl (.inl hAlpha)
  · exact .inr hUnderscore

theorem all_identifier (text : Text) : (identifier text).all isIdentifierPart := by
  cases text with
  | nil => rfl
  | cons c rest =>
    rw [identifier]
    split
    next h =>
      rw [List.all_cons, isIdentifierPart_of_isIdentifierStart h, List.all_takeWhile,
        Bool.and_self]
    · rfl

end Text

end SqlTemplate
