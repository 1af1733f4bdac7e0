import SqlTemplate.Literal.Reading

/-!
# What stands outside quotes

A text is read from the left, into quotes and out of them again. What is read behind a text depends
only on whether that text ends inside quotes (`outside_append`). **A literal is entered and left,
whatever it is made of**: nothing of it stands outside quotes, and neither does the reader that
comes out of it see any difference (`outside_quote_append`).
-/

namespace SqlTemplate

namespace Literal

variable {text : Text}

@[simp] theorem endsQuoted_nil (quoted : Bool) : endsQuoted quoted [] = quoted := by
  cases quoted <;> rfl

/-- A quote takes the reader to the other side; any other character leaves it where it is. -/
theorem endsQuoted_cons (quoted : Bool) (c : Char) (rest : Text) :
    endsQuoted quoted (c :: rest) = endsQuoted (if c = '\'' then !quoted else quoted) rest := by
  by_cases hc : c = '\''
  · have hOther : ((rest.count '\'' + 1) % 2 == 1) = !(rest.count '\'' % 2 == 1) := by
      rcases Nat.mod_two_eq_zero_or_one (rest.count '\'') with h | h <;> simp [Nat.add_mod, h]
    rw [if_pos hc, hc, endsQuoted, endsQuoted, List.count_cons_self, hOther, Bool.xor_not,
      Bool.not_xor]
  · rw [if_neg hc, endsQuoted, endsQuoted, List.count_cons_of_ne hc]

theorem endsQuoted_append (quoted : Bool) (a b : Text) :
    endsQuoted quoted (a ++ b) = endsQuoted (endsQuoted quoted a) b := by
  induction a generalizing quoted with
  | nil => rw [List.nil_append, endsQuoted_nil]
  | cons c a ih => rw [List.cons_append, endsQuoted_cons, ih, ← endsQuoted_cons]

theorem endsQuoted_of_notMem (h : '\'' ∉ text) (quoted : Bool) :
    endsQuoted quoted text = quoted := by
  rw [endsQuoted, List.count_eq_zero.mpr h]
  cases quoted <;> rfl

/-- What stands outside quotes in a text and in what follows it. -/
theorem outside_append (quoted : Bool) (a b : Text) :
    outside quoted (a ++ b) = outside quoted a ++ outside (endsQuoted quoted a) b := by
  induction a generalizing quoted with
  | nil => rw [endsQuoted_nil, outside, List.nil_append, List.nil_append]
  | cons c a ih =>
    rw [List.cons_append, outside, outside, endsQuoted_cons]
    split
    · exact ih _
    · split
      · exact ih _
      · rw [ih, List.cons_append]

/-- Inside quotes, a text in which every quote is written twice is passed over up to the quote
behind it. -/
theorem outside_doubleQuotes_append (s rest : Text) :
    outside true (doubleQuotes s ++ '\'' :: rest) = outside false rest := by
  induction s with
  | nil => rfl
  | cons c s ih =>
    rw [doubleQuotes]
    split
    next => exact ih
    next hc =>
      rw [List.cons_append, outside, if_neg hc, if_pos rfl]
      exact ih

/-- **Nothing of a literal stands outside quotes**, and behind it one reads on as before it. -/
theorem outside_quote_append (s rest : Text) :
    outside false (quote s ++ rest) = outside false rest := by
  have hQuote : quote s ++ rest = '\'' :: (doubleQuotes s ++ '\'' :: rest) := by
    simp only [quote, List.cons_append, List.append_assoc, List.nil_append]
  rw [hQuote, outside, if_pos rfl]
  exact outside_doubleQuotes_append s rest

end Literal

end SqlTemplate
