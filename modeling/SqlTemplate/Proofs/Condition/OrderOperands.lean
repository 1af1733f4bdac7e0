import SqlTemplate.Condition.Coercion

/-!
# The operands of an order

Nothing stands for the empty text beside a text and for zero beside anything else. So two values are
ordered as texts if each of them is one or nothing, and not both are nothing (`textBeside?`);
**otherwise they are ordered as the numbers that they count as, or not at all**
(`orderOf_of_texts`, `orderOf_of_not_texts`).
-/

namespace SqlTemplate

namespace Condition

variable {left right v other : Value}

/-! ### Nothing beside other values -/

/-- The text as which a value is compared with another one: nothing is the empty text beside a
text. -/
def textBeside? (other : Value) : Value → Option Text
  | .null => if other.text?.isSome then some [] else none
  | v => v.text?

theorem textBeside?_of_ne (hNull : v ≠ .null) : textBeside? other v = v.text? := by
  rw [textBeside?]
  exact hNull

theorem text?_nullAs (other : Value) : (nullAs other).text? = textBeside? other .null := by
  rw [nullAs, textBeside?]
  cases other.text? <;> rfl

theorem textBeside?_null_eq_none_iff : textBeside? other .null = none ↔ other.text? = none := by
  rw [textBeside?]
  cases other.text? with
  | none => exact iff_of_true rfl rfl
  | some s => exact iff_of_false nofun nofun

/-- Beside no text nothing is zero, as which it counts anyway. -/
theorem toNumber_nullAs (h : other.text? = none) :
    toNumber (nullAs other) = toNumber .null := by
  rw [nullAs, h]
  rfl

theorem withoutNull_of_ne (hLeft : left ≠ .null) (hRight : right ≠ .null) :
    withoutNull left right = (left, right) := by
  unfold withoutNull
  split
  · exact absurd rfl hLeft
  · rfl

theorem withoutNull_left (hRight : right ≠ .null) :
    withoutNull .null right = (nullAs right, right) := by
  unfold withoutNull
  dsimp only
  split
  · exact absurd rfl hRight
  · rfl

theorem withoutNull_right (hLeft : left ≠ .null) :
    withoutNull left .null = (left, nullAs left) := by
  unfold withoutNull
  split
  · exact absurd rfl hLeft
  · rfl

/-- The texts that two operands are compared as. -/
theorem text?_withoutNull (left right : Value) :
    (withoutNull left right).1.text? = textBeside? right left ∧
      (withoutNull left right).2.text? = textBeside? left right := by
  by_cases hLeft : left = .null
  · subst hLeft
    by_cases hRight : right = .null
    · subst hRight
      exact ⟨rfl, rfl⟩
    · rw [withoutNull_left hRight, textBeside?_of_ne hRight]
      exact ⟨text?_nullAs right, rfl⟩
  · by_cases hRight : right = .null
    · subst hRight
      rw [withoutNull_right hLeft, textBeside?_of_ne hLeft]
      exact ⟨rfl, text?_nullAs left⟩
    · rw [withoutNull_of_ne hLeft hRight, textBeside?_of_ne hLeft, textBeside?_of_ne hRight]
      exact ⟨rfl, rfl⟩

/-- If they are not both texts, the operands count as the same numbers as before. -/
theorem toNumber_withoutNull (h : textBeside? right left = none ∨ textBeside? left right = none) :
    toNumber (withoutNull left right).1 = toNumber left ∧
      toNumber (withoutNull left right).2 = toNumber right := by
  by_cases hLeft : left = .null
  · subst hLeft
    by_cases hRight : right = .null
    · subst hRight
      exact ⟨rfl, rfl⟩
    · rw [textBeside?_null_eq_none_iff, textBeside?_of_ne hRight, or_self] at h
      rw [withoutNull_left hRight]
      exact ⟨toNumber_nullAs h, rfl⟩
  · by_cases hRight : right = .null
    · subst hRight
      rw [textBeside?_null_eq_none_iff, textBeside?_of_ne hLeft, or_self] at h
      rw [withoutNull_right hLeft]
      exact ⟨rfl, toNumber_nullAs h⟩
    · rw [withoutNull_of_ne hLeft hRight]
      exact ⟨rfl, rfl⟩

/-- Two operands are compared as texts, or one of them is none. -/
theorem texts_or_not (left right : Value) :
    (∃ s t, textBeside? right left = some s ∧ textBeside? left right = some t) ∨
      textBeside? right left = none ∨ textBeside? left right = none := by
  cases textBeside? right left with
  | none => exact .inr (.inl rfl)
  | some s =>
    cases textBeside? left right with
    | none => exact .inr (.inr rfl)
    | some t => exact .inl ⟨s, t, rfl, rfl⟩

/-! ### The order -/

/-- The error of two operands that have no order; it is a fault if one of them cannot be shown. -/
def unordered (op : BinaryOp) (left right : Value) : EvalError :=
  match left.shown, right.shown with
  | .error fault, _ => .operand (.number fault)
  | .ok _, .error fault => .operand (.number fault)
  | .ok shownLeft, .ok shownRight => .cannotCompare shownLeft op shownRight

theorem orderOf_of_texts (op : BinaryOp) {s t : Text} (hs : textBeside? right left = some s)
    (ht : textBeside? left right = some t) : orderOf op left right = .ok (some (s.order t)) := by
  obtain ⟨hLeft, hRight⟩ := text?_withoutNull left right
  rw [hs] at hLeft
  rw [ht] at hRight
  rw [orderOf]
  generalize withoutNull left right = operands at hLeft hRight ⊢
  obtain ⟨a, b⟩ := operands
  dsimp only at hLeft hRight ⊢
  rw [hLeft, hRight]

theorem orderOf_of_not_texts (op : BinaryOp)
    (h : textBeside? right left = none ∨ textBeside? left right = none) :
    orderOf op left right = (do
      let m ← (toNumber left).mapError .operand
      let n ← (toNumber right).mapError .operand
      (m.order n).mapError fun _ => unordered op left right) := by
  obtain ⟨hLeft, hRight⟩ := text?_withoutNull left right
  obtain ⟨hm, hn⟩ := toNumber_withoutNull h
  rw [orderOf]
  generalize withoutNull left right = operands at hLeft hRight hm hn ⊢
  obtain ⟨a, b⟩ := operands
  dsimp only at hLeft hRight hm hn ⊢
  rw [hLeft, hRight, hm, hn]
  split
  next s t hs ht =>
    rcases h with h | h
    · cases h.symm.trans hs
    · cases h.symm.trans ht
  next =>
    refine bind_congr fun m => bind_congr fun n => ?_
    rw [unordered]
    cases m.order n with
    | ok o => rfl
    | error signal => cases left.shown <;> cases right.shown <;> rfl

end Condition

end SqlTemplate
