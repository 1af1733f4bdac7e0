import SqlTemplate.Condition.Evaluation
import SqlTemplate.Proofs.Condition.OrderOperands
import SqlTemplate.Proofs.Number.Range
import SqlTemplate.Proofs.Value.Signaling

/-!
# Operands from which a fault escapes

An error of evaluation only makes a condition fail, with one exception: a fault of a number that is
met outside arithmetic is raised by whoever evaluates the condition (`Escapes`). Each operation says
of its operands when that happens: the message that something is no number cannot be written
(`Value.HoldsLongItem`), a comparison meets a signaling NaN or has to write an integer of too many
digits (`EqualityStumbles`, `OrderStumbles`), or a decimal has no opposite
(`Decimal.LacksOpposite`). **These are all the operands from which a fault escapes**
(`escapes_applyUnary_iff`, `escapes_applyBinary_iff`).
-/

namespace SqlTemplate

namespace Value

/-- Whether a value is no number but holds an integer of too many digits, so that no message can
show it. -/
def HoldsLongItem (v : Value) : Prop := v.HoldsLongInteger ∧ ∀ n, v ≠ .number n

theorem not_holdsLongInteger_null : ¬null.HoldsLongInteger := by
  intro h
  cases h

theorem not_holdsLongInteger_of_text? {v : Value} {s : Text} (h : v.text? = some s) :
    ¬v.HoldsLongInteger := by
  cases v with
  | text | sql =>
    intro h
    cases h
  | _ => cases h

end Value

/-- Whether a number cannot be compared with a text: with a numeral because it stops every
comparison, with any other text because it cannot be written. -/
def Number.StumblesOver (n : Number) (s : Text) : Prop :=
  match Number.ofText? s with
  | some _ => n.isSignaling
  | none => (Value.number n).HoldsLongInteger

namespace Condition

/-! ### Faults that escape -/

/-- Whether a fault escapes from an evaluation. -/
def Escapes {α : Type} (x : Except EvalError α) : Prop :=
  ∃ fault, x = .error (.operand (.number fault))

section

variable {α β : Type}

@[simp] theorem not_escapes_ok (a : α) : ¬Escapes (.ok a) := not_exists_ok_eq_error

@[simp] theorem not_escapes_pure (a : α) : ¬Escapes (pure a) := not_escapes_ok a

theorem escapes_bind_iff {x : Except EvalError α} {next : α → Except EvalError β} :
    Escapes (x >>= next) ↔ Escapes x ∨ ∃ a, x = .ok a ∧ Escapes (next a) := by
  simp only [Escapes, bind_eq_error_iff, exists_or, ← exists_and_left]
  rw [exists_comm]

theorem escapes_bind_pure_iff {x : Except EvalError α} (f : α → β) :
    Escapes (x >>= fun a => pure (f a)) ↔ Escapes x := by
  simp only [escapes_bind_iff, not_escapes_pure, and_false, exists_false, or_false]

theorem escapes_mapError_operand_iff {x : Except OperandFault α} :
    Escapes (x.mapError .operand) ↔ ∃ fault, x = .error (.number fault) := by
  simp only [Escapes, mapError_eq_error_iff, EvalError.operand.injEq, exists_eq_right]

theorem escapes_mapError_number_iff {x : Except Fault α} :
    Escapes (x.mapError fun fault => .operand (.number fault)) ↔ ∃ fault, x = .error fault := by
  simp only [Escapes, mapError_eq_error_iff, EvalError.operand.injEq, OperandFault.number.injEq,
    exists_eq_right]

end

/-! ### Operands -/

/-- A text that is no numeral can be shown. -/
theorem toNumber_of_text? {v : Value} {s : Text} (h : v.text? = some s) :
    toNumber v = match Number.ofText? s with
      | some n => .ok n
      | none => .error (.notANumber s.quoted) := by
  cases v with
  | text t | sql t =>
    cases h
    cases hNumeral : Number.ofText? s <;>
      simp only [toNumber, Value.text?, Option.bind_some, Value.shown, hNumeral]
  | _ => cases h

/-- What is neither nothing, a truth value, a number nor a text is rejected by a message that shows
it. -/
theorem toNumber_of_other {v : Value} (hNull : v ≠ .null) (hNumeric : v.numeric? = none)
    (hText : v.text? = none) :
    toNumber v = match v.shown with
      | .ok shown => .error (.notANumber shown)
      | .error fault => .error (.number fault) := by
  cases v with
  | null => exact absurd rfl hNull
  | bool | number => cases hNumeric
  | text | sql => cases hText
  | _ => rfl

/-- How a value can count as a number. -/
theorem number_cases (v : Value) :
    v = .null ∨ (∃ b, v = .bool b) ∨ (∃ n, v = .number n) ∨ (∃ s, v.text? = some s) ∨
      (v ≠ .null ∧ v.numeric? = none ∧ v.text? = none) := by
  cases v <;> simp [Value.numeric?, Value.text?]

/-- **A value cannot be rejected as a number just if it is none and holds an integer of too many
digits.** -/
theorem exists_toNumber_eq_fault_iff (v : Value) :
    (∃ fault, toNumber v = .error (.number fault)) ↔ v.HoldsLongItem := by
  rcases number_cases v with rfl | ⟨b, rfl⟩ | ⟨n, rfl⟩ | ⟨s, hText⟩ | ⟨hNull, hNumeric, hText⟩
  · exact iff_of_false not_exists_ok_eq_error fun h => by cases h.1
  · exact iff_of_false not_exists_ok_eq_error fun h => by cases h.1
  · exact iff_of_false not_exists_ok_eq_error fun h => h.2 n rfl
  · refine iff_of_false ?_ fun h => Value.not_holdsLongInteger_of_text? hText h.1
    rintro ⟨fault, h⟩
    rw [toNumber_of_text? hText] at h
    cases hNumeral : Number.ofText? s <;> rw [hNumeral] at h <;> cases h
  · have hNumber : ∀ n, v ≠ .number n := by
      rintro n rfl
      cases hNumeric
    rw [toNumber_of_other hNull hNumeric hText, Value.HoldsLongItem, and_iff_left hNumber,
      ← v.exists_shown_eq_error_iff]
    cases v.shown with
    | ok t =>
      refine iff_of_false ?_ not_exists_ok_eq_error
      rintro ⟨_, h⟩
      cases h
    | error fault => exact iff_of_true ⟨fault, rfl⟩ ⟨fault, rfl⟩

/-- A numeral is read as an integer or a float. -/
theorem isDecimal_of_ofText? {s : Text} {n : Number} (h : Number.ofText? s = some n) :
    n.isDecimal = false := by
  rcases Number.cases_of_ofText? h with ⟨i, rfl⟩ | ⟨numeral, rfl⟩
  · rfl
  · rfl

theorem isSignaling_of_not_isDecimal {n : Number} (h : n.isDecimal = false) :
    n.isSignaling = false := by
  cases n with
  | int | float => rfl
  | decimal => cases h

/-- A number and a text. -/
theorem exists_numberEqualsText_eq_error_iff (n : Number) (s : Text) :
    (∃ fault, numberEqualsText n s = .error fault) ↔ n.StumblesOver s := by
  rw [numberEqualsText, Number.StumblesOver]
  cases hNumeral : Number.ofText? s with
  | none =>
    simp only [exists_eq_error_iff, exists_bind_pure_eq_ok_iff, Value.exists_text_iff,
      Classical.not_not]
  | some m =>
    simp only [exists_mapError_eq_error_iff, Number.exists_equals_eq_error_iff,
      isSignaling_of_not_isDecimal (isDecimal_of_ofText? hNumeral), Bool.false_eq_true, false_or]

/-- A text is compared with no NaN. -/
theorem not_meetsSignaling_of_text? {v w : Value} {s : Text} (h : v.text? = some s) :
    ¬v.MeetsSignaling w ∧ ¬w.MeetsSignaling v := by
  have hNumeric : v.numeric? = none := by
    cases v with
    | text | sql => rfl
    | _ => cases h
  constructor
  · intro hMeets
    cases hMeets with
    | numbers hv _ _ => cases hNumeric.symm.trans hv
    | _ => cases h
  · intro hMeets
    cases hMeets with
    | numbers _ hv _ => cases hNumeric.symm.trans hv
    | _ => cases h

/-- Whether the equality of two values cannot be told. -/
inductive EqualityStumbles : Value → Value → Prop where
  /-- A number and a text. -/
  | numberText {n : Number} {right : Value} {s : Text} :
    right.text? = some s → n.StumblesOver s → EqualityStumbles (.number n) right
  /-- A text and a number. -/
  | textNumber {left : Value} {n : Number} {s : Text} :
    left.text? = some s → n.StumblesOver s → EqualityStumbles left (.number n)
  /-- Values of other kinds, whose comparison comes to a signaling NaN. -/
  | values {left right : Value} :
    comparesTruth left = false → comparesTruth right = false →
    left.MeetsSignaling right → EqualityStumbles left right

theorem comparesTruth_of_text? {v : Value} {s : Text} (h : v.text? = some s) :
    comparesTruth v = false := by
  cases v with
  | text | sql => rfl
  | _ => cases h

/-- Nothing and truth values are equal to whatever counts as they do. -/
theorem EqualityStumbles.comparesTruth {left right : Value} (h : EqualityStumbles left right) :
    (comparesTruth left || comparesTruth right) = false := by
  rw [Bool.or_eq_false_iff]
  cases h with
  | numberText hText _ => exact ⟨rfl, comparesTruth_of_text? hText⟩
  | textNumber hText _ => exact ⟨comparesTruth_of_text? hText, rfl⟩
  | values hLeft hRight _ => exact ⟨hLeft, hRight⟩

theorem equalityStumbles_numberText_iff {n : Number} {v : Value} {s : Text}
    (h : v.text? = some s) : EqualityStumbles (.number n) v ↔ n.StumblesOver s := by
  refine ⟨fun hStumbles => ?_, .numberText h⟩
  cases hStumbles with
  | numberText hText hOver => exact Option.some.inj (h.symm.trans hText) ▸ hOver
  | textNumber hText _ => cases hText
  | values _ _ hMeets => exact absurd hMeets (not_meetsSignaling_of_text? h).2

theorem equalityStumbles_textNumber_iff {n : Number} {v : Value} {s : Text}
    (h : v.text? = some s) : EqualityStumbles v (.number n) ↔ n.StumblesOver s := by
  refine ⟨fun hStumbles => ?_, .textNumber h⟩
  cases hStumbles with
  | numberText hText _ => cases hText
  | textNumber hText hOver => exact Option.some.inj (h.symm.trans hText) ▸ hOver
  | values _ _ hMeets => exact absurd hMeets (not_meetsSignaling_of_text? h).1

/-- **Whether two values are equal can be told unless the comparison stumbles.** -/
theorem exists_looseEquals_eq_error_iff (left right : Value) :
    (∃ fault, looseEquals left right = .error fault) ↔ EqualityStumbles left right := by
  unfold looseEquals
  split
  next hTruth =>
    refine iff_of_false not_exists_ok_eq_error fun h => ?_
    cases hTruth.symm.trans h.comparesTruth
  next hTruth =>
    split
    next n s hText =>
      rw [exists_numberEqualsText_eq_error_iff, equalityStumbles_numberText_iff hText]
    next s n hText _ =>
      rw [exists_numberEqualsText_eq_error_iff, equalityStumbles_textNumber_iff hText]
    next hTextNumber hNumberText =>
      rw [Bool.not_eq_true, Bool.or_eq_false_iff] at hTruth
      rw [exists_mapError_eq_error_iff, Value.exists_equals_eq_error_iff]
      refine ⟨.values hTruth.1 hTruth.2, fun h => ?_⟩
      cases h with
      | numberText hText _ => exact absurd hText (hNumberText _ _ rfl)
      | textNumber hText _ => exact absurd rfl (hTextNumber _ _ hText)
      | values _ _ hMeets => exact hMeets

/-- Whether the order of two values, none of them a truth value, cannot be told, nor a message
be written that says so. -/
inductive OrderStumbles : Value → Value → Prop where
  /-- The left one is no number. -/
  | left {left right : Value} : left.HoldsLongItem → OrderStumbles left right
  /-- The left one is a number, the right one is not. -/
  | right {left right : Value} {m : Number} :
    toNumber left = .ok m → right.HoldsLongItem → OrderStumbles left right
  /-- An integer is compared with a NaN. -/
  | leftLong {n : Int} {d : Decimal} :
    (Value.number (.int n)).HoldsLongInteger → d.isNaN →
    OrderStumbles (.number (.int n)) (.number (.decimal d))
  /-- A NaN is compared with an integer. -/
  | rightLong {n : Int} {d : Decimal} :
    (Value.number (.int n)).HoldsLongInteger → d.isNaN →
    OrderStumbles (.number (.decimal d)) (.number (.int n))

/-- What counts as a number is nothing, a truth value, a number or a numeral. -/
theorem cases_of_toNumber {v : Value} {n : Number} (h : toNumber v = .ok n) :
    (v = .null ∧ n = .int 0) ∨ (∃ b, v = .bool b) ∨ v = .number n ∨
      ∃ s, v.text? = some s ∧ Number.ofText? s = some n := by
  rcases number_cases v with rfl | ⟨b, rfl⟩ | ⟨m, rfl⟩ | ⟨s, hText⟩ | ⟨hNull, hNumeric, hText⟩
  · cases h
    exact .inl ⟨rfl, rfl⟩
  · exact .inr (.inl ⟨b, rfl⟩)
  · cases h
    exact .inr (.inr (.inl rfl))
  · rw [toNumber_of_text? hText] at h
    cases hNumeral : Number.ofText? s with
    | none =>
      rw [hNumeral] at h
      cases h
    | some m =>
      rw [hNumeral] at h
      cases h
      exact .inr (.inr (.inr ⟨s, hText, hNumeral⟩))
  · rw [toNumber_of_other hNull hNumeric hText] at h
    cases hShown : v.shown <;> rw [hShown] at h <;> cases h

/-- What counts as a number is one, or it is read as an integer or a float and can be written. -/
theorem toNumber_eq_ok {v : Value} {n : Number} (h : toNumber v = .ok n) :
    v = .number n ∨ (n.isDecimal = false ∧ ¬v.HoldsLongInteger) := by
  rcases cases_of_toNumber h with ⟨rfl, rfl⟩ | ⟨b, rfl⟩ | hNumber | ⟨s, hText, hNumeral⟩
  · exact .inr ⟨rfl, fun h => by cases h⟩
  · cases h
    exact .inr ⟨rfl, fun h => by cases h⟩
  · exact .inl hNumber
  · exact .inr ⟨isDecimal_of_ofText? hNumeral, Value.not_holdsLongInteger_of_text? hText⟩

theorem not_holdsLongInteger_of_textBeside? {v other : Value} {s : Text}
    (h : textBeside? other v = some s) : ¬v.HoldsLongInteger := by
  by_cases hNull : v = .null
  · subst hNull
    exact Value.not_holdsLongInteger_null
  · rw [textBeside?_of_ne hNull] at h
    exact Value.not_holdsLongInteger_of_text? h

theorem exists_order_eq_error_iff (m n : Number) :
    (∃ signal, m.order n = .error signal) ↔
      (m.isDecimal ∨ n.isDecimal) ∧ (m.extended? = none ∨ n.extended? = none) := by
  have hDecimal : (∃ signal, (if m.isDecimal || n.isDecimal then .error .invalidOperation
      else .ok none : Except Signal (Option Ordering)) = .error signal) ↔
      m.isDecimal ∨ n.isDecimal := by
    rw [← Bool.or_eq_true]
    split
    next h => exact iff_of_true ⟨_, rfl⟩ h
    next h => exact iff_of_false not_exists_ok_eq_error h
  rw [Number.order]
  cases hm : m.extended? with
  | none => exact hDecimal.trans (and_iff_left (.inl rfl)).symm
  | some x =>
    cases hn : n.extended? with
    | none => exact hDecimal.trans (and_iff_left (.inr rfl)).symm
    | some y =>
      exact iff_of_false not_exists_ok_eq_error fun h => by cases h.2 <;> contradiction

/-- A number without an exact value is a NaN. -/
theorem isNaN_of_extended? {d : Decimal} (h : (Number.decimal d).extended? = none) : d.isNaN := by
  cases d with
  | finite | infinite => cases h
  | nan => rfl

theorem extended?_of_isNaN {d : Decimal} (h : d.isNaN) : (Number.decimal d).extended? = none := by
  cases d with
  | finite | infinite => cases h
  | nan => rfl

/-- What counts as a number and cannot be written is an integer. -/
theorem exists_int_of_holdsLongInteger {v : Value} {n : Number} (h : toNumber v = .ok n)
    (hLong : v.HoldsLongInteger) : ∃ i, v = .number (.int i) ∧ n = .int i := by
  rcases toNumber_eq_ok h with rfl | ⟨-, hShort⟩
  · cases hLong with
    | int => exact ⟨_, rfl, rfl⟩
  · exact absurd hLong hShort

/-- What counts as a decimal without an exact value is a NaN. -/
theorem exists_nan_of_isDecimal {v : Value} {n : Number} (h : toNumber v = .ok n)
    (hDecimal : n.isDecimal) (hNone : n.extended? = none) :
    ∃ d, v = .number (.decimal d) ∧ d.isNaN := by
  rcases toNumber_eq_ok h with rfl | ⟨hOther, -⟩
  · cases n with
    | int | float => cases hDecimal
    | decimal d => exact ⟨d, rfl, isNaN_of_extended? hNone⟩
  · cases hDecimal.symm.trans hOther

/-- Two operands that count as numbers stumble if they have no order and one cannot be written. -/
theorem orderStumbles_iff {left right : Value} {m n : Number} (hLeft : toNumber left = .ok m)
    (hRight : toNumber right = .ok n) :
    OrderStumbles left right ↔ (∃ signal, m.order n = .error signal) ∧
      (left.HoldsLongInteger ∨ right.HoldsLongInteger) := by
  have hNotLeft : ¬left.HoldsLongItem := by
    rw [← exists_toNumber_eq_fault_iff, hLeft]
    exact not_exists_ok_eq_error
  have hNotRight : ¬right.HoldsLongItem := by
    rw [← exists_toNumber_eq_fault_iff, hRight]
    exact not_exists_ok_eq_error
  rw [exists_order_eq_error_iff]
  constructor
  · intro h
    cases h with
    | left h => exact absurd h hNotLeft
    | right _ h => exact absurd h hNotRight
    | leftLong hLong hNaN =>
      cases hLeft
      cases hRight
      exact ⟨⟨.inr rfl, .inr (extended?_of_isNaN hNaN)⟩, .inl hLong⟩
    | rightLong hLong hNaN =>
      cases hLeft
      cases hRight
      exact ⟨⟨.inl rfl, .inl (extended?_of_isNaN hNaN)⟩, .inr hLong⟩
  · rintro ⟨⟨hDecimal, hNone⟩, hLong | hLong⟩
    · obtain ⟨i, rfl, rfl⟩ := exists_int_of_holdsLongInteger hLeft hLong
      obtain ⟨d, rfl, hNaN⟩ := exists_nan_of_isDecimal hRight
        (hDecimal.resolve_left Bool.false_ne_true) (hNone.resolve_left fun h => by cases h)
      exact .leftLong hLong hNaN
    · obtain ⟨i, rfl, rfl⟩ := exists_int_of_holdsLongInteger hRight hLong
      obtain ⟨d, rfl, hNaN⟩ := exists_nan_of_isDecimal hLeft
        (hDecimal.resolve_right Bool.false_ne_true) (hNone.resolve_right fun h => by cases h)
      exact .rightLong hLong hNaN

/-- Two operands that have no order are shown in the message that says so. -/
theorem exists_unordered_eq_fault_iff (op : BinaryOp) (left right : Value) :
    (∃ fault, unordered op left right = .operand (.number fault)) ↔
      left.HoldsLongInteger ∨ right.HoldsLongInteger := by
  rw [unordered, ← left.exists_shown_eq_error_iff, ← right.exists_shown_eq_error_iff]
  cases left.shown with
  | error fault => exact iff_of_true ⟨fault, rfl⟩ (.inl ⟨fault, rfl⟩)
  | ok t =>
    cases right.shown with
    | error fault => exact iff_of_true ⟨fault, rfl⟩ (.inr ⟨fault, rfl⟩)
    | ok u =>
      refine iff_of_false ?_ ?_
      · rintro ⟨_, h⟩
        cases h
      · rintro (⟨_, h⟩ | ⟨_, h⟩) <;> cases h

theorem escapes_mapError_unordered_iff (op : BinaryOp) (left right : Value)
    {order : Except Signal (Option Ordering)} :
    Escapes (order.mapError fun _ => unordered op left right) ↔
      (∃ signal, order = .error signal) ∧ (left.HoldsLongInteger ∨ right.HoldsLongInteger) := by
  simp only [Escapes, mapError_eq_error_iff, ← exists_unordered_eq_fault_iff op left right]
  constructor
  · rintro ⟨fault, signal, hOrder, hFault⟩
    exact ⟨⟨signal, hOrder⟩, fault, hFault⟩
  · rintro ⟨⟨signal, hOrder⟩, fault, hFault⟩
    exact ⟨fault, signal, hOrder, hFault⟩

/-- **The order of two values can be told, or a message says that it cannot, unless the comparison
stumbles.** -/
theorem escapes_orderOf_iff (op : BinaryOp) (left right : Value) :
    Escapes (orderOf op left right) ↔ OrderStumbles left right := by
  rcases texts_or_not left right with ⟨s, t, hs, ht⟩ | hTexts
  · rw [orderOf_of_texts op hs ht]
    refine iff_of_false (not_escapes_ok _) fun h => ?_
    cases h with
    | left h => exact not_holdsLongInteger_of_textBeside? hs h.1
    | right _ h => exact not_holdsLongInteger_of_textBeside? ht h.1
    | leftLong h _ => exact not_holdsLongInteger_of_textBeside? hs h
    | rightLong h _ => exact not_holdsLongInteger_of_textBeside? ht h
  · rw [orderOf_of_not_texts op hTexts]
    simp only [escapes_bind_iff, escapes_mapError_operand_iff, mapError_eq_ok_iff,
      exists_toNumber_eq_fault_iff, escapes_mapError_unordered_iff]
    constructor
    · rintro (hItem | ⟨m, hm, hItem | ⟨n, hn, h⟩⟩)
      · exact .left hItem
      · exact .right hm hItem
      · exact (orderStumbles_iff hm hn).mpr h
    · intro h
      have hNumbers {m n : Number} (hm : toNumber left = .ok m) (hn : toNumber right = .ok n) :=
        (orderStumbles_iff hm hn).mp h
      cases h with
      | left hItem => exact .inl hItem
      | right hm hItem => exact .inr ⟨_, hm, .inl hItem⟩
      | leftLong | rightLong => exact .inr ⟨_, rfl, .inr ⟨_, rfl, hNumbers rfl rfl⟩⟩

theorem escapes_compareValues_iff (op : BinaryOp) (left right : Value) :
    Escapes (compareValues op left right) ↔
      isBool left = false ∧ isBool right = false ∧ OrderStumbles left right := by
  rw [compareValues]
  split
  next hBool =>
    refine iff_of_false (not_escapes_ok _) fun h => ?_
    rw [h.1, h.2.1] at hBool
    cases hBool
  next hBool =>
    rw [Bool.not_eq_true, Bool.or_eq_false_iff] at hBool
    rw [and_iff_right hBool.1, and_iff_right hBool.2, ← escapes_orderOf_iff op, escapes_bind_iff]
    refine or_iff_left ?_
    rintro ⟨o, -, h⟩
    cases o <;> exact not_escapes_pure _ h

/-- Whether a unary operation cannot be done on a value. -/
def UnaryOp.StumblesOn (op : UnaryOp) (v : Value) : Prop :=
  match op with
  | not => False
  | minus => v.HoldsLongItem ∨ ∃ d, v = .number (.decimal d) ∧ d.LacksOpposite
  | plus => v.HoldsLongItem

theorem escapes_applyUnary_iff (op : UnaryOp) (v : Value) :
    Escapes (Expr.applyUnary op v) ↔ op.StumblesOn v := by
  cases op with
  | not => exact iff_of_false (not_escapes_ok _) id
  | plus =>
    rw [Expr.applyUnary, escapes_bind_pure_iff, escapes_mapError_operand_iff,
      exists_toNumber_eq_fault_iff]
    rfl
  | minus =>
    rw [Expr.applyUnary, escapes_bind_iff, escapes_mapError_operand_iff,
      exists_toNumber_eq_fault_iff]
    simp only [escapes_bind_pure_iff, escapes_mapError_number_iff, mapError_eq_ok_iff,
      Number.exists_neg_eq_error_iff]
    refine or_congr_right ?_
    constructor
    · rintro ⟨_, h, d, rfl, hLacks⟩
      rcases toNumber_eq_ok h with rfl | ⟨hOther, -⟩
      · exact ⟨d, rfl, hLacks⟩
      · cases hOther
    · rintro ⟨d, rfl, hLacks⟩
      exact ⟨_, rfl, d, rfl, hLacks⟩

/-- Whether a binary operation cannot be done on two values. Arithmetic only fails. -/
def BinaryOp.StumblesOn (op : BinaryOp) (left right : Value) : Prop :=
  match op with
  | eq | ne | differs => EqualityStumbles left right
  | lt | le | gt | ge => isBool left = false ∧ isBool right = false ∧ OrderStumbles left right
  | _ => False

/-- Arithmetic does not tell values from others that count as the same numbers. -/
theorem arithmetic_congr (op : BinaryOp) {left right left' right' : Value}
    (hLeft : toNumber left = toNumber left') (hRight : toNumber right = toNumber right') :
    arithmetic op left right = arithmetic op left' right' := by
  rw [arithmetic, arithmetic, hLeft, hRight]

/-- Arithmetic gives its own error in place of any fault. -/
theorem not_escapes_arithmetic (op : BinaryOp) (left right : Value) :
    ¬Escapes (arithmetic op left right) := by
  rw [arithmetic]
  split
  · exact not_escapes_ok _
  · rintro ⟨_, h⟩
    cases h

theorem escapes_applyBinary_iff (op : BinaryOp) (left right : Value) :
    Escapes (Expr.applyBinary op left right) ↔ op.StumblesOn left right := by
  cases op with
  | eq | ne | differs =>
    rw [Expr.applyBinary, escapes_bind_pure_iff, escapes_mapError_number_iff,
      exists_looseEquals_eq_error_iff]
    rfl
  | lt | le | gt | ge =>
    rw [Expr.applyBinary, escapes_bind_pure_iff, escapes_compareValues_iff]
    rfl
  | or | and | add | sub | mul | div | mod =>
    exact iff_of_false (not_escapes_arithmetic _ left right) id

end Condition

end SqlTemplate
