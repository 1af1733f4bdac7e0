import SqlTemplate.Proofs.Condition.Comparison
import SqlTemplate.Proofs.Number.Lenient

/-!
# Numerals beside numbers

Arithmetic, equality and order turn their operands into numbers in three places. A value denotes a
number if it is one or a text that is read as one (`Value.Denotes`), and unless both operands are
texts, **an operation comes to the same on two values as on the numbers that they denote**
(`sameOutcome_applyBinary`): the result is the same, or both end in an error of the same kind. Only
the message may differ, which shows the operands of an order as they are. So beside a number, on
either side of it, a text of digits may stand for the integer that it spells
(`sameOutcome_of_spellsInteger`).
-/

namespace SqlTemplate

/-- Whether a value is a number or a text that is read as one. -/
inductive Value.Denotes : Value → Number → Prop where
  /-- A number denotes itself. -/
  | number (n : Number) : Denotes (.number n) n
  /-- A text denotes the number that it is read as. -/
  | numeral {v : Value} {s : Text} {n : Number} :
      v.text? = some s → Number.ofText? s = some n → Denotes v n

namespace Condition

open Value (Denotes)

/-! ### Errors without their wording -/

/-- The kinds of errors. Each fault that escapes is a kind of its own. -/
inductive ErrorKind where
  /-- The condition fails. -/
  | failed
  /-- The condition is nested too deeply. -/
  | tooDeep
  /-- A fault escapes from the condition. -/
  | escaped (fault : Fault)

/-- The kind of an error, whatever its wording. -/
def EvalError.kind : EvalError → ErrorKind
  | operand (.number fault) => .escaped fault
  | tooDeep => .tooDeep
  | _ => .failed

/-- Whether two evaluations come to the same result or to errors of the same kind. -/
inductive SameOutcome {α : Type} : Except EvalError α → Except EvalError α → Prop where
  /-- The same result. -/
  | ok (a : α) : SameOutcome (.ok a) (.ok a)
  /-- Errors of the same kind. -/
  | error {e f : EvalError} : e.kind = f.kind → SameOutcome (.error e) (.error f)

namespace SameOutcome

variable {α β : Type} {x y : Except EvalError α}

theorem of_eq (h : x = y) : SameOutcome x y := by
  subst h
  cases x with
  | ok a => exact .ok a
  | error e => exact .error rfl

/-- What goes on in the same way still comes to the same. -/
theorem bind (h : SameOutcome x y) (next : α → Except EvalError β) :
    SameOutcome (x >>= next) (y >>= next) := by
  cases h with
  | ok a => exact .of_eq rfl
  | error hKind => exact .error hKind

end SameOutcome

variable {a b : Value} {m n : Number}

/-! ### Values that denote numbers -/

theorem toNumber_of_denotes (h : a.Denotes m) : toNumber a = .ok m := by
  cases h with
  | number => rfl
  | numeral hText hNumeral => rw [toNumber_of_text? hText, hNumeral]

theorem ne_null_of_denotes (h : a.Denotes m) : a ≠ .null := by
  rintro rfl
  cases h with
  | numeral hText => cases hText

theorem isBool_of_denotes (h : a.Denotes m) : isBool a = false := by
  cases a with
  | bool =>
    cases h with
    | numeral hText => cases hText
  | _ => rfl

/-- What is read from a text does not have too many digits to be written. -/
theorem not_holdsLongInteger_of_ofText? {s : Text} (h : Number.ofText? s = some n) :
    ¬(Value.number n).HoldsLongInteger := by
  intro hLong
  cases hLong with
  | int hLong => exact Nat.not_le.mpr (Number.ofText?_eq_int_iff.mp h).natAbs_lt hLong

/-- A numeral can be shown, and so can the number that it denotes. -/
theorem exists_shown_of_denotes (h : a.Denotes m) :
    a = .number m ∨ (∃ s, a.shown = .ok s) ∧ ∃ t, (Value.number m).shown = .ok t := by
  cases h with
  | number => exact .inl rfl
  | numeral hText hNumeral =>
    exact .inr ⟨a.exists_shown_iff.mpr (Value.not_holdsLongInteger_of_text? hText),
      (Value.exists_shown_iff _).mpr (not_holdsLongInteger_of_ofText? hNumeral)⟩

/-! ### Operations -/

theorem looseEquals_of_denotes (ha : a.Denotes m) (hb : b.Denotes n)
    (hTexts : a.text? = none ∨ b.text? = none) :
    looseEquals a b = looseEquals (.number m) (.number n) := by
  rw [looseEquals_numbers]
  cases ha with
  | number =>
    cases hb with
    | number => exact looseEquals_numbers m n
    | numeral hText hNumeral =>
      rw [looseEquals_numberText m hText, numberEqualsText, hNumeral, Number.equals_comm]
  | numeral hText hNumeral =>
    cases hb with
    | number => rw [looseEquals_textNumber hText n, numberEqualsText, hNumeral]
    | numeral hOther =>
      rcases hTexts with h | h
      · cases hText.symm.trans h
      · cases hOther.symm.trans h

theorem kind_unordered (op : BinaryOp) (ha : a.Denotes m) (hb : b.Denotes n) :
    (unordered op a b).kind = (unordered op (.number m) (.number n)).kind := by
  rw [unordered, unordered]
  rcases exists_shown_of_denotes ha with rfl | ⟨⟨s, hs⟩, s', hs'⟩
  · rcases exists_shown_of_denotes hb with rfl | ⟨⟨t, ht⟩, t', ht'⟩
    · rfl
    · rw [ht, ht']
      cases (Value.number m).shown <;> rfl
  · rw [hs, hs']
    rcases exists_shown_of_denotes hb with rfl | ⟨⟨t, ht⟩, t', ht'⟩
    · cases (Value.number n).shown <;> rfl
    · rw [ht, ht']
      rfl

/-- The order of two values is that of the numbers that they denote. -/
theorem orderOf_of_denotes (op : BinaryOp) (ha : a.Denotes m) (hb : b.Denotes n)
    (hTexts : a.text? = none ∨ b.text? = none) :
    orderOf op a b = (m.order n).mapError fun _ => unordered op a b := by
  have hNotTexts : textBeside? b a = none ∨ textBeside? a b = none := by
    rwa [textBeside?_of_ne (ne_null_of_denotes ha), textBeside?_of_ne (ne_null_of_denotes hb)]
  rw [orderOf_of_not_texts op hNotTexts, toNumber_of_denotes ha, toNumber_of_denotes hb]
  rfl

theorem sameOutcome_compareValues (op : BinaryOp) (ha : a.Denotes m) (hb : b.Denotes n)
    (hTexts : a.text? = none ∨ b.text? = none) :
    SameOutcome (compareValues op a b) (compareValues op (.number m) (.number n)) := by
  have hOrder : SameOutcome (orderOf op a b) (orderOf op (.number m) (.number n)) := by
    rw [orderOf_of_denotes op ha hb hTexts,
      orderOf_of_denotes op (.number m) (.number n) (.inl rfl)]
    cases m.order n with
    | ok o => exact .ok o
    | error signal => exact .error (kind_unordered op ha hb)
  rw [compareValues, compareValues, isBool_of_denotes ha, isBool_of_denotes hb]
  exact hOrder.bind _

/-- **An operation comes to the same on values as on the numbers that they denote**, if the values
are not both texts, which are compared as such. -/
theorem sameOutcome_applyBinary (op : BinaryOp) (ha : a.Denotes m) (hb : b.Denotes n)
    (hTexts : a.text? = none ∨ b.text? = none) :
    SameOutcome (Expr.applyBinary op a b) (Expr.applyBinary op (.number m) (.number n)) := by
  cases op with
  | eq | ne | differs =>
    rw [Expr.applyBinary, Expr.applyBinary, looseEquals_of_denotes ha hb hTexts]
    exact .of_eq rfl
  | lt | le | gt | ge => exact (sameOutcome_compareValues _ ha hb hTexts).bind _
  | or | and | add | sub | mul | div | mod =>
    exact .of_eq (arithmetic_congr _ (toNumber_of_denotes ha) (toNumber_of_denotes hb))

/-! ### Conditions -/

/-- **Beside a number, a text of digits may stand for the integer that it spells.** Whatever
expressions the text, the integer and the number are the values of, each operation of arithmetic,
order and equality has the same result with the text as with the integer, or an error of the same
kind, on either side of the number. -/
theorem sameOutcome_of_spellsInteger {env env' : Environment} {depth depth' : Nat}
    {l r l' r' : Expr} {v : Value} {s : Text} {i : Int} {m : Number} (op : BinaryOp)
    (hAnd : op ≠ .and) (hOr : op ≠ .or) (hText : v.text? = some s)
    (hSpells : Numeral.SpellsInteger s.strip i)
    (hl : l.evaluate env depth = .ok v) (hr : r.evaluate env depth = .ok (.number m))
    (hl' : l'.evaluate env' depth' = .ok (.int i))
    (hr' : r'.evaluate env' depth' = .ok (.number m)) :
    SameOutcome ((Expr.binary op l r).evaluate env (depth + 1))
        ((Expr.binary op l' r').evaluate env' (depth' + 1)) ∧
      SameOutcome ((Expr.binary op r l).evaluate env (depth + 1))
        ((Expr.binary op r' l').evaluate env' (depth' + 1)) := by
  have hNumeral : v.Denotes (.int i) := .numeral hText (Number.ofText?_eq_int_iff.mpr hSpells)
  constructor
  · rw [evaluate_binary op hAnd hOr hl hr, evaluate_binary op hAnd hOr hl' hr']
    exact sameOutcome_applyBinary op hNumeral (.number m) (.inr rfl)
  · rw [evaluate_binary op hAnd hOr hr hl, evaluate_binary op hAnd hOr hr' hl']
    exact sameOutcome_applyBinary op (.number m) hNumeral (.inl rfl)

/-- A text of digits among blanks, the integer that it spells, and a NaN. -/
def numeralOperands : Environment :=
  ⟨[(['s'], .text "\t-٠٠٧ ".toList), (['i'], .int (-7)),
    (['m'], .number (.decimal (.nan false false 0 1)))]⟩

/-- Neither the text nor the integer can be compared with the NaN, and the messages differ. -/
theorem sameOutcome_numeralOperands :
    Numeral.SpellsInteger (Text.strip "\t-٠٠٧ ".toList) (-7) ∧
      SameOutcome ((Expr.binary .lt (.variable ['s']) (.variable ['m'])).evaluate numeralOperands 2)
        ((Expr.binary .lt (.variable ['i']) (.variable ['m'])).evaluate numeralOperands 2) ∧
      SameOutcome ((Expr.binary .lt (.variable ['m']) (.variable ['s'])).evaluate numeralOperands 2)
        ((Expr.binary .lt (.variable ['m']) (.variable ['i'])).evaluate numeralOperands 2) ∧
      (Expr.binary .lt (.variable ['s']) (.variable ['m'])).evaluate numeralOperands 2 =
        .error (.cannotCompare "'\\t-٠٠٧ '".toList .lt "Decimal('NaN')".toList) ∧
      (Expr.binary .lt (.variable ['i']) (.variable ['m'])).evaluate numeralOperands 2 =
        .error (.cannotCompare "-7".toList .lt "Decimal('NaN')".toList) := by
  have hSpells : Numeral.SpellsInteger (Text.strip "\t-٠٠٧ ".toList) (-7) :=
    Number.ofText?_eq_int_iff.mp (by decide +kernel)
  have hText : (Expr.variable ['s']).evaluate numeralOperands 1 =
      .ok (.text "\t-٠٠٧ ".toList) := rfl
  have hInt : (Expr.variable ['i']).evaluate numeralOperands 1 = .ok (.int (-7)) := rfl
  have hNaN : (Expr.variable ['m']).evaluate numeralOperands 1 =
      .ok (.number (.decimal (.nan false false 0 1))) := rfl
  obtain ⟨hLeft, hRight⟩ :=
    sameOutcome_of_spellsInteger .lt nofun nofun (by rfl) hSpells hText hNaN hInt hNaN
  have hTextError : compareValues .lt (.text "\t-٠٠٧ ".toList)
      (.number (.decimal (.nan false false 0 1))) =
        .error (.cannotCompare "'\\t-٠٠٧ '".toList .lt "Decimal('NaN')".toList) := by
    decide +kernel
  have hIntError : compareValues .lt (.int (-7)) (.number (.decimal (.nan false false 0 1))) =
      .error (.cannotCompare "-7".toList .lt "Decimal('NaN')".toList) := by
    decide +kernel
  refine ⟨hSpells, hLeft, hRight, ?_, ?_⟩
  · rw [evaluate_order (by decide) hText hNaN, hTextError]
    rfl
  · rw [evaluate_order (by decide) hInt hNaN, hIntError]
    rfl

end Condition

end SqlTemplate
