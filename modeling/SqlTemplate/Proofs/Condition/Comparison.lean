import SqlTemplate.Condition.Compiled
import SqlTemplate.Proofs.Condition.Operands
import SqlTemplate.Proofs.Number.Order

/-!
# Order and equality of values

Order and equality read the same operands in two ways that are written down apart from each other.
Whether two values can be ordered, and how, does not depend on the operation that asks for it
(`Ordered`, `compareValues_eq_ok_iff`). Exchanging the values turns their order around
(`Ordered.swap`), and **values that are ordered are equal just if none comes before the other**
(`Ordered.looseEquals_eq`). So of two values that can be compared, neither being a NaN, the first
is below the second, equal to it or above it, and all conditions that compare them agree on which of
these it is (`exists_comparison`).
-/

namespace SqlTemplate

namespace Condition

variable {left right v other : Value} {o : Ordering}

/-! ### Reading operands -/

theorem textBeside?_of_isBool (hBool : isBool v) : textBeside? other v = none := by
  cases v with
  | bool => rfl
  | _ => cases hBool

/-- Nothing and truth values apart, what counts as a number is one or a numeral. -/
theorem number_or_numeral {n : Number} (hNull : v ≠ .null) (hBool : ¬isBool v)
    (h : toNumber v = .ok n) :
    v = .number n ∨ ∃ s, v.text? = some s ∧ Number.ofText? s = some n := by
  rcases cases_of_toNumber h with ⟨rfl, -⟩ | ⟨b, rfl⟩ | hNumber
  · exact absurd rfl hNull
  · exact absurd rfl hBool
  · exact hNumber

/-- Only a NaN counts as one. -/
theorem eq_nan_of_toNumber {label : Nat} (h : toNumber v = .ok (.float (.nan label))) :
    v = .number (.float (.nan label)) := by
  rcases cases_of_toNumber h with ⟨-, hZero⟩ | ⟨b, rfl⟩ | hNumber | ⟨s, -, hNumeral⟩
  · cases hZero
  · cases h
  · exact hNumber
  · exact absurd rfl (Number.ne_nan_of_ofText? hNumeral label)

/-! ### Order -/

/-- The order that two values are found in, whatever the operation is that asks for it; none beside a
NaN. -/
inductive Ordered (left right : Value) : Option Ordering → Prop where
  /-- A truth value makes it the order of their truth. -/
  | truth : isBool left ∨ isBool right →
    Ordered left right (some (compare left.truthy.toNat right.truthy.toNat))
  /-- Two texts. -/
  | texts {s t : Text} : textBeside? right left = some s → textBeside? left right = some t →
    Ordered left right (some (s.order t))
  /-- All else is ordered as numbers, if it counts as such. -/
  | numbers {m n : Number} {o : Option Ordering} : ¬isBool left → ¬isBool right →
    (textBeside? right left = none ∨ textBeside? left right = none) →
    toNumber left = .ok m → toNumber right = .ok n → m.order n = .ok o → Ordered left right o

/-- When two values of which none is a truth value are found in an order. -/
theorem orderOf_eq_ok_iff {o : Option Ordering} (op : BinaryOp) :
    orderOf op left right = .ok o ↔
      (∃ s t, textBeside? right left = some s ∧ textBeside? left right = some t ∧
        o = some (s.order t)) ∨
      ((textBeside? right left = none ∨ textBeside? left right = none) ∧
        ∃ m n, toNumber left = .ok m ∧ toNumber right = .ok n ∧ m.order n = .ok o) := by
  rcases texts_or_not left right with ⟨s, t, hs, ht⟩ | hTexts
  · rw [orderOf_of_texts op hs ht, hs, ht]
    constructor
    · intro h
      cases h
      exact .inl ⟨s, t, rfl, rfl, rfl⟩
    · rintro (⟨_, _, hs, ht, rfl⟩ | ⟨hNone | hNone, -⟩)
      · cases hs
        cases ht
        rfl
      · cases hNone
      · cases hNone
  · rw [orderOf_of_not_texts op hTexts, and_iff_right hTexts]
    simp only [bind_eq_ok_iff, mapError_eq_ok_iff]
    constructor
    · rintro ⟨m, hm, n, hn, hOrder⟩
      exact .inr ⟨m, n, hm, hn, hOrder⟩
    · rintro (⟨s, t, hs, ht, -⟩ | ⟨m, n, hm, hn, hOrder⟩)
      · rcases hTexts with hNone | hNone
        · cases hNone.symm.trans hs
        · cases hNone.symm.trans ht
      · exact ⟨m, hm, n, hn, hOrder⟩

theorem ordered_iff_of_isBool {o : Option Ordering} (h : isBool left ∨ isBool right) :
    Ordered left right o ↔ o = some (compare left.truthy.toNat right.truthy.toNat) := by
  constructor
  · intro hOrdered
    cases hOrdered with
    | truth => rfl
    | texts hs ht =>
      rcases h with h | h
      · cases hs.symm.trans (textBeside?_of_isBool h)
      · cases ht.symm.trans (textBeside?_of_isBool h)
    | numbers hLeft hRight =>
      rcases h with h | h
      · exact absurd h hLeft
      · exact absurd h hRight
  · rintro rfl
    exact .truth h

theorem ordered_iff_orderOf {o : Option Ordering} (op : BinaryOp) (hLeft : ¬isBool left)
    (hRight : ¬isBool right) : Ordered left right o ↔ orderOf op left right = .ok o := by
  rw [orderOf_eq_ok_iff]
  constructor
  · intro hOrdered
    cases hOrdered with
    | truth hBool =>
      rcases hBool with h | h
      · exact absurd h hLeft
      · exact absurd h hRight
    | texts hs ht => exact .inl ⟨_, _, hs, ht, rfl⟩
    | numbers _ _ hNone hm hn hOrder => exact .inr ⟨hNone, _, _, hm, hn, hOrder⟩
  · rintro (⟨s, t, hs, ht, rfl⟩ | ⟨hNone, m, n, hm, hn, hOrder⟩)
    · exact .texts hs ht
    · exact .numbers hLeft hRight hNone hm hn hOrder

/-- **An operation of order says of two values what their order is**, if they have one. -/
theorem compareValues_eq_ok_iff (op : BinaryOp) (b : Bool) :
    compareValues op left right = .ok b ↔
      ∃ o, Ordered left right o ∧ b = (o.map (holdsFor op)).getD false := by
  rw [compareValues]
  split
  next hBool =>
    rw [Bool.or_eq_true] at hBool
    simp only [ordered_iff_of_isBool hBool, exists_eq_left, Option.map_some, Option.getD_some,
      Except.ok.injEq]
    exact eq_comm
  next hBool =>
    rw [Bool.or_eq_true, not_or] at hBool
    simp only [ordered_iff_orderOf op hBool.1 hBool.2]
    cases orderOf op left right with
    | error e =>
      refine iff_of_false (fun h => ?_) ?_
      · cases h
      · rintro ⟨_, h, -⟩
        cases h
    | ok o =>
      simp only [Except.ok.injEq, exists_eq_left']
      cases o with
      | none => exact ⟨fun h => by cases h; rfl, fun h => by cases h; rfl⟩
      | some o => exact ⟨fun h => by cases h; rfl, fun h => by cases h; rfl⟩

/-- Exchanging two values turns their order around. -/
theorem Ordered.swap {o : Option Ordering} (h : Ordered left right o) :
    Ordered right left (o.map Ordering.swap) := by
  cases h with
  | truth hBool =>
    rw [Option.map_some, Nat.compare_swap]
    exact .truth hBool.symm
  | texts hLeft hRight =>
    rw [Option.map_some, Text.swap_order]
    exact .texts hRight hLeft
  | numbers hLeft hRight hTexts hm hn hOrder =>
    refine .numbers hRight hLeft hTexts.symm hn hm ?_
    rw [← Number.swap_order, hOrder]
    rfl

/-- Only beside a NaN there is neither an order nor an error. -/
theorem Ordered.exists_nan (h : Ordered left right none) :
    ∃ label, left = .number (.float (.nan label)) ∨ right = .number (.float (.nan label)) := by
  cases h with
  | numbers _ _ _ hm hn hOrder =>
    obtain ⟨label, rfl | rfl⟩ := Number.exists_nan_of_order hOrder
    · exact ⟨label, .inl (eq_nan_of_toNumber hm)⟩
    · exact ⟨label, .inr (eq_nan_of_toNumber hn)⟩

/-! ### Equality -/

theorem looseEquals_of_comparesTruth (h : comparesTruth left || comparesTruth right) :
    looseEquals left right = .ok (left.truthy == right.truthy) := by
  unfold looseEquals
  rw [if_pos h]

theorem looseEquals_texts {s t : Text} (hs : left.text? = some s) (ht : right.text? = some t) :
    looseEquals left right = .ok (s == t) := by
  cases left with
  | text | sql =>
    cases hs
    cases right with
    | text | sql =>
      cases ht
      simp only [looseEquals, comparesTruth, Value.text?, Value.equals, Value.atomEquals,
        Value.numeric?]
      rfl
    | _ => cases ht
  | _ => cases hs

theorem looseEquals_numbers (m n : Number) :
    looseEquals (.number m) (.number n) = (m.equals n).mapError .signal := by
  simp [looseEquals, comparesTruth, Value.text?, Value.equals, Value.atomEquals, Value.numeric?]

theorem looseEquals_numberText (n : Number) {s : Text} (h : right.text? = some s) :
    looseEquals (.number n) right = numberEqualsText n s := by
  cases right with
  | text | sql =>
    cases h
    rfl
  | _ => cases h

theorem looseEquals_textNumber {s : Text} (h : left.text? = some s) (n : Number) :
    looseEquals left (.number n) = numberEqualsText n s := by
  cases left with
  | text | sql =>
    cases h
    rfl
  | _ => cases h

/-- All other values are compared as they are. -/
theorem looseEquals_values (hTruth : (comparesTruth left || comparesTruth right) = false)
    (hNumberText : ∀ n s, left = .number n → right.text? ≠ some s)
    (hTextNumber : ∀ s n, left.text? = some s → right ≠ .number n) :
    looseEquals left right = (left.equals right).mapError .signal := by
  unfold looseEquals
  rw [if_neg (ne_true_of_eq_false hTruth)]
  split
  next n s hText => exact absurd hText (hNumberText n s rfl)
  next s n hText _ => exact absurd rfl (hTextNumber s n hText)
  next => rfl

/-- A number that is compared with a numeral. -/
theorem numberEqualsText_of_order {m n : Number} {s : Text} (hNumeral : Number.ofText? s = some m)
    (hOrder : m.order n = .ok (some o)) : numberEqualsText n s = .ok (o == .eq) := by
  rw [numberEqualsText, hNumeral]
  dsimp only
  rw [Number.equals_of_order hOrder]
  rfl

/-- What counts as a number beside nothing is true unless it is zero. -/
theorem truthy_of_toNumber {n : Number} (hBool : ¬isBool v) (hText : v.text? = none)
    (h : toNumber v = .ok n) : v.truthy = !n.isZero := by
  rcases cases_of_toNumber h with ⟨rfl, rfl⟩ | ⟨b, rfl⟩ | rfl | ⟨s, hSome, -⟩
  · rfl
  · exact absurd rfl hBool
  · rfl
  · cases hSome.symm.trans hText

/-- Beside nothing, zero and the empty text are those that do not count as true. -/
theorem Ordered.truthy_of_null (h : Ordered .null right (some o)) : right.truthy = !(o == .eq) := by
  cases h with
  | truth =>
    cases right.truthy <;> rfl
  | @texts s t hs ht =>
    cases right with
    | text | sql =>
      cases hs
      cases ht
      cases t <;> rfl
    | _ => cases hs
  | numbers _ hBool hNone hm hn hOrder =>
    have hText : right.text? = none := by
      by_cases hNull : right = .null
      · rw [hNull]
        rfl
      · rw [textBeside?_of_ne hNull, textBeside?] at hNone
        cases hText : right.text? with
        | none => rfl
        | some s => simp [hText] at hNone
    cases hm
    rw [truthy_of_toNumber hBool hText hn, Number.isZero_of_order hOrder]

theorem comparesTruth_of_isBool (h : isBool v) : comparesTruth v := by
  cases v with
  | bool => rfl
  | _ => cases h

/-- **Two values that are ordered are equal just if none comes before the other.** -/
theorem Ordered.looseEquals_eq (h : Ordered left right (some o)) :
    looseEquals left right = .ok (o == .eq) := by
  -- Nothing is ordered as zero or as the empty text, but its equality is one of truth.
  by_cases hLeft : left = .null
  · subst hLeft
    rw [looseEquals_of_comparesTruth rfl, h.truthy_of_null]
    cases o <;> rfl
  by_cases hRight : right = .null
  · subst hRight
    have hTruthy := Ordered.truthy_of_null h.swap
    rw [looseEquals_of_comparesTruth (Bool.or_true _), hTruthy, beq_eq_swap]
    cases o <;> rfl
  cases h with
  | truth hBool =>
    have hTruth : comparesTruth left || comparesTruth right := by
      rw [Bool.or_eq_true]
      exact hBool.imp comparesTruth_of_isBool comparesTruth_of_isBool
    rw [looseEquals_of_comparesTruth hTruth]
    cases left.truthy <;> cases right.truthy <;> rfl
  | texts hs ht =>
    rw [textBeside?_of_ne hLeft] at hs
    rw [textBeside?_of_ne hRight] at ht
    rw [looseEquals_texts hs ht, Except.ok.injEq, Bool.eq_iff_iff, beq_iff_eq, beq_iff_eq,
      Text.order_eq_eq_iff]
  | @numbers m n _ hBoolLeft hBoolRight hNone hm hn hOrder =>
    rw [textBeside?_of_ne hLeft, textBeside?_of_ne hRight] at hNone
    have hSwap : n.order m = .ok (some o.swap) := by
      rw [← Number.swap_order, hOrder]
      rfl
    rcases number_or_numeral hLeft hBoolLeft hm with rfl | ⟨s, hs, hNumeral⟩
    · rcases number_or_numeral hRight hBoolRight hn with rfl | ⟨t, ht, hNumeral⟩
      · rw [looseEquals_numbers, Number.equals_of_order hOrder]
        rfl
      · rw [looseEquals_numberText m ht, numberEqualsText_of_order hNumeral hSwap, beq_eq_swap]
    · rcases number_or_numeral hRight hBoolRight hn with rfl | ⟨t, ht, -⟩
      · rw [looseEquals_textNumber hs n, numberEqualsText_of_order hNumeral hOrder]
      · -- Two numerals are ordered as texts.
        rcases hNone with h | h
        · cases hs.symm.trans h
        · cases ht.symm.trans h

/-! ### Conditions that compare -/

section

variable {env : Environment} {depth : Nat} {l r : Expr} {a b : Value}

/-- An operation that needs both operands is done on their values. -/
theorem evaluate_binary (op : BinaryOp) (hAnd : op ≠ .and) (hOr : op ≠ .or)
    (hl : l.evaluate env depth = .ok a) (hr : r.evaluate env depth = .ok b) :
    (Expr.binary op l r).evaluate env (depth + 1) = Expr.applyBinary op a b := by
  rw [Expr.evaluate, hl, hr]
  · rfl
  · exact hAnd
  · exact hOr

/-- The operations of order. -/
def orderOps : List BinaryOp := [.lt, .le, .gt, .ge]

theorem evaluate_order {op : BinaryOp} (hOp : op ∈ orderOps) (hl : l.evaluate env depth = .ok a)
    (hr : r.evaluate env depth = .ok b) :
    (Expr.binary op l r).evaluate env (depth + 1) = (compareValues op a b).map .bool := by
  simp only [orderOps, List.mem_cons, List.not_mem_nil, or_false] at hOp
  rcases hOp with rfl | rfl | rfl | rfl
  · exact evaluate_binary .lt nofun nofun hl hr
  · exact evaluate_binary .le nofun nofun hl hr
  · exact evaluate_binary .gt nofun nofun hl hr
  · exact evaluate_binary .ge nofun nofun hl hr

/-- What an operation of order says of values that are ordered. -/
theorem Ordered.evaluate_order (h : Ordered a b (some o)) (hl : l.evaluate env depth = .ok a)
    (hr : r.evaluate env depth = .ok b) {op : BinaryOp} (hOp : op ∈ orderOps) :
    (Expr.binary op l r).evaluate env (depth + 1) = .ok (.bool (holdsFor op o)) := by
  rw [Condition.evaluate_order hOp hl hr, (compareValues_eq_ok_iff op _).mpr ⟨_, h, rfl⟩]
  rfl

/-- The operation of order that says the same of exchanged operands. -/
def BinaryOp.mirrored : BinaryOp → BinaryOp
  | lt => gt
  | le => ge
  | gt => lt
  | ge => le
  | op => op

theorem holdsFor_mirrored (op : BinaryOp) (o : Ordering) :
    holdsFor op.mirrored o.swap = holdsFor op o := by
  cases op <;> cases o <;> rfl

/-- So says the mirrored operation of the exchanged values. -/
theorem Ordered.evaluate_mirrored (h : Ordered a b (some o)) (hl : l.evaluate env depth = .ok a)
    (hr : r.evaluate env depth = .ok b) {op : BinaryOp} (hOp : op.mirrored ∈ orderOps) :
    (Expr.binary op.mirrored r l).evaluate env (depth + 1) = .ok (.bool (holdsFor op o)) := by
  rw [← holdsFor_mirrored]
  exact Ordered.evaluate_order h.swap hr hl hOp

theorem Ordered.evaluate_eq (h : Ordered a b (some o)) (hl : l.evaluate env depth = .ok a)
    (hr : r.evaluate env depth = .ok b) :
    (Expr.binary .eq l r).evaluate env (depth + 1) = .ok (.bool (o == .eq)) := by
  rw [evaluate_binary .eq nofun nofun hl hr, Expr.applyBinary, h.looseEquals_eq]
  rfl

/-- Values can be compared if they are ordered. -/
theorem exists_evaluate_order_iff {op : BinaryOp} (hOp : op ∈ orderOps)
    (hl : l.evaluate env depth = .ok a) (hr : r.evaluate env depth = .ok b) :
    (∃ v, (Expr.binary op l r).evaluate env (depth + 1) = .ok v) ↔ ∃ o, Ordered a b o := by
  rw [evaluate_order hOp hl hr]
  constructor
  · rintro ⟨v, h⟩
    cases hCompare : compareValues op a b with
    | ok holds =>
      obtain ⟨o, hOrdered, -⟩ := (compareValues_eq_ok_iff op holds).mp hCompare
      exact ⟨o, hOrdered⟩
    | error e =>
      rw [hCompare] at h
      cases h
  · rintro ⟨o, hOrdered⟩
    rw [(compareValues_eq_ok_iff op _).mpr ⟨o, hOrdered, rfl⟩]
    exact ⟨_, rfl⟩

/-- What the conditions say that compare two expressions, whichever of them is written first: just
one of `below`, `equal` and `above` holds, and all conditions have the values that go with it. -/
structure Comparison (env : Environment) (depth : Nat) (l r : Expr) (below equal above : Bool) :
    Prop where
  lt : (Expr.binary .lt l r).evaluate env depth = .ok (.bool below)
  le : (Expr.binary .le l r).evaluate env depth = .ok (.bool (below || equal))
  gt : (Expr.binary .gt l r).evaluate env depth = .ok (.bool above)
  ge : (Expr.binary .ge l r).evaluate env depth = .ok (.bool (above || equal))
  eq : (Expr.binary .eq l r).evaluate env depth = .ok (.bool equal)
  gt_swapped : (Expr.binary .gt r l).evaluate env depth = .ok (.bool below)
  ge_swapped : (Expr.binary .ge r l).evaluate env depth = .ok (.bool (below || equal))
  lt_swapped : (Expr.binary .lt r l).evaluate env depth = .ok (.bool above)
  le_swapped : (Expr.binary .le r l).evaluate env depth = .ok (.bool (above || equal))
  one : [below, equal, above].count true = 1

/-- The order of two values settles all conditions that compare them. -/
theorem Ordered.comparison (h : Ordered a b (some o)) (hl : l.evaluate env depth = .ok a)
    (hr : r.evaluate env depth = .ok b) :
    Comparison env (depth + 1) l r (o == .lt) (o == .eq) (o == .gt) := by
  have hLe : holdsFor .le o = (o == .lt || o == .eq) := by cases o <;> rfl
  have hGe : holdsFor .ge o = (o == .gt || o == .eq) := by cases o <;> rfl
  have hForth {op : BinaryOp} (hOp : op ∈ orderOps) := h.evaluate_order hl hr hOp
  have hBack (op : BinaryOp) (hOp : op.mirrored ∈ orderOps) := h.evaluate_mirrored hl hr hOp
  exact {
    lt := hForth (by decide)
    le := by rw [← hLe]; exact hForth (by decide)
    gt := hForth (by decide)
    ge := by rw [← hGe]; exact hForth (by decide)
    eq := h.evaluate_eq hl hr
    gt_swapped := hBack .lt (by decide)
    ge_swapped := by rw [← hLe]; exact hBack .le (by decide)
    lt_swapped := hBack .gt (by decide)
    le_swapped := by rw [← hGe]; exact hBack .ge (by decide)
    one := by cases o <;> decide }

/-- **All conditions that compare two values agree.** If it can be told whether one is below the
other, neither being a NaN, then just one of them is below or they are equal, and each condition says
so. If it cannot be told, neither can it the other way round. -/
theorem exists_comparison (hl : l.evaluate env depth = .ok a) (hr : r.evaluate env depth = .ok b) :
    ((∀ label, a ≠ .number (.float (.nan label))) → (∀ label, b ≠ .number (.float (.nan label))) →
      ∀ v, (Expr.binary .lt l r).evaluate env (depth + 1) = .ok v →
        ∃ below equal above, Comparison env (depth + 1) l r below equal above) ∧
    (∀ e, (Expr.binary .lt l r).evaluate env (depth + 1) = .error e →
      ∃ e', (Expr.binary .gt r l).evaluate env (depth + 1) = .error e') := by
  have hLt : .lt ∈ orderOps := by decide
  constructor
  · intro ha hb v hv
    obtain ⟨o, hOrdered⟩ := (exists_evaluate_order_iff hLt hl hr).mp ⟨v, hv⟩
    cases o with
    | some o => exact ⟨_, _, _, hOrdered.comparison hl hr⟩
    | none =>
      obtain ⟨label, rfl | rfl⟩ := hOrdered.exists_nan
      · exact absurd rfl (ha label)
      · exact absurd rfl (hb label)
  · intro e he
    rw [exists_eq_error_iff, exists_evaluate_order_iff (by decide) hr hl]
    rintro ⟨o, hOrdered⟩
    obtain ⟨v, hv⟩ := (exists_evaluate_order_iff hLt hl hr).mpr ⟨_, hOrdered.swap⟩
    cases he.symm.trans hv

/-- A numeral, a decimal of the same value and a list. -/
def mixedOperands : Environment :=
  ⟨[(['a'], .text " 1e1 ".toList), (['b'], .number (.decimal (.finite false 1000 (-2)))),
    (['c'], .list [])]⟩

/-- The numeral and the decimal are equal; a list has no order. -/
theorem exists_comparison_mixedOperands :
    (compile "a < b".toList).toOption.map (·.root) =
      some (.binary .lt (.variable ['a']) (.variable ['b'])) ∧
    (∃ v, (Expr.binary .lt (.variable ['a']) (.variable ['b'])).evaluate mixedOperands 2 = .ok v) ∧
    (∃ below equal above,
      Comparison mixedOperands 2 (.variable ['a']) (.variable ['b']) below equal above) ∧
    (∃ e, (Expr.binary .lt (.variable ['a']) (.variable ['c'])).evaluate mixedOperands 2 =
      .error e) ∧
    (∃ e, (Expr.binary .gt (.variable ['c']) (.variable ['a'])).evaluate mixedOperands 2 =
      .error e) := by
  have hNumeral : (Expr.variable ['a']).evaluate mixedOperands 1 = .ok (.text " 1e1 ".toList) := rfl
  have hDecimal : (Expr.variable ['b']).evaluate mixedOperands 1 =
      .ok (.number (.decimal (.finite false 1000 (-2)))) := rfl
  have hList : (Expr.variable ['c']).evaluate mixedOperands 1 = .ok (.list []) := rfl
  obtain ⟨v, hv⟩ : ∃ v, (Expr.binary .lt (.variable ['a']) (.variable ['b'])).evaluate
      mixedOperands 2 = .ok v := by
    rw [exists_eq_ok_iff_isOk]
    decide +kernel
  obtain ⟨e, he⟩ : ∃ e, (Expr.binary .lt (.variable ['a']) (.variable ['c'])).evaluate
      mixedOperands 2 = .error e := by
    rw [exists_eq_error_iff, exists_eq_ok_iff_isOk]
    decide +kernel
  exact ⟨by decide +kernel, ⟨v, hv⟩,
    (exists_comparison hNumeral hDecimal).1 nofun nofun v hv, ⟨e, he⟩,
    (exists_comparison hNumeral hList).2 e he⟩

end

end Condition

end SqlTemplate
