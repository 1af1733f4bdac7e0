import SqlTemplate.Condition.Compiled
import SqlTemplate.Proofs.Condition.Comparison
import SqlTemplate.Proofs.Condition.Room
import SqlTemplate.Proofs.Number.Lenient

/-!
# Division and remainder

Nothing, a truth value, an integer and a text of digits count as an integer (`Value.CountsAs`).
Arithmetic does not tell them from that integer (`arithmetic_of_countsAs`), which equals each of
them (`looseEquals_int`), and it stays with the integers, however large they are, as long as
quotients are exact. So **division and remainder fit together**: the quotient that is left when the
remainder is taken off, times the divisor, plus the remainder is the dividend again, and the
remainder is smaller than the divisor and has the sign of the dividend (`division_with_remainder`).
-/

namespace SqlTemplate

/-- The integer that a value counts as. -/
inductive Value.CountsAs : Value → Int → Prop where
  /-- Nothing is 0. -/
  | null : CountsAs .null 0
  /-- A truth value is 0 or 1. -/
  | bool (b : Bool) : CountsAs (.bool b) (if b then 1 else 0)
  /-- An integer is itself. -/
  | int (n : Int) : CountsAs (.int n) n
  /-- A text is the integer that is left of it without the blanks around it. -/
  | text {v : Value} {s : Text} {n : Int} : v.text? = some s →
      Numeral.SpellsInteger s.strip n → CountsAs v n

namespace Condition

open Value (CountsAs)

variable {a b : Value} {m n : Int}

/-! ### Integer operands -/

theorem toNumber_of_countsAs (h : CountsAs a n) : toNumber a = .ok (.int n) := by
  cases h with
  | null | bool | int => rfl
  | text hText hSpells => rw [toNumber_of_text? hText, Number.ofText?_eq_int_iff.mpr hSpells]

/-- Arithmetic does not tell values from the integers that they count as. -/
theorem arithmetic_of_countsAs (op : BinaryOp) (ha : CountsAs a m) (hb : CountsAs b n) :
    arithmetic op a b = arithmetic op (.int m) (.int n) :=
  arithmetic_congr op (toNumber_of_countsAs ha) (toNumber_of_countsAs hb)

theorem arithmetic_add_int (m n : Int) : arithmetic .add (.int m) (.int n) = .ok (.int (m + n)) :=
  rfl

theorem arithmetic_sub_int (m n : Int) : arithmetic .sub (.int m) (.int n) = .ok (.int (m - n)) :=
  rfl

theorem arithmetic_mul_int (m n : Int) : arithmetic .mul (.int m) (.int n) = .ok (.int (m * n)) :=
  rfl

/-- The quotient of a multiple is exact. -/
theorem arithmetic_div_mul (q : Int) (hn : n ≠ 0) :
    arithmetic .div (.int (q * n)) (.int n) = .ok (.int q) := by
  have hExact : Number.Operation.div.onInts (q * n) n = .ok (.int q) := by
    refine (if_pos (Int.mul_emod_left q n)).trans ?_
    rw [Int.mul_ediv_cancel q hn]
  have hQuotient : quotient (.int (q * n)) (.int n) = .ok (.int q) := by
    rw [quotient, Number.equals_int, decide_eq_false hn, Number.Operation.apply, hExact]
    rfl
  simp [arithmetic, toNumber, Value.int, onNumbers, hQuotient, bind, Except.bind]

theorem arithmetic_div_zero (m : Int) :
    arithmetic .div (.int m) (.int 0) = .error (.invalidOperands .div .divisionByZero) := by
  have hQuotient : quotient (.int m) (.int 0) = .error .divisionByZero := by
    rw [quotient, Number.equals_int, decide_eq_true rfl]
    rfl
  simp [arithmetic, toNumber, Value.int, onNumbers, hQuotient, bind, Except.bind]

/-- The remainder has the sign of the dividend. -/
theorem arithmetic_mod_int (m : Int) (hn : n ≠ 0) :
    arithmetic .mod (.int m) (.int n) = .ok (.int (m.tmod n)) := by
  have hRemainder : remainder (.int m) (.int n) = .ok (.int (m.tmod n)) := if_neg hn
  simp [arithmetic, toNumber, Value.int, onNumbers, hRemainder, bind, Except.bind]

theorem arithmetic_mod_zero (m : Int) :
    arithmetic .mod (.int m) (.int 0) = .error (.invalidOperands .mod .moduloByZero) :=
  rfl

/-- The integer that a value counts as equals the value. -/
theorem looseEquals_int (h : CountsAs a n) : looseEquals (.int n) a = .ok true := by
  have hSelf : (Number.int n).equals (.int n) = .ok true := by
    rw [Number.equals_int, decide_eq_true rfl]
  cases h with
  | null => rfl
  | bool b => cases b <;> rfl
  | int =>
    rw [Value.int, looseEquals_numbers, hSelf]
    rfl
  | text hText hSpells =>
    rw [Value.int, looseEquals_numberText _ hText, numberEqualsText,
      Number.ofText?_eq_int_iff.mpr hSpells]
    dsimp only
    rw [hSelf]
    rfl

/-! ### Expressions -/

/-- Whether evaluating an expression has a result wherever `depth` calls may be nested. -/
def HasResult (env : Environment) (depth : Nat) (e : Expr) (result : Except EvalError Value) :
    Prop :=
  ∀ k, depth ≤ k → e.evaluate env k = result

variable {env : Environment} {depth : Nat} {l r : Expr} {result : Except EvalError Value}

theorem HasResult.mono (h : HasResult env depth l result) {deeper : Nat} (hDepth : depth ≤ deeper) :
    HasResult env deeper l result :=
  fun k hk => h k (hDepth.trans hk)

theorem hasResult_variable (env : Environment) (name : Text) :
    HasResult env 1 (.variable name) (.ok ((env.lookup name).getD .null)) := by
  intro k hk
  cases k with
  | zero => exact absurd hk (by decide)
  | succ k => rfl

theorem HasResult.binary {op : BinaryOp} (hAnd : op ≠ .and) (hOr : op ≠ .or)
    (hl : HasResult env depth l (.ok a)) (hr : HasResult env depth r (.ok b)) :
    HasResult env (depth + 1) (.binary op l r) (Expr.applyBinary op a b) := by
  intro k hk
  cases k with
  | zero => exact absurd hk (Nat.not_succ_le_zero depth)
  | succ k =>
    have hDepth := Nat.le_of_succ_le_succ hk
    exact evaluate_binary op hAnd hOr (hl k hDepth) (hr k hDepth)

/-- The operations of arithmetic. -/
def arithmeticOps : List BinaryOp := [.add, .sub, .mul, .div, .mod]

/-- Arithmetic on operands that count as integers. -/
theorem HasResult.arithmetic {op : BinaryOp} (hOp : op ∈ arithmeticOps)
    (hl : HasResult env depth l (.ok a)) (hr : HasResult env depth r (.ok b)) (ha : CountsAs a m)
    (hb : CountsAs b n) (h : arithmetic op (.int m) (.int n) = result) :
    HasResult env (depth + 1) (.binary op l r) result := by
  have hApply : op ≠ .and ∧ op ≠ .or ∧ Expr.applyBinary op a b = Condition.arithmetic op a b := by
    simp only [arithmeticOps, List.mem_cons, List.not_mem_nil, or_false] at hOp
    rcases hOp with rfl | rfl | rfl | rfl | rfl <;> exact ⟨nofun, nofun, rfl⟩
  rw [← h, ← arithmetic_of_countsAs op ha hb, ← hApply.2.2]
  exact hl.binary hApply.1 hApply.2.1 hr

/-- What is left of a dividend without its remainder, divided. -/
def wholeQuotient (l r : Expr) : Expr := .binary .div (.binary .sub l (.binary .mod l r)) r

/-- Whether quotient and remainder make up the dividend. -/
def recomposes (l r : Expr) : Expr :=
  .binary .eq (.binary .add (.binary .mul (wholeQuotient l r) r) (.binary .mod l r)) l

section

variable (hl : HasResult env depth l (.ok a)) (hr : HasResult env depth r (.ok b))
  (ha : CountsAs a m) (hb : CountsAs b n) (hn : n ≠ 0)
include hl hr ha hb hn

theorem hasResult_mod : HasResult env (depth + 1) (.binary .mod l r) (.ok (.int (m.tmod n))) :=
  hl.arithmetic (by decide) hr ha hb (arithmetic_mod_int m hn)

/-- Without the remainder the quotient is exact. -/
theorem hasResult_wholeQuotient :
    HasResult env (depth + 3) (wholeQuotient l r) (.ok (.int (m.tdiv n))) := by
  have hRest : m - m.tmod n = m.tdiv n * n := by
    rw [Int.tmod_def, Int.sub_sub_self, Int.mul_comm]
  have hSub : HasResult env (depth + 2) (.binary .sub l (.binary .mod l r))
      (.ok (.int (m.tdiv n * n))) := by
    rw [← hRest]
    exact (hl.mono (Nat.le_succ _)).arithmetic (by decide) (hasResult_mod hl hr ha hb hn) ha
      (.int _) (arithmetic_sub_int _ _)
  exact hSub.arithmetic (by decide) (hr.mono (Nat.le_add_right _ _)) (.int _) hb
    (arithmetic_div_mul _ hn)

/-- **Quotient and remainder make up the dividend.** -/
theorem hasResult_recomposes : HasResult env (depth + 6) (recomposes l r) (.ok (.bool true)) := by
  have hProduct : HasResult env (depth + 4) (.binary .mul (wholeQuotient l r) r)
      (.ok (.int (m.tdiv n * n))) :=
    (hasResult_wholeQuotient hl hr ha hb hn).arithmetic (by decide)
      (hr.mono (Nat.le_add_right _ _)) (.int _) hb (arithmetic_mul_int _ _)
  have hRemainder := (hasResult_mod hl hr ha hb hn).mono (Nat.le_add_right (depth + 1) 3)
  have hSum : HasResult env (depth + 5)
      (.binary .add (.binary .mul (wholeQuotient l r) r) (.binary .mod l r)) (.ok (.int m)) := by
    refine hProduct.arithmetic (by decide) hRemainder (.int _) (.int _) ?_
    rw [arithmetic_add_int, Int.tdiv_mul_add_tmod]
  have hEqual : Expr.applyBinary .eq (.int m) a = .ok (.bool true) := by
    rw [Expr.applyBinary, looseEquals_int ha]
    rfl
  rw [← hEqual]
  exact hSum.binary (by decide) (by decide) (hl.mono (Nat.le_add_right _ _))

end

/-! ### Conditions -/

/-- Whether a condition can be read and what it then comes to, where there is some room. -/
def ComesTo (env : Environment) (room : Nat) (source : String) (result : Except EvalError Value) :
    Prop :=
  ∃ c, compile source.toList room = .ok c ∧ c.evaluate env room = result

variable {room : Nat}

/-- What can be read where there is little room can be read where there is more. -/
theorem HasResult.comesTo {source : String} {root : Expr} (h : HasResult env depth root result)
    {least : Nat} (hDepth : depth < least)
    (hRoot : (compile source.toList least).toOption.map (·.root) = some root)
    (hRoom : least ≤ room) : ComesTo env room source result := by
  obtain ⟨c, hCompile, rfl⟩ := Option.map_eq_some_iff.mp hRoot
  rw [toOption_eq_some_iff] at hCompile
  exact ⟨c, compile_eq_ok_of_le hRoom hCompile, h (room - 1) (by omega)⟩

/-- **Division and remainder fit together.** For operands that count as integers the remainder is
smaller than the divisor and has the sign of the dividend, the rest of the dividend is divided
without another remainder, and the two make up the dividend, whatever kind of value that is. By zero
there is neither a quotient nor a remainder. All of this takes room for no more than a few calls. -/
theorem division_with_remainder (ha : CountsAs ((env.lookup ['a']).getD .null) m)
    (hb : CountsAs ((env.lookup ['b']).getD .null) n) (hRoom : 23 ≤ room) :
    (n ≠ 0 →
      ComesTo env room "(a - a % b) / b * b + a % b == a" (.ok (.bool true)) ∧
      ∃ q r : Int, ComesTo env room "(a - a % b) / b" (.ok (.int q)) ∧
        ComesTo env room "a % b" (.ok (.int r)) ∧ q * n + r = m ∧ r.natAbs < n.natAbs ∧
        (r = 0 ∨ r.sign = m.sign)) ∧
    (n = 0 →
      ComesTo env room "a / b" (.error (.invalidOperands .div .divisionByZero)) ∧
      ComesTo env room "a % b" (.error (.invalidOperands .mod .moduloByZero))) := by
  have hl := hasResult_variable env ['a']
  have hr := hasResult_variable env ['b']
  constructor
  · intro hn
    have hSmaller : (m.tmod n).natAbs < n.natAbs := by
      rw [Int.natAbs_tmod]
      exact Nat.mod_lt _ (Int.natAbs_pos.mpr hn)
    have hSign : m.tmod n = 0 ∨ (m.tmod n).sign = m.sign := by
      rw [Int.sign_tmod]
      by_cases hDvd : n ∣ m
      · exact .inl (Int.tmod_eq_zero_of_dvd hDvd)
      · exact .inr (if_neg hDvd)
    refine ⟨(hasResult_recomposes hl hr ha hb hn).comesTo (by decide) (by decide +kernel) hRoom,
      m.tdiv n, m.tmod n, ?_, ?_, Int.tdiv_mul_add_tmod m n, hSmaller, hSign⟩
    · exact (hasResult_wholeQuotient hl hr ha hb hn).comesTo (by decide) (by decide +kernel) hRoom
    · exact (hasResult_mod hl hr ha hb hn).comesTo (by decide) (by decide +kernel) hRoom
  · rintro rfl
    have hQuotient := hl.arithmetic (by decide) hr ha hb (arithmetic_div_zero m)
    have hRemainder := hl.arithmetic (by decide) hr ha hb (arithmetic_mod_zero m)
    exact ⟨hQuotient.comesTo (by decide) (by decide +kernel) hRoom,
      hRemainder.comesTo (by decide) (by decide +kernel) hRoom⟩

/-- A dividend that is a text among blanks, beside a divisor. -/
def textOperands (divisor : Value) : Environment :=
  ⟨[(['a'], .text "\t-007 ".toList), (['b'], divisor)]⟩

/-- The divisor is a text in digits of another script, then false. -/
theorem division_with_remainder_textOperands :
    CountsAs (.text "\t-007 ".toList) (-7) ∧ CountsAs (.sql "+٣".toList) 3 ∧
    CountsAs (.bool false) 0 ∧ 23 ≤ usualRoom ∧
    ComesTo (textOperands (.sql "+٣".toList)) usualRoom "(a - a % b) / b * b + a % b == a"
      (.ok (.bool true)) ∧
    (∃ q r : Int,
      ComesTo (textOperands (.sql "+٣".toList)) usualRoom "(a - a % b) / b" (.ok (.int q)) ∧
      ComesTo (textOperands (.sql "+٣".toList)) usualRoom "a % b" (.ok (.int r)) ∧ q * 3 + r = -7 ∧
      r.natAbs < 3 ∧ (r = 0 ∨ r.sign = -1)) ∧
    ComesTo (textOperands (.bool false)) usualRoom "a / b"
      (.error (.invalidOperands .div .divisionByZero)) ∧
    ComesTo (textOperands (.bool false)) usualRoom "a % b"
      (.error (.invalidOperands .mod .moduloByZero)) := by
  have ha : CountsAs (.text "\t-007 ".toList) (-7) :=
    .text rfl (Number.ofText?_eq_int_iff.mp (by decide +kernel))
  have hb : CountsAs (.sql "+٣".toList) 3 :=
    .text rfl (Number.ofText?_eq_int_iff.mp (by decide +kernel))
  have hRoom : 23 ≤ usualRoom := by decide
  obtain ⟨hHolds, hParts⟩ :=
    (@division_with_remainder _ _ (textOperands (.sql "+٣".toList)) _ ha hb hRoom).1 (by decide)
  exact ⟨ha, hb, .bool false, hRoom, hHolds, hParts,
    (@division_with_remainder _ _ (textOperands (.bool false)) _ ha (.bool false) hRoom).2 rfl⟩

end Condition

end SqlTemplate
