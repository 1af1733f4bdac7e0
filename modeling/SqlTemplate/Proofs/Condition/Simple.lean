import SqlTemplate.Proofs.Condition.Comparison
import SqlTemplate.Proofs.Condition.Completeness
import SqlTemplate.Proofs.Condition.Lexemes
import SqlTemplate.Proofs.Condition.Printed
import SqlTemplate.Proofs.Condition.Stumbling

/-!
# Conditions on simple values

Nothing, truth values, integers, floats and texts are simple (`Value.IsSimple`), and so are the
literals of a condition. Every operation on simple values ends in a simple value, in an error that
only makes the condition fail, or in the fault of an integer with too many digits (`Ends`), and this
is kept by the steps of an evaluation. The fault has one source: an integer that cannot be written
is compared for equality with a text that is no numeral.

**So an evaluation on simple values ends in one of these ways, and in the fault exactly when it
comes to such a comparison** (`evaluate_ends_simple`).
-/

namespace SqlTemplate

-- Powers are read the same way, whatever else is imported.
attribute [local instance(2000)] instPowNat

/-! ### Simple values -/

/-- Whether a value is nothing, a truth value, an integer, a float or a text. -/
def Value.IsSimple : Value → Prop
  | null | bool _ | text _ | sql _ => True
  | number n => n.isDecimal = false
  | _ => False

/-- Whether all values of an environment are simple. -/
def Environment.IsSimple (env : Environment) : Prop :=
  ∀ name v, env.lookup name = some v → v.IsSimple

namespace Value

variable {v w : Value}

/-- Of the simple values only an integer can have too many digits to be written. -/
theorem IsSimple.not_holdsLongItem (h : v.IsSimple) : ¬v.HoldsLongItem := by
  rintro ⟨hLong, hNumber⟩
  cases hLong with
  | int => exact hNumber _ rfl
  | _ => exact h

theorem IsSimple.not_isSignaling {n : Number} (h : v.IsSimple) (hv : v.numeric? = some n) :
    n.isSignaling = false := by
  cases v with
  | bool b =>
    cases hv
    rfl
  | number m =>
    cases hv
    exact Condition.isSignaling_of_not_isDecimal h
  | _ => cases hv

/-- Simple values are compared to the end. -/
theorem IsSimple.not_meetsSignaling (hv : v.IsSimple) (hw : w.IsSimple) : ¬v.MeetsSignaling w := by
  intro h
  cases h with
  | numbers hm hn hSignaling =>
    rw [hv.not_isSignaling hm, hw.not_isSignaling hn] at hSignaling
    simp at hSignaling
  | _ => exact hv

end Value

namespace Number

/-- The opposite of an integer or a float is one. -/
theorem exists_neg_of_not_isDecimal {n : Number} (h : n.isDecimal = false) :
    ∃ m, n.neg = .ok m ∧ m.isDecimal = false := by
  cases n with
  | int i => exact ⟨_, rfl, rfl⟩
  | float x => exact ⟨_, rfl, rfl⟩
  | decimal d => cases h

/-- An operation on integers and floats gives an integer or a float. -/
theorem Operation.isDecimal_of_apply {op : Operation} {a b n : Number}
    (hInts : ∀ i j m, op.onInts i j = .ok m → m.isDecimal = false)
    (ha : a.isDecimal = false) (hb : b.isDecimal = false) (h : op.apply a b = .ok n) :
    n.isDecimal = false := by
  cases a with
  | decimal d => cases ha
  | int i =>
    cases b with
    | decimal d => cases hb
    | int j => exact hInts i j n h
    | float y =>
      obtain ⟨x, -, hn⟩ := exists_of_bind_eq_ok h
      cases hn
      rfl
  | float x =>
    cases b with
    | decimal d => cases hb
    | int j =>
      obtain ⟨y, -, hn⟩ := exists_of_bind_eq_ok h
      cases hn
      rfl
    | float y =>
      cases h
      rfl

end Number

namespace Condition

/-! ### How an operation on simple values ends -/

/-- Whether an evaluation ends in a result of a kind, in an error that only makes a condition fail,
or in the fault of an integer with too many digits. -/
def Ends {α : Type} (P : α → Prop) : Except EvalError α → Prop
  | .ok a => P a
  | .error e => e.escaping? = none ∨ e = .operand (.number .digitLimit)

section

variable {α β : Type} {P : α → Prop} {Q : β → Prop}

/-- What holds of both steps holds of them together. -/
theorem Ends.bind {x : Except EvalError α} {next : α → Except EvalError β} (h : Ends P x)
    (hNext : ∀ a, P a → Ends Q (next a)) : Ends Q (x >>= next) := by
  cases x with
  | error e => exact h
  | ok a => exact hNext a h

/-- An error that does not escape makes a condition fail. -/
theorem ends_of_not_escapes {x : Except EvalError α} (h : ¬Escapes x)
    (hResult : ∀ a, x = .ok a → P a) : Ends P x := by
  cases x with
  | ok a => exact hResult a rfl
  | error e =>
    left
    cases e with
    | operand fault =>
      cases fault with
      | number fault => exact absurd ⟨fault, rfl⟩ h
      | notANumber | divisionByZero | moduloByZero => rfl
    | invalidOperands | cannotCompare | tooDeep => rfl

theorem Ends.of_eq_ok {x : Except EvalError α} {a : α} (h : Ends P x) (hx : x = .ok a) : P a := by
  rwa [hx] at h

/-- A fault that escapes is that of an integer with too many digits. -/
theorem Ends.escapes_iff {x : Except EvalError α} (h : Ends P x) :
    Escapes x ↔ x = .error (.operand (.number .digitLimit)) := by
  constructor
  · rintro ⟨fault, rfl⟩
    rcases h with h | h
    · cases h
    · rw [h]
  · rintro rfl
    exact ⟨_, rfl⟩

end

variable {v w : Value}

/-- A simple value counts as an integer or a float, or it is no number. -/
theorem ends_toNumber (h : v.IsSimple) :
    Ends (fun n : Number => n.isDecimal = false) ((toNumber v).mapError .operand) := by
  refine ends_of_not_escapes ?_ fun n hn => ?_
  · rw [escapes_mapError_operand_iff, exists_toNumber_eq_fault_iff]
    exact h.not_holdsLongItem
  · rw [mapError_eq_ok_iff] at hn
    rcases toNumber_eq_ok hn with rfl | ⟨hDecimal, -⟩
    · exact h
    · exact hDecimal

theorem ends_applyUnary (op : UnaryOp) (h : v.IsSimple) :
    Ends Value.IsSimple (Expr.applyUnary op v) := by
  cases op with
  | not => exact trivial
  | plus => exact (ends_toNumber h).bind fun n hn => hn
  | minus =>
    refine (ends_toNumber h).bind fun n hn => ?_
    obtain ⟨m, hm, hDecimal⟩ := Number.exists_neg_of_not_isDecimal hn
    rw [hm]
    exact hDecimal

/-- Whether a value is an integer of too many digits to be written and another one is a text that is
no numeral. -/
def LongBesideText (v w : Value) : Prop :=
  ∃ n s, v = .number (.int n) ∧ 10 ^ Fault.maxDigits ≤ n.natAbs ∧ w.text? = some s ∧
    Number.ofText? s = none

/-- A simple number cannot be compared with a text if it would have to be written and cannot. -/
theorem stumblesOver_iff {n : Number} {s : Text} (hn : n.isDecimal = false)
    (hw : w.text? = some s) : n.StumblesOver s ↔ LongBesideText (.number n) w := by
  rw [Number.StumblesOver]
  constructor
  · intro h
    cases hNumeral : Number.ofText? s with
    | some m =>
      rw [hNumeral] at h
      cases (isSignaling_of_not_isDecimal hn).symm.trans h
    | none =>
      rw [hNumeral] at h
      cases h with
      | int hLong => exact ⟨_, s, rfl, hLong, hw, hNumeral⟩
  · rintro ⟨i, t, hi, hLong, ht, hNumeral⟩
    cases hi
    cases hw.symm.trans ht
    rw [hNumeral]
    exact .int hLong

/-- **The equality of simple values cannot be told just of an integer that cannot be written and a
text that is no numeral.** -/
theorem equalityStumbles_iff (hv : v.IsSimple) (hw : w.IsSimple) :
    EqualityStumbles v w ↔ LongBesideText v w ∨ LongBesideText w v := by
  constructor
  · intro h
    cases h with
    | numberText hText h => exact .inl ((stumblesOver_iff hv hText).mp h)
    | textNumber hText h => exact .inr ((stumblesOver_iff hw hText).mp h)
    | values _ _ hMeets => exact absurd hMeets (hv.not_meetsSignaling hw)
  · rintro (h | h)
    · obtain ⟨n, s, rfl, hLong⟩ := h
      exact .numberText hLong.2.1 ((stumblesOver_iff hv hLong.2.1).mpr ⟨n, s, rfl, hLong⟩)
    · obtain ⟨n, s, rfl, hLong⟩ := h
      exact .textNumber hLong.2.1 ((stumblesOver_iff hw hLong.2.1).mpr ⟨n, s, rfl, hLong⟩)

theorem numberEqualsText_of_longBesideText {n : Number} {s : Text}
    (h : LongBesideText (.number n) w) (hw : w.text? = some s) :
    numberEqualsText n s = .error .digitLimit := by
  obtain ⟨i, t, hi, hLong, ht, hNumeral⟩ := h
  cases hi
  cases hw.symm.trans ht
  rw [numberEqualsText, hNumeral]
  simp only [Number.text, Text.writeInt, if_pos hLong]
  rfl

/-- It is the writing of the integer that cannot be done. -/
theorem eq_digitLimit_of_looseEquals {fault : Fault} (hv : v.IsSimple) (hw : w.IsSimple)
    (h : looseEquals v w = .error fault) : fault = .digitLimit := by
  have hStumbles := (exists_looseEquals_eq_error_iff v w).mp ⟨fault, h⟩
  rcases (equalityStumbles_iff hv hw).mp hStumbles with hLong | hLong
  · obtain ⟨n, s, rfl, -, hText, -⟩ := id hLong
    rw [looseEquals_numberText _ hText, numberEqualsText_of_longBesideText hLong hText] at h
    exact (Except.error.inj h).symm
  · obtain ⟨n, s, rfl, -, hText, -⟩ := id hLong
    rw [looseEquals_textNumber hText, numberEqualsText_of_longBesideText hLong hText] at h
    exact (Except.error.inj h).symm

theorem ends_looseEquals (hv : v.IsSimple) (hw : w.IsSimple) :
    Ends (fun _ => True)
      ((looseEquals v w).mapError fun fault => .operand (.number fault)) := by
  cases h : looseEquals v w with
  | ok b => exact trivial
  | error fault =>
    rw [eq_digitLimit_of_looseEquals hv hw h]
    exact .inr rfl

theorem not_orderStumbles (hv : v.IsSimple) (hw : w.IsSimple) : ¬OrderStumbles v w := by
  intro h
  cases h with
  | left h => exact hv.not_holdsLongItem h
  | right _ h => exact hw.not_holdsLongItem h
  | leftLong => cases hw
  | rightLong => cases hv

theorem ends_compareValues (op : BinaryOp) (hv : v.IsSimple) (hw : w.IsSimple) :
    Ends (fun _ => True) (compareValues op v w) := by
  refine ends_of_not_escapes (fun h => ?_) fun _ _ => trivial
  exact not_orderStumbles hv hw ((escapes_compareValues_iff op v w).mp h).2.2

/-- Computing with integers and floats gives an integer or a float. -/
theorem isDecimal_of_onNumbers {op : BinaryOp} {a b n : Number} (ha : a.isDecimal = false)
    (hb : b.isDecimal = false) (h : onNumbers op a b = .ok n) : n.isDecimal = false := by
  have hApply {operation : Number.Operation}
      (hInts : ∀ i j m, operation.onInts i j = .ok m → m.isDecimal = false)
      (h : (operation.apply a b).mapError OperandFault.number = .ok n) : n.isDecimal = false :=
    Number.Operation.isDecimal_of_apply hInts ha hb (mapError_eq_ok_iff.mp h)
  cases op with
  | add | sub | mul =>
    refine hApply (fun i j m hm => ?_) h
    cases hm
    rfl
  | div =>
    obtain ⟨isZero, -, h⟩ := exists_of_bind_eq_ok h
    cases isZero with
    | true => cases h
    | false =>
      refine hApply (fun i j m hm => ?_) h
      simp only [Number.Operation.div] at hm
      split at hm
      · cases hm
        rfl
      · cases hQuotient : Binary64.ofQuotient i j with
        | error fault =>
          rw [hQuotient] at hm
          cases hm
        | ok x =>
          rw [hQuotient] at hm
          cases hm
          rfl
  | or | and | eq | ne | differs | lt | le | gt | ge | mod =>
    obtain ⟨i, -, h⟩ := exists_of_bind_eq_ok h
    obtain ⟨j, -, h⟩ := exists_of_bind_eq_ok h
    by_cases hZero : j = 0
    · simp only [if_pos hZero] at h
      cases h
    · simp only [if_neg hZero] at h
      cases h
      rfl

theorem ends_arithmetic (op : BinaryOp) (hv : v.IsSimple) (hw : w.IsSimple) :
    Ends Value.IsSimple (arithmetic op v w) := by
  have hNumber {v : Value} {n : Number} (hv : v.IsSimple) (hn : toNumber v = .ok n) :
      n.isDecimal = false := (ends_toNumber hv).of_eq_ok (mapError_eq_ok_iff.mpr hn)
  refine ends_of_not_escapes (not_escapes_arithmetic op v w) fun u hu => ?_
  rw [arithmetic] at hu
  split at hu
  next n hResult =>
    obtain ⟨a, ha, hResult⟩ := exists_of_bind_eq_ok hResult
    obtain ⟨b, hb, hResult⟩ := exists_of_bind_eq_ok hResult
    cases hu
    exact isDecimal_of_onNumbers (hNumber hv ha) (hNumber hw hb) hResult
  next => cases hu

theorem ends_applyBinary (op : BinaryOp) (hv : v.IsSimple) (hw : w.IsSimple) :
    Ends Value.IsSimple (Expr.applyBinary op v w) := by
  cases op with
  | eq | ne | differs => exact (ends_looseEquals hv hw).bind fun _ _ => trivial
  | lt | le | gt | ge => exact (ends_compareValues _ hv hw).bind fun _ _ => trivial
  | or | and | add | sub | mul | div | mod => exact ends_arithmetic _ hv hw

/-! ### Operations that cannot be done on simple values -/

theorem not_stumblesOn_unary (op : UnaryOp) (h : v.IsSimple) : ¬op.StumblesOn v := by
  cases op with
  | not => exact id
  | plus => exact h.not_holdsLongItem
  | minus =>
    rintro (hItem | ⟨d, rfl, -⟩)
    · exact h.not_holdsLongItem hItem
    · cases h

/-- Only an equality of simple values cannot be told. -/
theorem stumblesOn_binary_iff {op : BinaryOp} (hv : v.IsSimple) (hw : w.IsSimple) :
    op.StumblesOn v w ↔
      op ∈ [.eq, .ne, .differs] ∧ (LongBesideText v w ∨ LongBesideText w v) := by
  cases op with
  | eq | ne | differs => simp [BinaryOp.StumblesOn, equalityStumbles_iff hv hw]
  | lt | le | gt | ge => simp [BinaryOp.StumblesOn, not_orderStumbles hv hw]
  | or | and | add | sub | mul | div | mod => simp [BinaryOp.StumblesOn]

/-! ### Expressions of simple literals -/

namespace Expr

/-- Whether all literals of an expression are simple. -/
def HasSimpleLiterals : Expr → Prop
  | literal l => l.value.IsSimple
  | .variable _ => True
  | unary _ operand => operand.HasSimpleLiterals
  | binary _ left right => left.HasSimpleLiterals ∧ right.HasSimpleLiterals
  | conditional test thenBranch elseBranch =>
    test.HasSimpleLiterals ∧ thenBranch.HasSimpleLiterals ∧ elseBranch.HasSimpleLiterals

variable {env : Environment}

/-- **An evaluation on simple values ends in a simple value, in an error that only makes the
condition fail, or in the fault of an integer with too many digits.** -/
theorem ends_evaluate (hEnv : env.IsSimple) {e : Expr} (h : e.HasSimpleLiterals) (depth : Nat) :
    Ends Value.IsSimple (e.evaluate env depth) := by
  induction depth generalizing e with
  | zero => exact .inl rfl
  | succ depth ih =>
    cases e with
    | literal l => exact h
    | «variable» name =>
      rw [evaluate]
      cases hLookup : env.lookup name with
      | none => exact trivial
      | some v => exact hEnv name v hLookup
    | unary op operand => exact (ih (e := operand) h).bind fun v hv => ends_applyUnary op hv
    | binary op left right =>
      cases op with
      | and =>
        refine (ih h.1).bind fun v _ => ?_
        cases v.truthy with
        | true => exact (ih h.2).bind fun _ _ => trivial
        | false => exact trivial
      | or =>
        refine (ih h.1).bind fun v _ => ?_
        cases v.truthy with
        | true => exact trivial
        | false => exact (ih h.2).bind fun _ _ => trivial
      | _ => exact (ih h.1).bind fun v hv => (ih h.2).bind fun w hw => ends_applyBinary _ hv hw
    | conditional test thenBranch elseBranch =>
      refine (ih h.1).bind fun v _ => ?_
      by_cases hTruthy : v.truthy
      · rw [if_pos hTruthy]
        exact ih h.2.1
      · rw [if_neg hTruthy]
        exact ih h.2.2

/-! ### Coming to an operation -/

/-- Whether evaluating an expression comes to a binary operation and has evaluated its operands to
the given values. -/
inductive Reaches (env : Environment) (op : BinaryOp) (v w : Value) : Nat → Expr → Prop where
  /-- The operation itself. -/
  | here {depth : Nat} {left right : Expr} :
    left.evaluate env depth = .ok v → op.needsRight v → right.evaluate env depth = .ok w →
    Reaches env op v w (depth + 1) (.binary op left right)
  /-- In the operand of a unary operation. -/
  | operand {depth : Nat} {outer : UnaryOp} {e : Expr} :
    Reaches env op v w depth e → Reaches env op v w (depth + 1) (.unary outer e)
  /-- In the left operand of a binary operation. -/
  | left {depth : Nat} {outer : BinaryOp} {left right : Expr} :
    Reaches env op v w depth left → Reaches env op v w (depth + 1) (.binary outer left right)
  /-- In the right operand, if that is needed. -/
  | right {depth : Nat} {outer : BinaryOp} {left right : Expr} {u : Value} :
    left.evaluate env depth = .ok u → outer.needsRight u → Reaches env op v w depth right →
    Reaches env op v w (depth + 1) (.binary outer left right)
  /-- In the test of a choice. -/
  | test {depth : Nat} {test thenBranch elseBranch : Expr} :
    Reaches env op v w depth test →
    Reaches env op v w (depth + 1) (.conditional test thenBranch elseBranch)
  /-- In the branch of a test that holds. -/
  | thenBranch {depth : Nat} {test thenBranch elseBranch : Expr} {u : Value} :
    test.evaluate env depth = .ok u → u.truthy → Reaches env op v w depth thenBranch →
    Reaches env op v w (depth + 1) (.conditional test thenBranch elseBranch)
  /-- In the branch of one that does not. -/
  | elseBranch {depth : Nat} {test thenBranch elseBranch : Expr} {u : Value} :
    test.evaluate env depth = .ok u → ¬u.truthy → Reaches env op v w depth elseBranch →
    Reaches env op v w (depth + 1) (.conditional test thenBranch elseBranch)

/-- The operands of an operation on simple values are simple. -/
theorem Reaches.isSimple {op : BinaryOp} {v w : Value} {depth : Nat} {e : Expr}
    (hReaches : e.Reaches env op v w depth) (hEnv : env.IsSimple) (h : e.HasSimpleLiterals) :
    v.IsSimple ∧ w.IsSimple := by
  induction hReaches with
  | here hv _ hw =>
    have hLeft := ends_evaluate hEnv h.1
    have hRight := ends_evaluate hEnv h.2
    exact ⟨(hLeft _).of_eq_ok hv, (hRight _).of_eq_ok hw⟩
  | operand _ ih => exact ih h
  | left _ ih | test _ ih => exact ih h.1
  | right _ _ _ ih => exact ih h.2
  | thenBranch _ _ _ ih => exact ih h.2.1
  | elseBranch _ _ _ ih => exact ih h.2.2

/-- An expression stumbles where it comes to an operation that cannot be done. -/
theorem Reaches.stumbles {op : BinaryOp} {v w : Value} {depth : Nat} {e : Expr}
    (h : e.Reaches env op v w depth) (hOp : op.StumblesOn v w) : e.Stumbles env depth := by
  induction h with
  | here hv hNeeds hw => exact .binary hv hNeeds hw hOp
  | operand _ ih => exact .operand ih
  | left _ ih => exact .left ih
  | right hu hNeeds _ ih => exact .right hu hNeeds ih
  | test _ ih => exact .test ih
  | thenBranch hu hTruthy _ ih => exact .thenBranch hu hTruthy ih
  | elseBranch hu hTruthy _ ih => exact .elseBranch hu hTruthy ih

/-- On simple values it stumbles nowhere else. -/
theorem Stumbles.exists_reaches {depth : Nat} {e : Expr} (hStumbles : e.Stumbles env depth)
    (hEnv : env.IsSimple) (h : e.HasSimpleLiterals) :
    ∃ op v w, e.Reaches env op v w depth ∧ op.StumblesOn v w := by
  induction hStumbles with
  | @unary depth op operand v hv hOp =>
    have hSimple := (ends_evaluate (e := operand) hEnv h depth).of_eq_ok hv
    exact absurd hOp (not_stumblesOn_unary op hSimple)
  | binary hv hNeeds hw hOp => exact ⟨_, _, _, .here hv hNeeds hw, hOp⟩
  | operand _ ih =>
    obtain ⟨op, v, w, hReaches, hOp⟩ := ih h
    exact ⟨op, v, w, .operand hReaches, hOp⟩
  | left _ ih =>
    obtain ⟨op, v, w, hReaches, hOp⟩ := ih h.1
    exact ⟨op, v, w, .left hReaches, hOp⟩
  | right hu hNeeds _ ih =>
    obtain ⟨op, v, w, hReaches, hOp⟩ := ih h.2
    exact ⟨op, v, w, .right hu hNeeds hReaches, hOp⟩
  | test _ ih =>
    obtain ⟨op, v, w, hReaches, hOp⟩ := ih h.1
    exact ⟨op, v, w, .test hReaches, hOp⟩
  | thenBranch hu hTruthy _ ih =>
    obtain ⟨op, v, w, hReaches, hOp⟩ := ih h.2.1
    exact ⟨op, v, w, .thenBranch hu hTruthy hReaches, hOp⟩
  | elseBranch hu hTruthy _ ih =>
    obtain ⟨op, v, w, hReaches, hOp⟩ := ih h.2.2
    exact ⟨op, v, w, .elseBranch hu hTruthy hReaches, hOp⟩

end Expr

/-! ### Compiled conditions -/

/-- What holds of the tokens of all lexemes holds of the tokens of a text. -/
theorem forall_mem_tokensFrom {P : Token → Prop}
    (hLexeme : ∀ lexeme position token,
      Lexeme.token? position lexeme = .ok (some token) → P token)
    {position : Nat} {text : Text} {located : List Located}
    (h : tokensFrom position text = .ok located) : ∀ t ∈ located, P t.token := by
  induction hn : text.length using Nat.strongRecOn generalizing text position located with
  | _ n ih =>
    cases text with
    | nil =>
      rw [tokensFrom_nil] at h
      cases h
      exact List.forall_mem_nil _
    | cons c rest =>
      obtain ⟨lexeme, hFirst, -⟩ := tokensFrom_cons_isOk (exists_eq_ok_iff_isOk.mp ⟨located, h⟩)
      rw [tokensFrom_of_first? hFirst] at h
      obtain ⟨token?, hToken, h⟩ := exists_of_bind_eq_ok h
      obtain ⟨others, hOthers, h⟩ := exists_of_bind_eq_ok h
      have hPos := Lexeme.length_text_pos hFirst
      have hRest := ih _ (by rw [← hn, List.length_drop, List.length_cons]; omega) hOthers rfl
      cases h
      cases token? with
      | none => exact hRest
      | some token => exact List.forall_mem_cons.mpr ⟨hLexeme _ _ _ hToken, hRest⟩

/-- Whether a token is no decimal. -/
def Token.IsSimple : Token → Prop
  | .number n => n.isDecimal = false
  | _ => True

/-- A number in a condition is read as an integer or a float. -/
theorem isSimple_of_token? {lexeme : Lexeme} {position : Nat} {token : Token}
    (h : lexeme.token? position = .ok (some token)) : token.IsSimple := by
  unfold Lexeme.token? at h
  split at h
  · cases h
  · -- A numeral with a point is a float, one without an integer.
    split at h
    split at h
    · cases h
      rfl
    · split at h
      · cases h
        rfl
      · cases h
  · cases h
    exact trivial
  · split at h
    · cases h
      exact trivial
    · cases h
      exact trivial
  · cases h
    exact trivial

/-- The literals of an expression are among its tokens. -/
theorem hasSimpleLiterals_of_derives {level : Nat} {tokens : List Token} {e : Expr}
    (h : Derives level tokens e) (hTokens : ∀ t ∈ tokens, t.IsSimple) : e.HasSimpleLiterals := by
  induction h with
  | looser _ _ ih => exact ih hTokens
  | conditional _ _ _ ihTest ihThen ihElse =>
    simp only [List.forall_mem_append, List.forall_mem_cons] at hTokens
    exact ⟨ihTest hTokens.1, ihThen hTokens.2.2.1, ihElse hTokens.2.2.2.2⟩
  | binary _ _ _ ihLeft ihRight =>
    simp only [List.forall_mem_append, List.forall_mem_cons] at hTokens
    exact ⟨ihLeft hTokens.1, ihRight hTokens.2.2⟩
  | unary _ ih => exact ih (List.forall_mem_cons.mp hTokens).2
  | number n => exact hTokens _ List.mem_cons_self
  | string | isTrue | isFalse | null | name => exact trivial
  | parentheses _ ih =>
    simp only [List.forall_mem_append, List.forall_mem_cons] at hTokens
    exact ih hTokens.2.1

/-- A compiled condition has simple literals. -/
theorem hasSimpleLiterals_of_compile {source : Text} {room : Nat} {c : Compiled}
    (h : compile source room = .ok c) :
    c.root.HasSimpleLiterals := by
  obtain ⟨located, hTokens, h⟩ := exists_of_bind_eq_ok h
  by_cases hEmpty : located.isEmpty
  · rw [if_pos hEmpty] at h
    cases h
  · rw [if_neg hEmpty] at h
    obtain ⟨root, hParse, h⟩ := exists_of_bind_eq_ok h
    cases h
    refine hasSimpleLiterals_of_derives (Parser.derives_of_parse hParse) ?_
    rw [List.forall_mem_map]
    exact forall_mem_tokensFrom (fun _ _ _ => isSimple_of_token?) hTokens

/-- **A condition that is evaluated on simple values ends in a simple value, in an error that only
makes it fail, or in the fault of an integer with too many digits**, unless it is nested too deeply.
It ends in the fault exactly when the evaluation comes to an equality, in one of its spellings, of
an integer with too many digits and a text that is no numeral. -/
theorem evaluate_ends_simple {source : Text} {room : Nat} {c : Compiled} {env : Environment}
    (hCompile : compile source room = .ok c) (hEnv : env.IsSimple) (room' : Nat) :
    (c.evaluate env room' = .error .tooDeep ∨
      (∃ v, c.evaluate env room' = .ok v ∧ v.IsSimple) ∨
      (∃ e, c.evaluate env room' = .error e ∧ e ≠ .tooDeep ∧ e.escaping? = none) ∨
      c.evaluate env room' = .error (.operand (.number .digitLimit))) ∧
    (c.evaluate env room' = .error (.operand (.number .digitLimit)) ↔
      ∃ op v w, c.root.Reaches env op v w (room' - 1) ∧ op ∈ [.eq, .ne, .differs] ∧
        (LongBesideText v w ∨ LongBesideText w v)) := by
  have hSimple := hasSimpleLiterals_of_compile hCompile
  have hEnds := Expr.ends_evaluate hEnv hSimple (room' - 1)
  rw [Compiled.evaluate]
  constructor
  · cases hResult : c.root.evaluate env (room' - 1) with
    | ok v => exact .inr (.inl ⟨v, rfl, hEnds.of_eq_ok hResult⟩)
    | error e =>
      rw [hResult] at hEnds
      by_cases hDeep : e = .tooDeep
      · exact .inl (hDeep ▸ rfl)
      · rcases hEnds with h | rfl
        · exact .inr (.inr (.inl ⟨e, rfl, hDeep, h⟩))
        · exact .inr (.inr (.inr rfl))
  · rw [← hEnds.escapes_iff, ← Expr.stumbles_iff]
    constructor
    · intro h
      obtain ⟨op, v, w, hReaches, hOp⟩ := h.exists_reaches hEnv hSimple
      obtain ⟨hv, hw⟩ := hReaches.isSimple hEnv hSimple
      exact ⟨op, v, w, hReaches, (stumblesOn_binary_iff hv hw).mp hOp⟩
    · rintro ⟨op, v, w, hReaches, hOp⟩
      obtain ⟨hv, hw⟩ := hReaches.isSimple hEnv hSimple
      exact hReaches.stumbles ((stumblesOn_binary_iff hv hw).mpr hOp)

/-- A variable that is bound to an integer with too many digits. -/
def longBinding : Environment := ⟨[(['a'], .number (.int (10 ^ Fault.maxDigits : Nat)))]⟩

/-- The equality of a variable and a text that is no numeral. -/
def textEquality : Expr := .binary .eq (.variable ['a']) (.literal (.text ['x']))

/-- When the variable is bound to an integer with too many digits the fault escapes. -/
theorem evaluate_ends_simple_textEquality :
    ∃ c, compile (textEquality.print fun _ => .single) = .ok c ∧ longBinding.IsSimple ∧
      c.evaluate longBinding usualRoom = .error (.operand (.number .digitLimit)) := by
  have hLeaves : textEquality.HasWritableLeaves := ⟨⟨by decide, by decide⟩, trivial⟩
  have hShort : 10 * (textEquality.tokensAt 0).length + 13 ≤ usualRoom := by decide
  obtain ⟨c, hCompile, hRoot⟩ := exists_compile_print_eq_ok (fun _ => .single) hLeaves hShort
  have hEnv : longBinding.IsSimple := by
    intro name v hLookup
    rw [longBinding, Environment.lookup, Named.lookup_cons] at hLookup
    split at hLookup
    · cases hLookup
      rfl
    · cases hLookup
  have hReaches : textEquality.Reaches longBinding .eq
      (.number (.int (10 ^ Fault.maxDigits : Nat))) (.text ['x']) (usualRoom - 1) :=
    .here rfl rfl rfl
  have hLong : LongBesideText (.number (.int (10 ^ Fault.maxDigits : Nat))) (.text ['x']) :=
    ⟨_, ['x'], rfl, Nat.le_refl _, rfl, by decide +kernel⟩
  refine ⟨c, hCompile, hEnv, (evaluate_ends_simple hCompile hEnv _).2.mpr ?_⟩
  exact ⟨.eq, _, _, hRoot ▸ hReaches, List.mem_cons_self, .inl hLong⟩

end Condition

end SqlTemplate
