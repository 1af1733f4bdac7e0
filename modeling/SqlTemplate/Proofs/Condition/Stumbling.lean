import SqlTemplate.Condition.Compiled
import SqlTemplate.Proofs.Condition.Operands

/-!
# Conditions that stumble

An expression stumbles where its evaluation comes to operands from which a fault escapes
(`Expr.Stumbles`); operands that are not needed are not looked at. **A fault escapes from an
expression if and only if it stumbles** (`Expr.stumbles_iff`), so a condition has an outcome, be it
that it fails, unless it stumbles (`exists_outcome_iff`).
-/

namespace SqlTemplate

namespace Condition

/-- Whether the right operand of a binary operation is evaluated when the left one has a value. -/
def BinaryOp.needsRight (op : BinaryOp) (left : Value) : Bool :=
  match op with
  | and => left.truthy
  | or => !left.truthy
  | _ => true

/-- Whether evaluating an expression comes to operands with which an operation cannot be done. -/
inductive Expr.Stumbles (env : Environment) : Nat → Expr → Prop where
  /-- In the operand of a unary operation. -/
  | operand {depth : Nat} {op : UnaryOp} {e : Expr} :
    e.Stumbles env depth → Stumbles env (depth + 1) (.unary op e)
  /-- In a unary operation. -/
  | unary {depth : Nat} {op : UnaryOp} {e : Expr} {v : Value} :
    e.evaluate env depth = .ok v → op.StumblesOn v → Stumbles env (depth + 1) (.unary op e)
  /-- In the left operand of a binary operation. -/
  | left {depth : Nat} {op : BinaryOp} {left right : Expr} :
    left.Stumbles env depth → Stumbles env (depth + 1) (.binary op left right)
  /-- In the right operand. -/
  | right {depth : Nat} {op : BinaryOp} {left right : Expr} {v : Value} :
    left.evaluate env depth = .ok v → op.needsRight v → right.Stumbles env depth →
    Stumbles env (depth + 1) (.binary op left right)
  /-- In a binary operation. -/
  | binary {depth : Nat} {op : BinaryOp} {left right : Expr} {v w : Value} :
    left.evaluate env depth = .ok v → op.needsRight v → right.evaluate env depth = .ok w →
    op.StumblesOn v w → Stumbles env (depth + 1) (.binary op left right)
  /-- In the test of a choice. -/
  | test {depth : Nat} {test thenBranch elseBranch : Expr} :
    test.Stumbles env depth → Stumbles env (depth + 1) (.conditional test thenBranch elseBranch)
  /-- In the branch of a test that holds. -/
  | thenBranch {depth : Nat} {test thenBranch elseBranch : Expr} {v : Value} :
    test.evaluate env depth = .ok v → v.truthy → thenBranch.Stumbles env depth →
    Stumbles env (depth + 1) (.conditional test thenBranch elseBranch)
  /-- In the branch of one that does not. -/
  | elseBranch {depth : Nat} {test thenBranch elseBranch : Expr} {v : Value} :
    test.evaluate env depth = .ok v → ¬v.truthy → elseBranch.Stumbles env depth →
    Stumbles env (depth + 1) (.conditional test thenBranch elseBranch)

namespace Expr

variable {env : Environment}

/-- Where a fault can escape from a binary operation: from the left operand, from the right one if
that is needed, and from the operation on their values. -/
theorem escapes_binary_iff (depth : Nat) (op : BinaryOp) (left right : Expr) :
    Escapes ((binary op left right).evaluate env (depth + 1)) ↔
      Escapes (left.evaluate env depth) ∨ ∃ v, left.evaluate env depth = .ok v ∧
        op.needsRight v ∧ (Escapes (right.evaluate env depth) ∨
          ∃ w, right.evaluate env depth = .ok w ∧ op.StumblesOn v w) := by
  cases op with
  | and | or =>
    rw [evaluate, escapes_bind_iff]
    refine or_congr_right (exists_congr fun v => and_congr_right fun _ => ?_)
    rw [BinaryOp.needsRight]
    cases v.truthy <;>
      simp only [if_true, Bool.false_eq_true, if_false, escapes_bind_pure_iff, not_escapes_pure,
        BinaryOp.StumblesOn, and_false, exists_false, or_false, true_and, false_and, Bool.not_true,
        Bool.not_false]
  | _ =>
    simp only [evaluate, escapes_bind_iff, escapes_applyBinary_iff, BinaryOp.needsRight, true_and]

/-- **A fault escapes from an expression if and only if it stumbles.** -/
theorem stumbles_iff (depth : Nat) (e : Expr) :
    e.Stumbles env depth ↔ Escapes (e.evaluate env depth) := by
  induction depth generalizing e with
  | zero =>
    refine iff_of_false (fun h => by cases h) ?_
    rintro ⟨_, h⟩
    cases h
  | succ depth ih =>
    cases e with
    | literal l => exact iff_of_false (fun h => by cases h) (not_escapes_ok _)
    | «variable» name => exact iff_of_false (fun h => by cases h) (not_escapes_ok _)
    | unary op operand =>
      rw [evaluate, escapes_bind_iff, ← ih]
      simp only [escapes_applyUnary_iff]
      constructor
      · intro h
        cases h with
        | operand h => exact .inl h
        | unary hv h => exact .inr ⟨_, hv, h⟩
      · rintro (h | ⟨v, hv, h⟩)
        · exact .operand h
        · exact .unary hv h
    | binary op left right =>
      rw [escapes_binary_iff, ← ih, ← ih]
      constructor
      · intro h
        cases h with
        | left h => exact .inl h
        | right hv hNeeds h => exact .inr ⟨_, hv, hNeeds, .inl h⟩
        | binary hv hNeeds hw h => exact .inr ⟨_, hv, hNeeds, .inr ⟨_, hw, h⟩⟩
      · rintro (h | ⟨v, hv, hNeeds, h | ⟨w, hw, h⟩⟩)
        · exact .left h
        · exact .right hv hNeeds h
        · exact .binary hv hNeeds hw h
    | conditional test thenBranch elseBranch =>
      rw [evaluate, escapes_bind_iff, ← ih]
      constructor
      · intro h
        cases h with
        | test h => exact .inl h
        | thenBranch hv hTruthy h =>
          refine .inr ⟨_, hv, ?_⟩
          rw [if_pos hTruthy, ← ih]
          exact h
        | elseBranch hv hTruthy h =>
          refine .inr ⟨_, hv, ?_⟩
          rw [if_neg hTruthy, ← ih]
          exact h
      · rintro (h | ⟨v, hv, h⟩)
        · exact .test h
        · split at h
          next hTruthy => exact .thenBranch hv hTruthy ((ih _).mpr h)
          next hTruthy => exact .elseBranch hv hTruthy ((ih _).mpr h)

end Expr

/-- Whether a condition can be compiled and stumbles in an environment, as a test where there is
some room. -/
def Stumbles (env : Environment) (source : Text) (room : Nat) : Prop :=
  ∃ c, compile source (room - 1) = .ok c ∧ c.root.Stumbles env (room - 1 - 1)

/-- Only the faults that escape take the outcome away. -/
theorem exists_ofValue_iff (x : Except EvalError Value) :
    (∃ o, Outcome.ofValue x = .ok o) ↔ ¬Escapes x := by
  cases x with
  | ok v => exact iff_of_true ⟨_, rfl⟩ (not_escapes_ok v)
  | error e =>
    rw [Outcome.ofValue]
    cases e with
    | operand fault =>
      cases fault with
      | number fault =>
        exact iff_of_false not_exists_error_eq_ok (not_not_intro ⟨fault, rfl⟩)
      | notANumber | divisionByZero | moduloByZero =>
        refine iff_of_true ⟨_, rfl⟩ ?_
        rintro ⟨_, h⟩
        cases h
    | invalidOperands | cannotCompare | tooDeep =>
      refine iff_of_true ⟨_, rfl⟩ ?_
      rintro ⟨_, h⟩
      cases h

/-- **A condition has an outcome if and only if it does not stumble.** -/
theorem exists_outcome_iff (env : Environment) (source : Text) (room : Nat) :
    (∃ o, outcome env source room = .ok o) ↔ ¬Stumbles env source room := by
  cases hCompile : compile source (room - 1) with
  | error e =>
    refine iff_of_true ⟨.failed (.syntaxError e), ?_⟩ ?_
    · rw [outcome, outcomeWith, hCompile]
      rfl
    · rintro ⟨c, h, -⟩
      cases hCompile.symm.trans h
  | ok c =>
    have hStumbles : Stumbles env source room ↔ c.root.Stumbles env (room - 1 - 1) := by
      refine ⟨?_, fun h => ⟨c, hCompile, h⟩⟩
      rintro ⟨c', h, hRoot⟩
      cases hCompile.symm.trans h
      exact hRoot
    rw [hStumbles, Expr.stumbles_iff, ← exists_ofValue_iff, outcome_of_compile hCompile,
      Compiled.evaluate]

end Condition

end SqlTemplate
