import SqlTemplate.Proofs.Condition.Soundness

/-!
# Where the nesting limit is not hit

Every call of the parser that takes no token leads to a tighter level, and there are nine levels
from a choice to what cannot be taken apart. So **with ten calls for each token, and ten more, the
parser never runs out of them** (`parse_ne_tooDeep`): only a condition of many tokens can be
nested too deeply.
-/

namespace SqlTemplate

namespace Condition

namespace Parser

theorem expect_ne_tooDeep (stop : Nat) (symbol : Symbol) (tokens : List Located) :
    expect stop symbol tokens ≠ .error .tooDeep := by
  intro h
  cases tokens with
  | nil => cases h
  | cons t rest =>
    rw [expect] at h
    split at h <;> cases h

/-- The loop does not run out of calls if none of its operands does. -/
theorem chain_ne_tooDeep {operand : List Located → Answer} {level steps : Nat} {left : Expr}
    {tokens : List Located}
    (hLength : ∀ {tokens e rest}, operand tokens = .ok (e, rest) → rest.length < tokens.length)
    (hOperand : ∀ rest : List Located, rest.length < tokens.length →
      operand rest ≠ .error .tooDeep) :
    chain operand level steps left tokens ≠ .error .tooDeep := by
  induction steps generalizing left tokens with
  | zero => exact ok_ne_error _ _
  | succ steps ih =>
    rw [chain]
    split
    · exact ok_ne_error _ _
    next op rest hOp =>
      obtain ⟨t, rfl, -⟩ := operation?_eq_some hOp
      refine bind_ne_error (hOperand rest (Nat.lt_succ_self _)) ?_
      rintro ⟨right, after⟩ hRight
      have hAfter := hLength hRight
      exact ih fun others hOthers => hOperand others (by
        rw [List.length_cons]
        omega)

/-- Whether the functions do not run out of calls with some depth, on tokens that are few enough
for it. -/
structure Enough (stop depth : Nat) : Prop where
  /-- Choices. -/
  ternary (tokens) : 10 * tokens.length + 10 ≤ depth →
    ternary stop depth tokens ≠ .error .tooDeep
  /-- Operations of a level. -/
  binary (level tokens) : level ≤ BinaryOp.levels → 10 * tokens.length + 9 ≤ depth + level →
    binary stop depth level tokens ≠ .error .tooDeep
  /-- Unary operations. -/
  unary (tokens) : 10 * tokens.length + 2 ≤ depth → unary stop depth tokens ≠ .error .tooDeep
  /-- What cannot be taken apart. -/
  primary (tokens) : 10 * tokens.length + 1 ≤ depth →
    primary stop depth tokens ≠ .error .tooDeep

namespace Enough

variable {stop depth : Nat}

theorem ternary_succ (h : Enough stop depth) (tokens : List Located)
    (hDepth : 10 * tokens.length + 10 ≤ depth + 1) :
    Parser.ternary stop (depth + 1) tokens ≠ .error .tooDeep := by
  rw [Parser.ternary]
  refine bind_ne_error (h.binary 0 tokens (Nat.zero_le _) (by omega)) ?_
  rintro ⟨test, behind⟩ hTest
  have hBehind := ((sound stop depth).binary (Nat.zero_le _) hTest).length_lt
  simp only
  split
  next p tail =>
    rw [List.length_cons] at hBehind
    refine bind_ne_error (h.ternary tail (by omega)) ?_
    rintro ⟨thenBranch, rest⟩ hThen
    have hRest := ((sound stop depth).ternary hThen).length_lt
    refine bind_ne_error (expect_ne_tooDeep _ _ _) fun others hColon => ?_
    obtain ⟨colon, hOthers, -⟩ := expect_eq_ok hColon
    simp only at hOthers
    rw [hOthers, List.length_cons] at hRest
    exact bind_ne_error (h.ternary others (by omega)) fun _ _ => ok_ne_error _ _
  next => exact ok_ne_error _ _

theorem binary_succ (h : Enough stop depth) (level : Nat) (tokens : List Located)
    (hLevel : level ≤ BinaryOp.levels) (hDepth : 10 * tokens.length + 9 ≤ depth + 1 + level) :
    Parser.binary stop (depth + 1) level tokens ≠ .error .tooDeep := by
  rw [Parser.binary]
  split
  next hLast =>
    rw [BinaryOp.levels] at hLast
    exact h.unary tokens (by omega)
  next hNotLast =>
    have hTighter : level + 1 ≤ BinaryOp.levels := by omega
    have hLength {tokens e rest} (hRead : Parser.binary stop depth (level + 1) tokens =
        .ok (e, rest)) : rest.length < tokens.length :=
      ((sound stop depth).binary hTighter hRead).length_lt
    refine bind_ne_error (h.binary (level + 1) tokens hTighter (by omega)) ?_
    rintro ⟨left, rest⟩ hLeft
    have hRest := hLength hLeft
    exact chain_ne_tooDeep hLength fun others hOthers =>
      h.binary (level + 1) others hTighter (by omega)

theorem unary_succ (h : Enough stop depth) (tokens : List Located)
    (hDepth : 10 * tokens.length + 2 ≤ depth + 1) :
    Parser.unary stop (depth + 1) tokens ≠ .error .tooDeep := by
  cases tokens with
  | nil => exact h.primary [] (by omega)
  | cons t rest =>
    rw [Parser.unary]
    split
    · rw [List.length_cons] at hDepth
      exact bind_ne_error (h.unary rest (by omega)) fun _ _ => ok_ne_error _ _
    · exact h.primary (t :: rest) (by omega)

theorem primary_succ (h : Enough stop depth) (tokens : List Located)
    (hDepth : 10 * tokens.length + 1 ≤ depth + 1) :
    Parser.primary stop (depth + 1) tokens ≠ .error .tooDeep := by
  intro hRead
  cases tokens with
  | nil => cases hRead
  | cons t rest =>
    rw [Parser.primary] at hRead
    split at hRead
    · cases hRead
    · cases hRead
    · rw [List.length_cons] at hDepth
      refine bind_ne_error (h.ternary rest (by omega)) ?_ hRead
      rintro ⟨inner, behind⟩ _
      exact bind_ne_error (expect_ne_tooDeep _ _ _) fun _ _ => ok_ne_error _ _
    · cases hRead

end Enough

theorem enough (stop depth : Nat) : Enough stop depth := by
  induction depth with
  | zero =>
    refine ⟨fun _ h => ?_, fun _ _ hLevel h => ?_, fun _ h => ?_, fun _ h => ?_⟩
    · omega
    · rw [BinaryOp.levels] at hLevel
      omega
    · omega
    · omega
  | succ depth ih => exact ⟨ih.ternary_succ, ih.binary_succ, ih.unary_succ, ih.primary_succ⟩

/-- **With ten calls for each token, and ten more, the limit is not hit.** -/
theorem parse_ne_tooDeep {stop depth : Nat} {tokens : List Located}
    (h : 10 * tokens.length + 10 ≤ depth) : parse stop depth tokens ≠ .error .tooDeep := by
  rw [parse]
  refine bind_ne_error ((enough stop depth).ternary tokens h) ?_
  rintro ⟨e, rest⟩ _ hEnd
  cases rest <;> cases hEnd

end Parser

end Condition

end SqlTemplate
