import SqlTemplate.Condition.Grammar
import SqlTemplate.Condition.Parser
import SqlTemplate.Proofs.Results

/-!
# What the parser reads is in the grammar

Each function of the parser takes tokens from the beginning and leaves the others. **The tokens it
has taken spell the expression it answers with**, at the level of the function (`Parser.sound`),
however deep the calls were nested. The induction is on the depth; the loop that joins operations
of one level has an induction of its own (`reads_of_chain`).
-/

namespace SqlTemplate

namespace Condition

theorem BinaryOp.ofSymbol?_eq_some_iff {s : Symbol} {op : BinaryOp} :
    BinaryOp.ofSymbol? s = some op ↔ s = op.symbol := by
  constructor
  · intro h
    cases s <;> cases h <;> rfl
  · rintro rfl
    cases op <;> rfl

theorem UnaryOp.ofSymbol?_eq_some_iff {s : Symbol} {op : UnaryOp} :
    UnaryOp.ofSymbol? s = some op ↔ s = op.symbol := by
  constructor
  · intro h
    cases s <;> cases h <;> rfl
  · rintro rfl
    cases op <;> rfl

namespace Derives

/-- No expression is spelled without tokens. -/
theorem ne_nil {level : Nat} {tokens : List Token} {e : Expr} (h : Derives level tokens e) :
    tokens ≠ [] := by
  induction h with
  | looser _ _ ih => exact ih
  | conditional => simp
  | binary => simp
  | unary => simp
  | number => simp
  | string => simp
  | isTrue => simp
  | isFalse => simp
  | null => simp
  | name => simp
  | parentheses => simp

end Derives

/-- Whether tokens begin with an expression of a level, in front of a rest. -/
def Reads (level : Nat) (tokens : List Located) (e : Expr) (rest : List Located) : Prop :=
  ∃ used, tokens = used ++ rest ∧ Derives level (used.map Located.token) e

namespace Reads

variable {level : Nat} {tokens rest : List Located} {e : Expr}

theorem looser (hLevel : level < primaryLevel) (h : Reads (level + 1) tokens e rest) :
    Reads level tokens e rest := by
  obtain ⟨used, rfl, hUsed⟩ := h
  exact ⟨used, rfl, .looser hLevel hUsed⟩

/-- Reading an expression takes at least one token. -/
theorem length_lt (h : Reads level tokens e rest) : rest.length < tokens.length := by
  obtain ⟨used, rfl, hUsed⟩ := h
  have hne : used ≠ [] := fun hNil => hUsed.ne_nil (by rw [hNil, List.map_nil])
  rw [List.length_append]
  have := List.length_pos_iff.mpr hne
  omega

end Reads

namespace Parser

/-! ### Single tokens -/

theorem expect_eq_ok {stop : Nat} {symbol : Symbol} {tokens rest : List Located}
    (h : expect stop symbol tokens = .ok rest) :
    ∃ t, tokens = t :: rest ∧ t.token = .symbol symbol := by
  cases tokens with
  | nil => cases h
  | cons t tail =>
    rw [expect] at h
    split at h
    · cases h
      exact ⟨t, rfl, ‹_›⟩
    · cases h

theorem operation?_eq_some {level : Nat} {tokens rest : List Located} {op : BinaryOp}
    (h : operation? level tokens = some (op, rest)) :
    ∃ t, tokens = t :: rest ∧ t.token.symbol? = some op.symbol ∧ op.level = level := by
  cases tokens with
  | nil => cases h
  | cons t tail =>
    simp only [operation?, Option.bind_eq_bind, Option.bind_eq_some_iff] at h
    obtain ⟨s, hSymbol, op', hOp, h⟩ := h
    split at h
    · cases h
      exact ⟨t, rfl, by rw [hSymbol, BinaryOp.ofSymbol?_eq_some_iff.mp hOp], ‹_›⟩
    · cases h

theorem derives_of_literal? {t : Token} {l : Literal} (h : literal? t = some l) :
    Derives primaryLevel [t] (.literal l) := by
  unfold literal? at h
  split at h
  · cases h
    exact .number _
  · cases h
    exact .string _
  · cases h
    exact .isTrue
  · cases h
    exact .isFalse
  · cases h
    exact .null
  · cases h

/-- A word is never a unary operation. -/
theorem eq_symbol_of_unary {t : Token} {op : UnaryOp}
    (h : t.symbol?.bind UnaryOp.ofSymbol? = some op) : t = .symbol op.symbol := by
  obtain ⟨s, hSymbol, hOp⟩ := Option.bind_eq_some_iff.mp h
  rw [UnaryOp.ofSymbol?_eq_some_iff] at hOp
  subst hOp
  unfold Token.symbol? at hSymbol
  split at hSymbol
  · cases hSymbol
    rfl
  · cases op <;> cases hSymbol
  · cases op <;> cases hSymbol
  · cases hSymbol

/-! ### The loop -/

/-- Operations of a level are joined from the left. -/
theorem reads_of_chain {operand : List Located → Answer} {level : Nat}
    (hOperand : ∀ {tokens rest e}, operand tokens = .ok (e, rest) → Reads (level + 2) tokens e rest)
    {steps : Nat} {before : List Token} {left e : Expr} {tokens rest : List Located}
    (hLeft : Derives (level + 1) before left)
    (h : chain operand level steps left tokens = .ok (e, rest)) :
    ∃ used, tokens = used ++ rest ∧ Derives (level + 1) (before ++ used.map Located.token) e := by
  induction steps generalizing before left tokens with
  | zero =>
    cases h
    exact ⟨[], rfl, by rwa [List.map_nil, List.append_nil]⟩
  | succ steps ih =>
    rw [chain] at h
    split at h
    · cases h
      exact ⟨[], rfl, by rwa [List.map_nil, List.append_nil]⟩
    next op after hOp =>
      obtain ⟨⟨right, between⟩, hRight, hNext⟩ := exists_of_bind_eq_ok h
      obtain ⟨t, rfl, hSymbol, rfl⟩ := operation?_eq_some hOp
      obtain ⟨taken, rfl, hTaken⟩ := hOperand hRight
      obtain ⟨used, rfl, hUsed⟩ := ih (.binary hSymbol hLeft hTaken) hNext
      refine ⟨t :: (taken ++ used), by rw [List.cons_append, List.append_assoc], ?_⟩
      simpa only [List.map_cons, List.map_append, List.append_assoc, List.cons_append] using hUsed

/-! ### The functions of the parser -/

/-- Whether all that the functions read with some depth is in the grammar. -/
structure Sound (stop depth : Nat) : Prop where
  /-- Choices. -/
  ternary {tokens rest e} : ternary stop depth tokens = .ok (e, rest) → Reads 0 tokens e rest
  /-- Operations of a level. -/
  binary {level tokens rest e} : level ≤ BinaryOp.levels →
    binary stop depth level tokens = .ok (e, rest) → Reads (level + 1) tokens e rest
  /-- Unary operations. -/
  unary {tokens rest e} : unary stop depth tokens = .ok (e, rest) → Reads unaryLevel tokens e rest
  /-- What cannot be taken apart. -/
  primary {tokens rest e} : primary stop depth tokens = .ok (e, rest) →
    Reads primaryLevel tokens e rest

namespace Sound

variable {stop depth : Nat} {tokens rest : List Located} {e : Expr}

theorem ternary_succ (h : Sound stop depth)
    (hRead : Parser.ternary stop (depth + 1) tokens = .ok (e, rest)) : Reads 0 tokens e rest := by
  rw [Parser.ternary] at hRead
  obtain ⟨⟨test, behind⟩, hBinary, hNext⟩ := exists_of_bind_eq_ok hRead
  have hTest := h.binary (Nat.zero_le _) hBinary
  simp only at hNext
  split at hNext
  next p tail =>
    obtain ⟨⟨thenBranch, behindThen⟩, hThen, hNext⟩ := exists_of_bind_eq_ok hNext
    obtain ⟨behindColon, hColon, hNext⟩ := exists_of_bind_eq_ok hNext
    obtain ⟨⟨elseBranch, behindElse⟩, hElse, hNext⟩ := exists_of_bind_eq_ok hNext
    cases hNext
    obtain ⟨used, rfl, hUsed⟩ := hTest
    obtain ⟨thenUsed, rfl, hThenUsed⟩ := h.ternary hThen
    obtain ⟨colon, rfl, hColonToken⟩ := expect_eq_ok hColon
    obtain ⟨elseUsed, rfl, hElseUsed⟩ := h.ternary hElse
    refine ⟨used ++ ⟨.symbol .question, p⟩ :: (thenUsed ++ colon :: elseUsed), by simp, ?_⟩
    have := Derives.conditional hUsed hThenUsed hElseUsed
    simpa only [List.map_append, List.map_cons, hColonToken] using this
  next =>
    cases hNext
    exact hTest.looser (by decide)

theorem binary_succ (h : Sound stop depth) {level : Nat} (hLevel : level ≤ BinaryOp.levels)
    (hRead : Parser.binary stop (depth + 1) level tokens = .ok (e, rest)) :
    Reads (level + 1) tokens e rest := by
  rw [Parser.binary] at hRead
  split at hRead
  next hLast =>
    subst hLast
    exact h.unary hRead
  next hNotLast =>
    obtain ⟨⟨left, behind⟩, hLeft, hNext⟩ := exists_of_bind_eq_ok hRead
    have hTighter : level + 1 ≤ BinaryOp.levels := by omega
    have hLevel' : level + 1 < primaryLevel := by
      simp only [primaryLevel, unaryLevel]
      omega
    obtain ⟨used, rfl, hUsed⟩ := h.binary hTighter hLeft
    obtain ⟨more, rfl, hMore⟩ :=
      reads_of_chain (h.binary hTighter) (.looser hLevel' hUsed) hNext
    exact ⟨used ++ more, by rw [List.append_assoc], by rwa [List.map_append]⟩

theorem unary_succ (h : Sound stop depth)
    (hRead : Parser.unary stop (depth + 1) tokens = .ok (e, rest)) :
    Reads unaryLevel tokens e rest := by
  have hPrimary {tokens} (hRead : Parser.primary stop depth tokens = .ok (e, rest)) :
      Reads unaryLevel tokens e rest := (h.primary hRead).looser (by decide)
  cases tokens with
  | nil => exact hPrimary hRead
  | cons t tail =>
    rw [Parser.unary] at hRead
    split at hRead
    next op hOp =>
      obtain ⟨⟨operand, behind⟩, hOperand, hNext⟩ := exists_of_bind_eq_ok hRead
      cases hNext
      obtain ⟨used, rfl, hUsed⟩ := h.unary hOperand
      refine ⟨t :: used, rfl, ?_⟩
      rw [List.map_cons, eq_symbol_of_unary hOp]
      exact .unary hUsed
    next => exact hPrimary hRead

theorem primary_succ (h : Sound stop depth)
    (hRead : Parser.primary stop (depth + 1) tokens = .ok (e, rest)) :
    Reads primaryLevel tokens e rest := by
  cases tokens with
  | nil => cases hRead
  | cons t tail =>
    rw [Parser.primary] at hRead
    split at hRead
    next l hLiteral =>
      cases hRead
      exact ⟨[t], rfl, derives_of_literal? hLiteral⟩
    next name hName _ =>
      cases hRead
      exact ⟨[t], rfl, by rw [List.map_cons, hName]; exact .name name⟩
    next hOpen _ =>
      obtain ⟨⟨inner, behind⟩, hInner, hNext⟩ := exists_of_bind_eq_ok hRead
      obtain ⟨behindClose, hClose, hNext⟩ := exists_of_bind_eq_ok hNext
      cases hNext
      obtain ⟨used, rfl, hUsed⟩ := h.ternary hInner
      obtain ⟨close, rfl, hCloseToken⟩ := expect_eq_ok hClose
      refine ⟨t :: (used ++ [close]), by simp, ?_⟩
      simpa only [List.map_cons, List.map_append, hOpen, hCloseToken, List.map_nil] using
        Derives.parentheses hUsed
    next => cases hRead

end Sound

/-- **All that the parser reads is in the grammar**, at the level of the function that reads it. -/
theorem sound (stop depth : Nat) : Sound stop depth := by
  induction depth with
  | zero => exact ⟨nofun, nofun, nofun, nofun⟩
  | succ depth ih => exact ⟨ih.ternary_succ, ih.binary_succ, ih.unary_succ, ih.primary_succ⟩

end Parser

end Condition

end SqlTemplate
