import SqlTemplate.Condition.Compiled
import SqlTemplate.Proofs.Condition.Completeness
import SqlTemplate.Proofs.Results

/-!
# More room for calls

The parser is a family of functions that call each other. Each of them answers with one call more
what it answers with fewer, unless these run out (`Parser.Deepens`), so a deeper parser is never
worse (`Parser.parse_upto`). **Where a condition is not nested too deeply, it is compiled to the
same with more room, and with less if that is not too little** (`compile_of_le`,
`compile_eq_ok_of_eq_ok`).
-/

namespace SqlTemplate

namespace Condition

namespace Parser

/-- Two sequences agree up to the limit if their steps do. -/
theorem Upto.seq {α β : Type} {x y : Except SyntaxError α} {next next' : α → Except SyntaxError β}
    (h : Upto x y) (hNext : ∀ a, Upto (next a) (next' a)) : Upto (x >>= next) (y >>= next') := by
  rcases h with rfl | rfl
  · cases x with
    | ok a => exact hNext a
    | error e => exact .refl _
  · exact .inr rfl

/-- The loop answers with deeper operands what it answers with others. -/
theorem chain_upto {operand operand' : List Located → Answer}
    (h : ∀ tokens, Upto (operand tokens) (operand' tokens)) (level steps : Nat) (left : Expr)
    (tokens : List Located) :
    Upto (chain operand level steps left tokens) (chain operand' level steps left tokens) := by
  induction steps generalizing left tokens with
  | zero => exact .refl _
  | succ steps ih =>
    rw [chain, chain]
    cases operation? level tokens with
    | none => exact .refl _
    | some found => exact .seq (h found.2) fun answer => ih _ answer.2

/-- Whether the functions answer with one call more what they answer with some depth, unless that
is too little. -/
structure Deepens (stop depth : Nat) : Prop where
  /-- Choices. -/
  ternary (tokens) : Upto (ternary stop depth tokens) (ternary stop (depth + 1) tokens)
  /-- Operations of a level. -/
  binary (level tokens) :
    Upto (binary stop depth level tokens) (binary stop (depth + 1) level tokens)
  /-- Unary operations. -/
  unary (tokens) : Upto (unary stop depth tokens) (unary stop (depth + 1) tokens)
  /-- What cannot be taken apart. -/
  primary (tokens) : Upto (primary stop depth tokens) (primary stop (depth + 1) tokens)

namespace Deepens

variable {stop depth : Nat}

theorem ternary_succ (h : Deepens stop depth) (tokens : List Located) :
    Upto (Parser.ternary stop (depth + 1) tokens) (Parser.ternary stop (depth + 1 + 1) tokens) := by
  rw [Parser.ternary, Parser.ternary]
  refine .seq (h.binary 0 tokens) fun test => ?_
  dsimp only
  split
  next tail _ =>
    refine .seq (h.ternary tail) fun thenBranch => ?_
    refine .seq (.refl _) fun others => ?_
    exact .seq (h.ternary others) fun _ => .refl _
  next => exact .refl _

theorem binary_succ (h : Deepens stop depth) (level : Nat) (tokens : List Located) :
    Upto (Parser.binary stop (depth + 1) level tokens)
      (Parser.binary stop (depth + 1 + 1) level tokens) := by
  rw [Parser.binary, Parser.binary]
  split
  next => exact h.unary tokens
  next =>
    exact .seq (h.binary (level + 1) tokens) fun answer =>
      chain_upto (h.binary (level + 1)) level _ _ answer.2

theorem unary_succ (h : Deepens stop depth) (tokens : List Located) :
    Upto (Parser.unary stop (depth + 1) tokens) (Parser.unary stop (depth + 1 + 1) tokens) := by
  cases tokens with
  | nil => exact h.primary []
  | cons t rest =>
    rw [Parser.unary, Parser.unary]
    split
    next => exact .seq (h.unary rest) fun _ => .refl _
    next => exact h.primary (t :: rest)

theorem primary_succ (h : Deepens stop depth) (tokens : List Located) :
    Upto (Parser.primary stop (depth + 1) tokens) (Parser.primary stop (depth + 1 + 1) tokens) := by
  cases tokens with
  | nil => exact .refl _
  | cons t rest =>
    rw [Parser.primary, Parser.primary]
    split
    · exact .refl _
    · exact .refl _
    · exact .seq (h.ternary rest) fun _ => .refl _
    · exact .refl _

end Deepens

theorem deepens (stop depth : Nat) : Deepens stop depth := by
  induction depth with
  | zero =>
    exact ⟨fun _ => .inr rfl, fun _ _ => .inr rfl, fun _ => .inr rfl, fun _ => .inr rfl⟩
  | succ depth ih => exact ⟨ih.ternary_succ, ih.binary_succ, ih.unary_succ, ih.primary_succ⟩

/-- **A deeper parser answers the same**, unless the limit is hit without the depth. -/
theorem parse_upto (stop : Nat) {depth depth' : Nat} (h : depth ≤ depth') (tokens : List Located) :
    Upto (parse stop depth tokens) (parse stop depth' tokens) := by
  induction h with
  | refl => exact .refl _
  | step _ ih => exact ih.trans (.seq ((deepens stop _).ternary tokens) fun _ => .refl _)

end Parser

variable {source : Text} {room room' : Nat} {c : Compiled}

theorem compile_upto (h : room ≤ room') (source : Text) :
    Parser.Upto (compile source room) (compile source room') := by
  refine .seq (.refl _) fun located => ?_
  dsimp only
  split
  · exact .refl _
  · exact .seq (Parser.parse_upto source.length (Nat.sub_le_sub_right h 3) located)
      fun _ => .refl _

/-- **With more room a condition is compiled to the same**, unless it was nested too deeply. -/
theorem compile_of_le (h : room ≤ room') (hLimit : compile source room ≠ .error .tooDeep) :
    compile source room' = compile source room :=
  ((compile_upto h source).resolve_right hLimit).symm

/-- What can be compiled is not nested too deeply. -/
theorem compile_ne_tooDeep (h : compile source room = .ok c) :
    compile source room ≠ .error .tooDeep := by
  rw [h]
  exact ok_ne_error c _

theorem compile_eq_ok_of_le (hLe : room ≤ room') (h : compile source room = .ok c) :
    compile source room' = .ok c :=
  (compile_of_le hLe (compile_ne_tooDeep h)).trans h

/-- What is compiled somewhere is compiled to the same wherever it is not nested too deeply. -/
theorem compile_eq_ok_of_eq_ok (h : compile source room = .ok c)
    (hLimit : compile source room' ≠ .error .tooDeep) : compile source room' = .ok c := by
  rcases Nat.le_total room room' with hLe | hLe
  · exact compile_eq_ok_of_le hLe h
  · exact (compile_of_le hLe hLimit).symm.trans h

end Condition

end SqlTemplate
