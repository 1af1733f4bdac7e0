import SqlTemplate.Proofs.Condition.Limit

/-!
# What is in the grammar the parser reads

Tokens that spell an expression are read to this expression, unless the nesting limit is hit,
whatever follows them that the expression could not go on with (`complete`). The induction is on
the derivation. The left operand of an operation is not read by a call of its own: it is what
the loop of its level has joined so far. So an expression of such a level is said to leave the loop
with what it has read (`Complete`), rather than to be read whole.

Together with soundness, **the parser accepts exactly the grammar and builds the one tree that it
gives** (`parse_exact`).
-/

namespace SqlTemplate

namespace Condition

namespace Parser

/-! ### Answers up to the limit -/

/-- Whether an answer is as expected, unless the limit is hit. -/
def Upto {α : Type} (answer expected : Except SyntaxError α) : Prop :=
  answer = expected ∨ answer = .error .tooDeep

namespace Upto

variable {α β : Type} {x y z : Except SyntaxError α}

theorem refl (x : Except SyntaxError α) : Upto x x := .inl rfl

theorem trans (hxy : Upto x y) (hyz : Upto y z) : Upto x z := by
  rcases hxy with rfl | hx
  · exact hyz
  · exact .inr hx

/-- A sequence goes on with what the first step is expected to give. -/
theorem bind {a : α} {next : α → Except SyntaxError β} {r : Except SyntaxError β}
    (hx : Upto x (.ok a)) (hNext : Upto (next a) r) : Upto (x >>= next) r := by
  rcases hx with rfl | rfl
  · exact hNext
  · exact .inr rfl

end Upto

/-! ### What can follow -/

/-- Whether tokens do not begin with an operation of a level or of a tighter one. -/
def Bounded (level : Nat) (tokens : List Located) : Prop :=
  ∀ k, level ≤ k → operation? k tokens = none

theorem Bounded.mono {level level' : Nat} {tokens : List Located} (h : Bounded level tokens)
    (hLevel : level ≤ level') : Bounded level' tokens :=
  fun k hk => h k (Nat.le_trans hLevel hk)

theorem bounded_nil (level : Nat) : Bounded level [] := fun _ _ => rfl

theorem operation?_cons {t : Located} {op : BinaryOp} (h : t.token.symbol? = some op.symbol)
    (level : Nat) (rest : List Located) :
    operation? level (t :: rest) = if op.level = level then some (op, rest) else none := by
  simp only [operation?, h, Option.bind_eq_bind, Option.bind_some,
    BinaryOp.ofSymbol?_eq_some_iff.mpr rfl]

/-- Operations of one level are not tighter than each other. -/
theorem bounded_cons {t : Located} {op : BinaryOp} (h : t.token.symbol? = some op.symbol)
    (rest : List Located) : Bounded (op.level + 1) (t :: rest) := by
  intro k hk
  rw [operation?_cons h, if_neg (by omega)]

/-- Whether a choice or its branch can end in front of tokens. -/
def EndsChoice (tokens : List Located) : Prop :=
  Bounded 0 tokens ∧ ∀ p rest, tokens ≠ ⟨.symbol .question, p⟩ :: rest

theorem endsChoice_nil : EndsChoice [] :=
  ⟨bounded_nil 0, fun _ _ => (List.cons_ne_nil _ _).symm⟩

/-- A choice ends in front of a symbol that is neither its own nor an operation. -/
theorem endsChoice_cons {s : Symbol} (hOp : BinaryOp.ofSymbol? s = none) (hQuestion : s ≠ .question)
    (p : Nat) (rest : List Located) : EndsChoice (⟨.symbol s, p⟩ :: rest) := by
  refine ⟨fun k _ => ?_, fun q others h => ?_⟩
  · simp only [operation?, Token.symbol?, Option.bind_eq_bind, Option.bind_some, hOp,
      Option.bind_none]
  · simp only [List.cons.injEq, Located.mk.injEq, Token.symbol.injEq] at h
    exact hQuestion h.1.1

theorem expect_symbol (stop : Nat) (symbol : Symbol) (p : Nat) (rest : List Located) :
    expect stop symbol (⟨.symbol symbol, p⟩ :: rest) = .ok rest := if_pos rfl

/-! ### The loop -/

theorem chain_of_none {operand : List Located → Answer} {level : Nat} {tokens : List Located}
    (h : operation? level tokens = none) (steps : Nat) (left : Expr) :
    chain operand level steps left tokens = .ok (left, tokens) := by
  cases steps with
  | zero => rfl
  | succ steps => rw [chain, h]

/-- The loop may take as many steps as there are tokens, or more. -/
theorem chain_eq_of_le {operand : List Located → Answer} {level m n : Nat} {left : Expr}
    {tokens : List Located}
    (hLength : ∀ {tokens e rest}, operand tokens = .ok (e, rest) → rest.length < tokens.length)
    (hm : tokens.length ≤ m) (hn : tokens.length ≤ n) :
    chain operand level m left tokens = chain operand level n left tokens := by
  induction m generalizing n left tokens with
  | zero =>
    rw [List.length_eq_zero_iff.mp (Nat.le_zero.mp hm), chain_of_none rfl, chain_of_none rfl]
  | succ m ih =>
    cases hOp : operation? level tokens with
    | none => rw [chain_of_none hOp, chain_of_none hOp]
    | some found =>
      obtain ⟨op, rest⟩ := found
      obtain ⟨t, rfl, -⟩ := operation?_eq_some hOp
      rw [List.length_cons] at hm hn
      obtain ⟨n, rfl⟩ : ∃ n', n = n' + 1 := ⟨n - 1, by omega⟩
      rw [chain, chain, hOp]
      cases hRight : operand rest with
      | error e => simp only [hRight, bind, Except.bind]
      | ok answer =>
        have := hLength hRight
        simp only [hRight, bind, Except.bind]
        exact ih (by omega) (by omega)

/-! ### Derivations -/

/-- Whether tokens that spell an expression of a level are read, in front of any tokens that the
expression cannot go on with. At the levels of the loop the expression is what the loop goes on
with. -/
def Complete (stop : Nat) : Nat → List Token → Expr → Prop
  | 0, tokens, e => ∀ depth used rest, used.map Located.token = tokens → EndsChoice rest →
    Upto (ternary stop depth (used ++ rest)) (.ok (e, rest))
  | level + 1, tokens, e => ∀ depth used rest, used.map Located.token = tokens →
    if level < BinaryOp.levels then Bounded (level + 1) rest →
      Upto (binary stop (depth + 1) level (used ++ rest))
        (chain (binary stop depth (level + 1)) level rest.length e rest)
    else Upto (unary stop depth (used ++ rest)) (.ok (e, rest))

namespace Complete

variable {stop depth level : Nat} {tokens : List Token} {used rest : List Located} {e : Expr}

theorem binary (h : Complete stop (level + 1) tokens e) (hLevel : level < BinaryOp.levels)
    (depth : Nat) (hUsed : used.map Located.token = tokens) (hRest : Bounded (level + 1) rest) :
    Upto (Parser.binary stop (depth + 1) level (used ++ rest))
      (chain (Parser.binary stop depth (level + 1)) level rest.length e rest) := by
  have := h depth used rest hUsed
  rw [if_pos hLevel] at this
  exact this hRest

/-- An operand is read whole in front of an operation of a looser level. -/
theorem operand (h : Complete stop (level + 1) tokens e) (hLevel : level ≤ BinaryOp.levels)
    (hUsed : used.map Located.token = tokens) (hRest : Bounded level rest) :
    Upto (Parser.binary stop depth level (used ++ rest)) (.ok (e, rest)) := by
  cases depth with
  | zero => exact .inr rfl
  | succ depth =>
    by_cases hLast : level = BinaryOp.levels
    · subst hLast
      exact h depth used rest hUsed
    · have hChain := h.binary (by omega) depth hUsed (hRest.mono (Nat.le_succ _))
      rwa [chain_of_none (hRest level (Nat.le_refl _))] at hChain

theorem looser (h : Complete stop (level + 1) tokens e) (hLevel : level < primaryLevel) :
    Complete stop level tokens e := by
  cases level with
  | zero =>
    intro depth used rest hUsed hRest
    cases depth with
    | zero => exact .inr rfl
    | succ depth =>
      rw [ternary]
      refine .bind (h.operand (Nat.zero_le _) hUsed hRest.1) ?_
      simp only
      split
      · exact absurd rfl (hRest.2 _ _)
      · exact .refl _
  | succ level =>
    intro depth used rest hUsed
    split
    next hLoop =>
      intro hRest
      rw [Parser.binary, if_neg (Nat.ne_of_lt hLoop)]
      exact .bind (h.operand hLoop hUsed hRest) (.refl _)
    next hLast =>
      have := h depth used rest hUsed
      rwa [if_neg (by omega)] at this

theorem conditional {test thenPart elsePart : List Token} {t a b : Expr}
    (hTest : Complete stop 1 test t) (hThen : Complete stop 0 thenPart a)
    (hElse : Complete stop 0 elsePart b) :
    Complete stop 0 (test ++ .symbol .question :: (thenPart ++ .symbol .colon :: elsePart))
      (.conditional t a b) := by
  intro depth used rest hUsed hRest
  obtain ⟨usedTest, others, rfl, hUsedTest, hOthers⟩ := List.map_eq_append_iff.mp hUsed
  obtain ⟨question, others, rfl, hQuestion, hOthers⟩ := List.map_eq_cons_iff.mp hOthers
  obtain ⟨usedThen, others, rfl, hUsedThen, hOthers⟩ := List.map_eq_append_iff.mp hOthers
  obtain ⟨colon, usedElse, rfl, hColon, hUsedElse⟩ := List.map_eq_cons_iff.mp hOthers
  obtain ⟨_, p⟩ := question
  obtain ⟨_, q⟩ := colon
  cases hQuestion
  cases hColon
  cases depth with
  | zero => exact .inr rfl
  | succ depth =>
    simp only [List.append_assoc, List.cons_append]
    rw [ternary]
    refine .bind (hTest.operand (Nat.zero_le _) hUsedTest fun _ _ => rfl) ?_
    refine .bind (hThen depth usedThen _ hUsedThen (endsChoice_cons rfl (by decide) q _)) ?_
    refine .bind (.inl (expect_symbol stop .colon q _)) ?_
    exact .bind (hElse depth usedElse rest hUsedElse hRest) (.refl _)

theorem binaryOp {op : BinaryOp} {spelling : Token} {left right : List Token} {a b : Expr}
    (hSpelling : spelling.symbol? = some op.symbol) (hLeft : Complete stop (op.level + 1) left a)
    (hRight : Complete stop (op.level + 2) right b) :
    Complete stop (op.level + 1) (left ++ spelling :: right) (.binary op a b) := by
  intro depth used rest hUsed
  have hLevel : op.level < BinaryOp.levels := by cases op <;> decide
  rw [if_pos hLevel]
  intro hRest
  obtain ⟨usedLeft, others, rfl, hUsedLeft, hOthers⟩ := List.map_eq_append_iff.mp hUsed
  obtain ⟨t, usedRight, rfl, rfl, hUsedRight⟩ := List.map_eq_cons_iff.mp hOthers
  rw [List.append_assoc, List.cons_append]
  refine (hLeft.binary hLevel depth hUsedLeft (bounded_cons hSpelling _)).trans ?_
  rw [List.length_cons, chain, operation?_cons hSpelling, if_pos rfl]
  refine .bind (hRight.operand hLevel hUsedRight hRest) ?_
  simp only
  rw [chain_eq_of_le (fun h => ((sound stop depth).binary hLevel h).length_lt)
    (by rw [List.length_append]; omega) (Nat.le_refl _)]
  exact .refl _

theorem unaryOp {op : UnaryOp} {operand : List Token} {e : Expr}
    (h : Complete stop unaryLevel operand e) :
    Complete stop unaryLevel (.symbol op.symbol :: operand) (.unary op e) := by
  intro depth used rest hUsed
  show Upto (unary stop depth (used ++ rest)) _
  obtain ⟨⟨_, p⟩, usedOperand, rfl, hSymbol, hUsedOperand⟩ := List.map_eq_cons_iff.mp hUsed
  cases hSymbol
  cases depth with
  | zero => exact .inr rfl
  | succ depth =>
    have hOp : (Token.symbol op.symbol).symbol?.bind UnaryOp.ofSymbol? = some op :=
      UnaryOp.ofSymbol?_eq_some_iff.mpr rfl
    rw [List.cons_append, unary, hOp]
    exact .bind (h depth usedOperand rest hUsedOperand) (.refl _)

/-- What begins with no unary operation is read as what cannot be taken apart. -/
theorem primary {t : Token} {tokens : List Token} {e : Expr}
    (hOp : t.symbol?.bind UnaryOp.ofSymbol? = none)
    (h : ∀ depth p used rest, used.map Located.token = tokens →
      Upto (primary stop (depth + 1) (⟨t, p⟩ :: (used ++ rest))) (.ok (e, rest))) :
    Complete stop primaryLevel (t :: tokens) e := by
  intro depth used rest hUsed
  show Upto (unary stop depth (used ++ rest)) _
  obtain ⟨⟨_, p⟩, others, rfl, rfl, hOthers⟩ := List.map_eq_cons_iff.mp hUsed
  cases depth with
  | zero => exact .inr rfl
  | succ depth =>
    rw [List.cons_append, unary, hOp]
    cases depth with
    | zero => exact .inr rfl
    | succ depth => exact h depth p others rest hOthers

/-- Literals and variables are single tokens. -/
theorem single {t : Token} {e : Expr} (hOp : t.symbol?.bind UnaryOp.ofSymbol? = none)
    (h : ∀ depth p rest, Parser.primary stop (depth + 1) (⟨t, p⟩ :: rest) = .ok (e, rest)) :
    Complete stop primaryLevel [t] e := by
  refine primary hOp fun depth p used rest hUsed => ?_
  rw [List.map_eq_nil_iff.mp hUsed, List.nil_append, h]
  exact .refl _

theorem parentheses {tokens : List Token} {e : Expr} (h : Complete stop 0 tokens e) :
    Complete stop primaryLevel (.symbol .openParen :: (tokens ++ [.symbol .closeParen])) e := by
  refine primary rfl fun depth p used rest hUsed => ?_
  obtain ⟨inner, others, rfl, hInner, hOthers⟩ := List.map_eq_append_iff.mp hUsed
  obtain ⟨⟨_, q⟩, _, rfl, hClose, hNil⟩ := List.map_eq_cons_iff.mp hOthers
  cases hClose
  rw [List.map_eq_nil_iff.mp hNil, List.append_assoc]
  refine .bind (h depth inner _ hInner (endsChoice_cons rfl (by decide) q _)) ?_
  exact .bind (.inl (expect_symbol stop .closeParen q _)) (.refl _)

end Complete

/-- **What is in the grammar is read**, unless the limit is hit. -/
theorem complete (stop : Nat) {level : Nat} {tokens : List Token} {e : Expr}
    (h : Derives level tokens e) : Complete stop level tokens e := by
  induction h with
  | looser hLevel _ ih => exact ih.looser hLevel
  | conditional _ _ _ ihTest ihThen ihElse => exact .conditional ihTest ihThen ihElse
  | binary hSpelling _ _ ihLeft ihRight => exact .binaryOp hSpelling ihLeft ihRight
  | unary _ ih => exact .unaryOp ih
  | number => exact .single rfl fun _ _ _ => rfl
  | string => exact .single rfl fun _ _ _ => rfl
  | isTrue => exact .single rfl fun _ _ _ => rfl
  | isFalse => exact .single rfl fun _ _ _ => rfl
  | null => exact .single rfl fun _ _ _ => rfl
  | name => exact .single rfl fun _ _ _ => rfl
  | parentheses _ ih => exact .parentheses ih

/-! ### The parser and the grammar -/

variable {stop depth : Nat} {tokens : List Located} {e : Expr}

/-- What the parser builds is in the grammar. -/
theorem derives_of_parse (h : parse stop depth tokens = .ok e) :
    Derives 0 (tokens.map Located.token) e := by
  rw [parse] at h
  obtain ⟨⟨_, rest⟩, hRead, hEnd⟩ := exists_of_bind_eq_ok h
  cases rest with
  | cons t rest => cases hEnd
  | nil =>
    cases hEnd
    obtain ⟨used, rfl, hUsed⟩ := (sound stop depth).ternary hRead
    rwa [List.append_nil]

/-- What is in the grammar the parser builds, unless the limit is hit. -/
theorem parse_of_derives (h : Derives 0 (tokens.map Located.token) e) :
    Upto (parse stop depth tokens) (.ok e) := by
  have hRead := complete stop h depth tokens [] rfl endsChoice_nil
  rw [List.append_nil] at hRead
  exact .bind hRead (.refl _)

/-- No tokens spell two expressions. -/
theorem eq_of_derives {ts : List Token} {e e' : Expr} (h : Derives 0 ts e) (h' : Derives 0 ts e') :
    e = e' := by
  obtain ⟨tokens, rfl⟩ : ∃ tokens : List Located, tokens.map Located.token = ts := by
    refine ⟨ts.map fun t => ⟨t, 0⟩, ?_⟩
    rw [List.map_map]
    exact List.map_id ts
  have hLimit : parse 0 (10 * tokens.length + 10) tokens ≠ .error .tooDeep :=
    parse_ne_tooDeep (Nat.le_refl _)
  have hParse := (parse_of_derives h).resolve_right hLimit
  have hParse' := (parse_of_derives h').resolve_right hLimit
  cases hParse.symm.trans hParse'
  rfl

/-- **The parser accepts exactly the grammar and builds the tree that the grammar gives**: where the
nesting limit is not hit, it answers with an expression if and only if the tokens spell this
expression, and with an error if and only if they spell none; and no tokens spell two. -/
theorem parse_exact (stop depth : Nat) (tokens : List Located) :
    (parse stop depth tokens ≠ .error .tooDeep →
      (∀ e, parse stop depth tokens = .ok e ↔ Derives 0 (tokens.map Located.token) e) ∧
      ((∃ error, parse stop depth tokens = .error error) ↔
        ¬∃ e, Derives 0 (tokens.map Located.token) e)) ∧
    ∀ (ts : List Token) (e e' : Expr), Derives 0 ts e → Derives 0 ts e' → e = e' := by
  refine ⟨fun hLimit => ?_, fun ts e e' => eq_of_derives⟩
  have hExact (e : Expr) :
      parse stop depth tokens = .ok e ↔ Derives 0 (tokens.map Located.token) e :=
    ⟨derives_of_parse, fun h => (parse_of_derives h).resolve_right hLimit⟩
  refine ⟨hExact, ?_⟩
  constructor
  · rintro ⟨error, hError⟩ ⟨e, h⟩
    cases hError.symm.trans ((hExact e).mpr h)
  · intro hNone
    cases hParse : parse stop depth tokens with
    | error error => exact ⟨error, rfl⟩
    | ok e => exact absurd ⟨e, derives_of_parse hParse⟩ hNone

/-- A product binds tighter than a sum, and a sum needs its right operand. -/
theorem parse_exact_sum :
    Derives 0 [.name ['a'], .symbol .plus, .name ['b'], .symbol .times, .name ['c']]
      (.binary .add (.variable ['a']) (.binary .mul (.variable ['b']) (.variable ['c']))) ∧
    ¬∃ e, Derives 0 [.name ['a'], .symbol .plus] e := by
  have hSum := (parse_exact 9 980 [⟨.name ['a'], 0⟩, ⟨.symbol .plus, 2⟩, ⟨.name ['b'], 4⟩,
    ⟨.symbol .times, 6⟩, ⟨.name ['c'], 8⟩]).1 (fun h => nomatch h)
  have hHalf := (parse_exact 3 980 [⟨.name ['a'], 0⟩, ⟨.symbol .plus, 2⟩]).1 (fun h => nomatch h)
  exact ⟨(hSum.1 _).mp rfl, hHalf.2.mp ⟨.unexpectedEnd, rfl⟩⟩

end Parser

end Condition

end SqlTemplate
