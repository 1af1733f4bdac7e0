import SqlTemplate.Condition.Compiled
import SqlTemplate.Proofs.Condition.Printed
import SqlTemplate.Proofs.Condition.Room
import SqlTemplate.Proofs.Results

/-!
# The variables that a condition reads

The names among the tokens of an expression are those of its variables (`names_of_derives`), so a
compiled condition lists just the variables of its tree (`names_of_compile`). **Two environments
that agree on the names of a condition give it the same value or the same error** (`reads_names`),
and so the same outcome (`outcome_congr`).
-/

namespace SqlTemplate

namespace Condition

/-- The name that a token is. -/
def Token.name? : Token → Option Text
  | .name n => some n
  | _ => none

theorem namesIn_eq (tokens : List Located) :
    namesIn tokens = (tokens.map Located.token).filterMap Token.name? := by
  rw [namesIn, List.filterMap_map]
  rfl

/-- What is written for an operation is no name. -/
theorem name?_of_symbol? {t : Token} {s : Symbol} (h : t.symbol? = some s) : t.name? = none := by
  cases t with
  | name => cases h
  | number | string | keyword | symbol => rfl

/-- The names among the tokens of an expression are those of its variables, in the same order. -/
theorem names_of_derives {level : Nat} {tokens : List Token} {e : Expr}
    (h : Derives level tokens e) : tokens.filterMap Token.name? = e.variableNames := by
  induction h with
  | looser _ _ ih => exact ih
  | conditional _ _ _ ihTest ihThen ihElse =>
    simp [List.filterMap_cons, Token.name?, Expr.variableNames, ihTest, ihThen, ihElse]
  | binary hSpelling _ _ ihLeft ihRight =>
    simp [name?_of_symbol? hSpelling, Expr.variableNames, ihLeft, ihRight]
  | unary _ ih => simp [List.filterMap_cons, Token.name?, Expr.variableNames, ih]
  | number | string | isTrue | isFalse | null | name => rfl
  | parentheses _ ih => simp [List.filterMap_cons, Token.name?, ih]

variable {source : Text} {room : Nat} {c : Compiled}

/-- What is compiled has tokens, which are parsed to its tree and among which its names stand. -/
theorem exists_tokens_of_compile (h : compile source room = .ok c) :
    ∃ located, tokens source = .ok located ∧
      Parser.parse source.length (room - 3) located = .ok c.root ∧
      c.names = Text.sorted (namesIn located) := by
  obtain ⟨located, hTokens, h⟩ := exists_of_bind_eq_ok h
  by_cases hEmpty : located.isEmpty
  · rw [if_pos hEmpty] at h
    cases h
  · rw [if_neg hEmpty] at h
    obtain ⟨root, hParse, h⟩ := exists_of_bind_eq_ok h
    cases h
    exact ⟨located, hTokens, hParse, rfl⟩

/-- A compiled condition has the names of the variables of its tree. -/
theorem names_of_compile (h : compile source room = .ok c) :
    c.names = Text.sorted c.root.variableNames := by
  obtain ⟨located, -, hParse, hNames⟩ := exists_tokens_of_compile h
  rw [hNames, namesIn_eq, names_of_derives (Parser.derives_of_parse hParse)]

/-! ### Environments that agree -/

variable {env env' : Environment}

/-- An expression has the same value in environments that agree on its variables, at any depth; to
be unbound is no other than to be nothing. -/
theorem Expr.evaluate_congr {e : Expr}
    (h : ∀ name ∈ e.variableNames,
      (env.lookup name).getD .null = (env'.lookup name).getD .null) (depth : Nat) :
    e.evaluate env depth = e.evaluate env' depth := by
  induction e generalizing depth with
  | literal l => cases depth <;> rfl
  | «variable» name =>
    cases depth with
    | zero => rfl
    | succ depth => rw [evaluate, evaluate, h name List.mem_cons_self]
  | unary op operand ih =>
    cases depth with
    | zero => rfl
    | succ depth => rw [evaluate, evaluate, ih h depth]
  | binary op left right ihLeft ihRight =>
    have hLeft := ihLeft fun name hName => h name (List.mem_append_left _ hName)
    have hRight := ihRight fun name hName => h name (List.mem_append_right _ hName)
    cases depth with
    | zero => rfl
    | succ depth => cases op <;> simp only [evaluate, hLeft depth, hRight depth]
  | conditional test thenBranch elseBranch ihTest ihThen ihElse =>
    simp only [variableNames, List.mem_append] at h
    have hTest := ihTest fun name hName => h name (.inl (.inl hName))
    have hThen := ihThen fun name hName => h name (.inl (.inr hName))
    have hElse := ihElse fun name hName => h name (.inr hName)
    cases depth with
    | zero => rfl
    | succ depth => simp only [evaluate, hTest depth, hThen depth, hElse depth]

/-- So has a compiled condition in environments that agree on its names. -/
theorem evaluate_congr_of_names (h : compile source room = .ok c)
    (hAgree : ∀ name ∈ c.names,
      (env.lookup name).getD .null = (env'.lookup name).getD .null) (room' : Nat) :
    c.evaluate env room' = c.evaluate env' room' := by
  rw [names_of_compile h] at hAgree
  exact Expr.evaluate_congr (fun name hName => hAgree name (Text.mem_sorted.mpr hName)) _

/-- **A compiled condition lists just the names at the variables of the tree that its tokens are
parsed to, and it has the same value or the same error in environments that agree on them**,
wherever it is evaluated. -/
theorem reads_names (h : compile source room = .ok c) :
    (∃ located, tokens source = .ok located ∧
      Parser.parse source.length (room - 3) located = .ok c.root) ∧
    (∀ name, name ∈ c.names ↔ name ∈ c.root.variableNames) ∧
    ∀ env env' : Environment, (∀ name ∈ c.names, env.lookup name = env'.lookup name) →
      ∀ room', c.evaluate env room' = c.evaluate env' room' := by
  obtain ⟨located, hTokens, hParse, -⟩ := exists_tokens_of_compile h
  refine ⟨⟨located, hTokens, hParse⟩, fun name => ?_, fun env env' hAgree => ?_⟩
  · rw [names_of_compile h, Text.mem_sorted]
  · exact evaluate_congr_of_names h fun name hName => by rw [hAgree name hName]

/-- A choice whose test may end before it comes to its second variable. -/
def guardedQuotient : Expr :=
  .conditional (.binary .and (.variable ['a']) (.variable ['b']))
    (.binary .div (.literal (.number (.int 1))) (.variable ['b'])) (.variable ['c'])

/-- Both environments bind `b` to a text that counts as true and is zero as a number, and leave `c`
unbound; what they bind besides is not read. -/
theorem reads_names_guardedQuotient :
    ∃ c, compile (guardedQuotient.print fun _ => .single) = .ok c ∧
      (∀ name, name ∈ c.names ↔ name = ['a'] ∨ name = ['b'] ∨ name = ['c']) ∧
      c.evaluate ⟨[(['a'], .bool true), (['b'], .text ['0'])]⟩ usualRoom =
        c.evaluate ⟨[(['d'], .null), (['b'], .text ['0']), (['a'], .bool true)]⟩ usualRoom ∧
      c.evaluate ⟨[(['a'], .bool true), (['b'], .text ['0'])]⟩ usualRoom =
        .error (.invalidOperands .div .divisionByZero) := by
  have hLeaves : guardedQuotient.HasWritableLeaves :=
    ⟨⟨⟨by decide, by decide⟩, ⟨by decide, by decide⟩⟩,
      ⟨⟨by decide, by decide +kernel⟩, ⟨by decide, by decide⟩⟩, ⟨by decide, by decide⟩⟩
  have hShort : 10 * (guardedQuotient.tokensAt 0).length + 13 ≤ usualRoom := by decide
  obtain ⟨c, hCompile, hRoot⟩ := exists_compile_print_eq_ok (fun _ => .single) hLeaves hShort
  obtain ⟨-, hNames, hAgree⟩ := reads_names hCompile
  have hMem (name : Text) : name ∈ c.names ↔ name = ['a'] ∨ name = ['b'] ∨ name = ['c'] := by
    rw [hNames, hRoot, show guardedQuotient.variableNames = [['a'], ['b'], ['b'], ['c']] from rfl]
    simp only [List.mem_cons, List.not_mem_nil, or_false, or_self_left]
  refine ⟨c, hCompile, hMem, hAgree _ _ (fun name hName => ?_) _, ?_⟩
  · obtain rfl | rfl | rfl := (hMem name).mp hName <;> rfl
  · rw [Compiled.evaluate, hRoot]
    rfl

/-- The names that a condition reads, none if it cannot be compiled where there is some room. -/
def names (source : Text) (room : Nat) : List Text :=
  match compile source room with
  | .ok c => c.names
  | .error _ => []

theorem mem_names_iff {name : Text} :
    name ∈ names source room ↔ ∃ c, compile source room = .ok c ∧ name ∈ c.names := by
  rw [names]
  cases compile source room with
  | ok c => simp
  | error e => simp

/-- With more room a condition reads no fewer names. -/
theorem names_subset {room' : Nat} (h : room ≤ room') (source : Text) :
    names source room ⊆ names source room' := by
  intro name hName
  obtain ⟨c, hCompile, hMem⟩ := mem_names_iff.mp hName
  exact mem_names_iff.mpr ⟨c, compile_eq_ok_of_le h hCompile, hMem⟩

/-- Where a condition can be compiled, it reads no fewer names than anywhere else. -/
theorem names_subset_of_isOk (h : (compile source room).isOk) (room' : Nat) :
    names source room' ⊆ names source room := by
  intro name hName
  obtain ⟨c, hCompile, hMem⟩ := mem_names_iff.mp hName
  obtain ⟨c', hCompile'⟩ := exists_eq_ok_iff_isOk.mpr h
  have hSame := compile_eq_ok_of_eq_ok hCompile (compile_ne_tooDeep hCompile')
  exact mem_names_iff.mpr ⟨c, hSame, hMem⟩

/-- An identifier that is no keyword reads itself. -/
theorem names_name {name : Text} (h : Text.IsIdentifier name)
    (hKeyword : Keyword.ofWord? name = none) (hRoom : 13 ≤ room) : names name room = [name] := by
  rw [names, compile_name h hKeyword hRoom]

/-- **A condition has the same outcome in environments that agree on its names.** -/
theorem outcome_congr (h : ∀ name ∈ names source (room - 1), env.lookup name = env'.lookup name) :
    outcome env source room = outcome env' source room := by
  cases hCompile : compile source (room - 1) with
  | error e => rw [outcome, outcome, outcomeWith, outcomeWith, hCompile]; rfl
  | ok c =>
    have hEvaluate := evaluate_congr_of_names hCompile fun name hName =>
      congrArg (Option.getD · Value.null) (h name (mem_names_iff.mpr ⟨c, hCompile, hName⟩))
    rw [outcome_of_compile hCompile, outcome_of_compile hCompile, hEvaluate]

end Condition

end SqlTemplate
