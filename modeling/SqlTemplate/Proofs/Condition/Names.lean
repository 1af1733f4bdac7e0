import SqlTemplate.Condition.Compiled
import SqlTemplate.Proofs.Condition.Lexemes

/-!
# Conditions that are a single name

An identifier, with a dollar sign in front unless it is no keyword anyway, is a condition by itself:
**it is compiled to the variable of that name** (`compile_word`) and holds if the value of the
variable counts as true (`outcome_name`), unless there is hardly any room left for calls.
-/

namespace SqlTemplate

namespace Condition

variable {dollar : Bool} {name : Text}

/-- A word with a dollar sign is a name, and so is one that is no keyword. -/
theorem Lexeme.token?_word (h : dollar = true ∨ Keyword.ofWord? name = none) (position : Nat) :
    (word dollar name).token? position = .ok (some (.name name)) := by
  rcases h with rfl | hKeyword
  · rfl
  · cases dollar <;> simp [token?, hKeyword]

theorem tokens_word (hName : Text.IsIdentifier name)
    (h : dollar = true ∨ Keyword.ofWord? name = none) :
    tokens (Lexeme.word dollar name).text = .ok [⟨.name name, 0⟩] := by
  have hFirst := Lexeme.first?_append (.word dollar hName)
    (Lexeme.endsBefore_nil (.word dollar name))
  have hRead := tokensFrom_append hFirst (Lexeme.token?_word h 0) (tokensFrom_nil _)
  rwa [List.append_nil] at hRead

variable {room : Nat}

/-- Such a word is compiled to the variable of its name, where there is room for the levels of the
parser. -/
theorem compile_word (hName : Text.IsIdentifier name)
    (h : dollar = true ∨ Keyword.ofWord? name = none) (hRoom : 13 ≤ room) :
    compile (Lexeme.word dollar name).text room =
      .ok ⟨(Lexeme.word dollar name).text, [name], .variable name⟩ := by
  obtain ⟨more, rfl⟩ := Nat.exists_eq_add_of_le' hRoom
  rw [compile, tokens_word hName h]
  rfl

/-- An identifier that is no keyword is compiled to its variable. -/
theorem compile_name (hName : Text.IsIdentifier name) (hKeyword : Keyword.ofWord? name = none)
    (hRoom : 13 ≤ room) : compile name room = .ok ⟨name, [name], .variable name⟩ :=
  compile_word hName (.inr hKeyword : false = true ∨ _) hRoom

/-- Such a condition holds if its variable counts as true; an unbound one does not. -/
theorem outcome_name (hName : Text.IsIdentifier name) (hKeyword : Keyword.ofWord? name = none)
    (hRoom : 14 ≤ room) (env : Environment) :
    outcome env name room = .ok (.evaluated ((env.lookup name).getD .null).truthy) := by
  obtain ⟨more, rfl⟩ := Nat.exists_eq_add_of_le' hRoom
  rw [outcome_of_compile (compile_name hName hKeyword (by omega))]
  rfl

end Condition

end SqlTemplate
