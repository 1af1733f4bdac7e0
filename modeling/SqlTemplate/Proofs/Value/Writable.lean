import SqlTemplate.Environment
import SqlTemplate.Proofs.Results
import SqlTemplate.Proofs.Text.Decimal

/-!
# Values that can be written

An integer of too many digits is not written, and neither is a collection that holds one, at
whatever depth (`HoldsLongInteger`). **All other values have a text, the one a message shows and the
plain one** (`exists_shown_iff`, `exists_plain_iff`), so bindings make an environment if and only if
no key holds such an integer (`Environment.exists_merged_iff`).
-/

namespace SqlTemplate

-- Powers are read the same way, whatever else is imported.
attribute [local instance(2000)] instPowNat

/-- An integer is written if it does not have too many digits. -/
theorem exists_writeInt_iff (n : Int) :
    (∃ t, Text.writeInt n = .ok t) ↔ ¬10 ^ Fault.maxDigits ≤ n.natAbs := by
  simp only [Text.writeInt_eq_ok_iff, exists_and_left, exists_eq', and_true, Nat.not_le]

namespace Value

/-- Whether a value is an integer of too many digits to be written or a collection that holds
one. -/
inductive HoldsLongInteger : Value → Prop where
  /-- The integer itself. -/
  | int {n : Int} : 10 ^ Fault.maxDigits ≤ n.natAbs → HoldsLongInteger (.number (.int n))
  /-- An item of a list. -/
  | list {v : Value} {items : List Value} :
    v ∈ items → HoldsLongInteger v → HoldsLongInteger (.list items)
  /-- An item of a tuple. -/
  | tuple {v : Value} {items : List Value} :
    v ∈ items → HoldsLongInteger v → HoldsLongInteger (.tuple items)
  /-- An item of a set. -/
  | set {v : Value} {frozen : Bool} {items : List Value} :
    v ∈ items → HoldsLongInteger v → HoldsLongInteger (.set frozen items)
  /-- A key of a dictionary. -/
  | key {entry : Value × Value} {entries : List (Value × Value)} :
    entry ∈ entries → HoldsLongInteger entry.1 → HoldsLongInteger (.dict entries)
  /-- A value of a dictionary. -/
  | value {entry : Value × Value} {entries : List (Value × Value)} :
    entry ∈ entries → HoldsLongInteger entry.2 → HoldsLongInteger (.dict entries)

theorem holdsLongInteger_int_iff (n : Int) :
    (number (.int n)).HoldsLongInteger ↔ 10 ^ Fault.maxDigits ≤ n.natAbs := by
  refine ⟨fun h => ?_, .int⟩
  cases h with
  | int h => exact h

theorem holdsLongInteger_list_iff (items : List Value) :
    (list items).HoldsLongInteger ↔ ∃ v ∈ items, v.HoldsLongInteger := by
  constructor
  · intro h
    cases h with
    | list hv h => exact ⟨_, hv, h⟩
  · rintro ⟨_, hv, h⟩
    exact .list hv h

theorem holdsLongInteger_tuple_iff (items : List Value) :
    (tuple items).HoldsLongInteger ↔ ∃ v ∈ items, v.HoldsLongInteger := by
  constructor
  · intro h
    cases h with
    | tuple hv h => exact ⟨_, hv, h⟩
  · rintro ⟨_, hv, h⟩
    exact .tuple hv h

theorem holdsLongInteger_set_iff (frozen : Bool) (items : List Value) :
    (set frozen items).HoldsLongInteger ↔ ∃ v ∈ items, v.HoldsLongInteger := by
  constructor
  · intro h
    cases h with
    | set hv h => exact ⟨_, hv, h⟩
  · rintro ⟨_, hv, h⟩
    exact .set hv h

theorem holdsLongInteger_dict_iff (entries : List (Value × Value)) :
    (dict entries).HoldsLongInteger ↔
      ∃ entry ∈ entries, entry.1.HoldsLongInteger ∨ entry.2.HoldsLongInteger := by
  constructor
  · intro h
    cases h with
    | key hEntry h => exact ⟨_, hEntry, .inl h⟩
    | value hEntry h => exact ⟨_, hEntry, .inr h⟩
  · rintro ⟨entry, hEntry, h | h⟩
    · exact .key hEntry h
    · exact .value hEntry h

/-- Only an integer can have too many digits to be written. -/
theorem exists_text_iff (n : Number) : (∃ t, n.text = .ok t) ↔ ¬(number n).HoldsLongInteger := by
  cases n with
  | int n => rw [Number.text, exists_writeInt_iff, holdsLongInteger_int_iff]
  | float x => exact iff_of_true ⟨x.text, rfl⟩ fun h => by cases h
  | decimal d => exact iff_of_true ⟨d.text, rfl⟩ fun h => by cases h

mutual

/-- **A value can be shown if and only if it holds no integer of too many digits.** -/
theorem exists_shown_iff (v : Value) : (∃ t, v.shown = .ok t) ↔ ¬v.HoldsLongInteger := by
  cases v with
  | null | bool | text | sql | bytes | date | datetime =>
    rw [shown]
    exact iff_of_true ⟨_, rfl⟩ fun h => by cases h
  | number n =>
    cases n with
    | int n => exact exists_text_iff (.int n)
    | float x => exact exists_text_iff (.float x)
    | decimal d =>
      rw [shown]
      exact iff_of_true ⟨_, rfl⟩ fun h => by cases h
  | list items =>
    rw [shown, exists_bind_pure_eq_ok_iff, exists_allShown_iff, holdsLongInteger_list_iff]
    simp only [not_exists, not_and]
  | tuple items =>
    rw [shown, exists_bind_pure_eq_ok_iff, exists_allShown_iff, holdsLongInteger_tuple_iff]
    simp only [not_exists, not_and]
  | set frozen items =>
    rw [shown, exists_bind_pure_eq_ok_iff, exists_allShown_iff, holdsLongInteger_set_iff]
    simp only [not_exists, not_and]
  | dict entries =>
    rw [shown, exists_bind_pure_eq_ok_iff, exists_entriesShown_iff, holdsLongInteger_dict_iff]
    simp only [not_exists, not_and, not_or]

theorem exists_allShown_iff (items : List Value) :
    (∃ texts, allShown items = .ok texts) ↔ ∀ v ∈ items, ¬v.HoldsLongInteger := by
  cases items with
  | nil => exact iff_of_true ⟨[], rfl⟩ (List.forall_mem_nil _)
  | cons v rest =>
    rw [allShown, exists_bind_eq_ok_iff fun _ => exists_bind_pure_eq_ok_iff _,
      exists_shown_iff v, exists_allShown_iff rest, List.forall_mem_cons]

theorem exists_entriesShown_iff (entries : List (Value × Value)) :
    (∃ texts, entriesShown entries = .ok texts) ↔
      ∀ entry ∈ entries, ¬entry.1.HoldsLongInteger ∧ ¬entry.2.HoldsLongInteger := by
  match entries with
  | [] => exact iff_of_true ⟨[], rfl⟩ (List.forall_mem_nil _)
  | (k, v) :: rest =>
    rw [entriesShown, exists_bind_eq_ok_iff fun _ => exists_bind_eq_ok_iff fun _ =>
      exists_bind_pure_eq_ok_iff _, exists_shown_iff k, exists_shown_iff v,
      exists_entriesShown_iff rest, List.forall_mem_cons, and_assoc]

end

theorem exists_shown_eq_error_iff (v : Value) :
    (∃ fault, v.shown = .error fault) ↔ v.HoldsLongInteger := by
  rw [exists_eq_error_iff, exists_shown_iff, Classical.not_not]

/-- **So can it be written in plain text.** -/
theorem exists_plain_iff (v : Value) : (∃ t, v.plain = .ok t) ↔ ¬v.HoldsLongInteger := by
  cases v with
  | null | bool | bytes | list | tuple | set | dict => exact exists_shown_iff _
  | text s | sql s | date d | datetime t => exact iff_of_true ⟨_, rfl⟩ fun h => by cases h
  | number n => exact exists_text_iff n

end Value

namespace Environment

theorem exists_namesOf_iff (bindings : Bindings) :
    (∃ names, namesOf bindings = .ok names) ↔ ∀ entry ∈ bindings, ¬entry.1.HoldsLongInteger := by
  induction bindings with
  | nil => exact iff_of_true ⟨[], rfl⟩ (List.forall_mem_nil _)
  | cons entry rest ih =>
    rw [namesOf, exists_bind_eq_ok_iff fun _ => exists_bind_pure_eq_ok_iff _,
      entry.1.exists_plain_iff, ih, List.forall_mem_cons]

/-- **Bindings can be laid over an environment if and only if no key holds an integer of too many
digits.** -/
theorem exists_merged_iff (globals : Environment) (bindings : Bindings) :
    (∃ env, globals.merged bindings = .ok env) ↔
      ∀ entry ∈ bindings, ¬entry.1.HoldsLongInteger := by
  rw [merged, exists_bind_pure_eq_ok_iff, ofBindings, exists_bind_pure_eq_ok_iff,
    exists_namesOf_iff]

end Environment

end SqlTemplate
