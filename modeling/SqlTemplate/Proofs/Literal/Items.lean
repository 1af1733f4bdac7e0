import Mathlib.Data.List.Forall2
import SqlTemplate.Proofs.Literal.Row

/-!
# Values alone and in a row

A row takes each of its items as a value of no particular kind. Two kinds of values it does not
write as they are written alone: what is SQL already is quoted like any other text, and a time has
a blank between date and time of day where it has a `T` alone (`Value.asItem`). Neither becomes
shorter by that, and so nothing can make up for it: **a row consists of what its items are alone if
and only if no item is of these kinds** (`exists_row`). In a row that holds ready SQL beside
ordinary values it is the ready SQL that counts (`row_verbatim_iff`), in one of scalars that are no
SQL the times (`row_uniform_iff`).
-/

namespace SqlTemplate

-- Powers are read the same way, whatever else is imported.
attribute [local instance(2000)] instPowNat

namespace Value

/-- Whether a value is no collection. -/
def IsScalar : Value → Prop
  | list _ | tuple _ | set _ _ | dict _ => False
  | _ => True

/-- What a value counts as in a row: ready SQL as a text, a time as the text of its plain form. -/
def asItem : Value → Value
  | sql s => text s
  | datetime t => text (t.iso ' ')
  | v => v

theorem asItem_eq_self_iff {v : Value} :
    v.asItem = v ↔ (∀ s, v ≠ .sql s) ∧ ∀ t, v ≠ .datetime t := by
  cases v <;> simp [asItem]

/-- All items count as themselves if none is ready SQL and none a time. -/
theorem forall_asItem_eq_self_iff {items : List Value} :
    (∀ v ∈ items, v.asItem = v) ↔ (∀ s, .sql s ∉ items) ∧ ∀ t, .datetime t ∉ items := by
  simp only [asItem_eq_self_iff]
  constructor
  · intro h
    exact ⟨fun s hs => (h _ hs).1 s rfl, fun t ht => (h _ ht).2 t rfl⟩
  · rintro ⟨hSql, hTime⟩ v hv
    refine ⟨?_, ?_⟩
    · rintro s rfl
      exact hSql s hv
    · rintro t rfl
      exact hTime t hv

theorem IsOrdinary.isScalar {v : Value} (h : v.IsOrdinary) : v.IsScalar := by
  cases h <;> trivial

theorem IsOrdinary.not_holdsLongInteger {v : Value} (h : v.IsOrdinary) : ¬v.HoldsLongInteger := by
  intro hLong
  cases h with
  | int hDigits => exact Nat.not_le.mpr hDigits ((holdsLongInteger_int_iff _).mp hLong)
  | null | bool | text => cases hLong

theorem IsOrdinary.ne_datetime {v : Value} (h : v.IsOrdinary) (t : DateTime) : v ≠ .datetime t := by
  rintro rfl
  cases h

end Value

namespace Literal

/-- The text of the literal that suits a value. -/
def textOf (v : Value) : Except Fault Text := do (← ofValue v).plain

/-- Values between brackets, each as it is written alone. -/
def rowOf (items : List Value) : Except Fault Text := do
  return '(' :: Value.commaSeparated (← items.mapM textOf) ++ [')']

/-- What is SQL already is its own literal. -/
theorem textOf_sql (s : Text) : textOf (.sql s) = .ok s := rfl

/-! ### Rows of equal texts -/

theorem length_commaSeparated_le {long short : List Text}
    (h : List.Forall₂ (fun a b => b.length ≤ a.length) long short) :
    (Value.commaSeparated short).length ≤ (Value.commaSeparated long).length := by
  induction h with
  | nil => exact Nat.le_refl _
  | cons hLength hRest ih =>
    cases hRest with
    | nil => exact hLength
    | cons =>
      simp only [Value.commaSeparated, List.length_append, List.length_cons]
      omega

/-- Texts that are joined give the same as others, none of which is longer, only if they are the
same. -/
theorem commaSeparated_eq_iff {long short : List Text}
    (h : List.Forall₂ (fun a b => b.length ≤ a.length) long short) :
    Value.commaSeparated long = Value.commaSeparated short ↔ long = short := by
  refine ⟨fun hEq => ?_, congrArg _⟩
  induction h with
  | nil => rfl
  | cons hLength hRest ih =>
    cases hRest with
    | nil => exact congrArg (List.cons · []) hEq
    | @cons a b as bs hNext hTail =>
      have hTails := length_commaSeparated_le (.cons hNext hTail)
      have hLengths := congrArg List.length hEq
      simp only [Value.commaSeparated, List.length_append, List.length_cons] at hLengths
      obtain ⟨hHead, hRest⟩ := List.append_inj hEq (by omega)
      rw [hHead, ih (List.cons.inj (List.cons.inj hRest).2).2]

/-! ### The length of literals -/

theorem length_le_doubleQuotes (s : Text) : s.length ≤ (doubleQuotes s).length := by
  induction s with
  | nil => exact Nat.le_refl _
  | cons c s ih =>
    rw [doubleQuotes]
    split <;> simp only [List.length_cons] <;> omega

/-- A text becomes longer by being quoted. -/
theorem length_lt_quote (s : Text) : s.length < (quote s).length := by
  have hDoubled := length_le_doubleQuotes s
  simp only [quote, List.cons_append, List.length_cons, List.length_append, List.length_nil]
  omega

theorem quote_ne_self (s : Text) : quote s ≠ s := by
  intro h
  have hLength := length_lt_quote s
  rw [h] at hLength
  exact Nat.lt_irrefl _ hLength

theorem doubleQuotes_append (a b : Text) :
    doubleQuotes (a ++ b) = doubleQuotes a ++ doubleQuotes b := by
  induction a with
  | nil => rfl
  | cons c a ih =>
    rw [List.cons_append, doubleQuotes, doubleQuotes, ih]
    split <;> rfl

/-- The two forms of a time are of the same length, but not equal. -/
theorem quote_iso (t : DateTime) :
    (quote (t.iso 'T')).length = (quote (t.iso ' ')).length ∧
      quote (t.iso ' ') ≠ quote (t.iso 'T') := by
  obtain ⟨clock, hIso⟩ : ∃ clock : Text, ∀ separator,
      t.iso separator = t.date.iso ++ separator :: clock := by
    simp only [DateTime.iso, List.append_assoc, List.cons_append, List.append_cancel_left_eq,
      List.cons.injEq, true_and]
    exact ⟨_, fun _ => rfl⟩
  have hQuote (separator : Char) (hSeparator : separator ≠ '\'') :
      quote (t.iso separator) =
        '\'' :: (doubleQuotes t.date.iso ++ separator :: doubleQuotes clock) ++ ['\''] := by
    rw [quote, hIso, doubleQuotes_append, doubleQuotes, if_neg hSeparator]
  rw [hQuote 'T' (by decide), hQuote ' ' (by decide)]
  constructor
  · simp only [List.length_cons, List.length_append]
  · simp

/-! ### Items -/

/-- In a row a value is written as what it counts as there would be alone. -/
theorem textOf_asItem {v : Value} (h : v.IsScalar) : textOf v.asItem = scalar v := by
  cases v with
  | null | bool | text | sql | bytes | date | datetime => rfl
  | number n =>
    cases n with
    | float | decimal => rfl
    | int n =>
      change ((Text.writeInt n).map Value.text >>= Value.plain) = Text.writeInt n
      cases Text.writeInt n <;> rfl
  | list | tuple | set | dict => cases h

/-- What an item is in a row and what it is alone: in the row it is no shorter, and the same only if
it counts as itself. -/
theorem exists_texts {v : Value} (hScalar : v.IsScalar) (hWritable : ¬v.HoldsLongInteger) :
    ∃ inRow alone, scalar v = .ok inRow ∧ textOf v = .ok alone ∧ alone.length ≤ inRow.length ∧
      (inRow = alone ↔ v.asItem = v) := by
  by_cases hSelf : v.asItem = v
  · obtain ⟨p, hp⟩ := exists_part_scalar hWritable
    have hAlone := textOf_asItem hScalar
    rw [hSelf, hp] at hAlone
    exact ⟨p.text, p.text, hp, hAlone, Nat.le_refl _, iff_of_true rfl hSelf⟩
  · cases v with
    | sql s =>
      exact ⟨quote s, s, rfl, textOf_sql s, Nat.le_of_lt (length_lt_quote s),
        iff_of_false (quote_ne_self s) hSelf⟩
    | datetime t =>
      obtain ⟨hLength, hDiffer⟩ := quote_iso t
      exact ⟨quote (t.iso ' '), quote (t.iso 'T'), rfl, rfl, Nat.le_of_eq hLength,
        iff_of_false hDiffer hSelf⟩
    | _ => exact absurd rfl hSelf

variable {items : List Value}

theorem exists_texts_mapM (h : ∀ v ∈ items, v.IsScalar ∧ ¬v.HoldsLongInteger) :
    ∃ inRow alone, items.mapM scalar = .ok inRow ∧ items.mapM textOf = .ok alone ∧
      List.Forall₂ (fun a b => b.length ≤ a.length) inRow alone ∧
      (inRow = alone ↔ ∀ v ∈ items, v.asItem = v) := by
  induction items with
  | nil => exact ⟨[], [], rfl, rfl, .nil, iff_of_true rfl (List.forall_mem_nil _)⟩
  | cons v rest ih =>
    obtain ⟨⟨hScalar, hWritable⟩, hRest⟩ := List.forall_mem_cons.mp h
    obtain ⟨a, b, ha, hb, hLength, hEq⟩ := exists_texts hScalar hWritable
    obtain ⟨as, bs, has, hbs, hLengths, hEqs⟩ := ih hRest
    refine ⟨a :: as, b :: bs, ?_, ?_, .cons hLength hLengths, ?_⟩
    · rw [List.mapM_cons, ha, has]
      rfl
    · rw [List.mapM_cons, hb, hbs]
      rfl
    · rw [List.cons.injEq, hEq, hEqs, List.forall_mem_cons]

/-- **A row of scalars that can be written consists of what they count as in it**, and of what they
are alone if and only if each of them counts as itself. -/
theorem exists_row (hne : items ≠ []) (h : ∀ v ∈ items, v.IsScalar ∧ ¬v.HoldsLongInteger) :
    ∃ row alone, ofValue (.list items) = .ok (.sql row) ∧ ofValue (.tuple items) = .ok (.sql row) ∧
      rowOf (items.map Value.asItem) = .ok row ∧ rowOf items = .ok alone ∧
      (row = alone ↔ ∀ v ∈ items, v.asItem = v) := by
  obtain ⟨inRow, alone, hInRow, hAlone, hLengths, hEq⟩ := exists_texts_mapM h
  have hItems : (items.map Value.asItem).mapM textOf = .ok inRow := by
    rw [List.mapM_map, ← hInRow]
    exact mapM_congr fun v hv => textOf_asItem (h v hv).1
  have hEmpty : inRow.isEmpty = false := by
    rw [List.isEmpty_eq_false_iff, ← List.length_pos_iff, length_of_mapM_eq_ok hInRow,
      List.length_pos_iff]
    exact hne
  have hInList : inList (.list items) =
      .ok ('(' :: Value.commaSeparated inRow ++ [')']) := by
    rw [inList, itemsOf, hInRow]
    change Except.ok (if inRow.isEmpty then _ else _) = _
    rw [hEmpty]
    rfl
  have hRowOf {values : List Value} {texts : List Text} (hTexts : values.mapM textOf = .ok texts) :
      rowOf values = .ok ('(' :: Value.commaSeparated texts ++ [')']) := by
    rw [rowOf, hTexts]
    rfl
  refine ⟨_, _, ?_, ?_, hRowOf hItems, hRowOf hAlone, ?_⟩
  · rw [ofValue, hInList]
    rfl
  · rw [ofValue, show inList (.tuple items) = inList (.list items) from rfl, hInList]
    rfl
  · rw [← hEq, ← commaSeparated_eq_iff hLengths]
    simp

/-! ### Ready SQL and times -/

/-- **A row of ready SQL and ordinary values is made of what is SQL already as it is, and of the
literals of the others, if and only if nothing in it is SQL already**: ready SQL is quoted there as
a text is. -/
theorem row_verbatim_iff (hne : items ≠ [])
    (h : ∀ v ∈ items, (∃ s, v = .sql s) ∨ v.IsOrdinary) :
    ∃ row verbatim, ofValue (.list items) = .ok (.sql row) ∧
      ofValue (.tuple items) = .ok (.sql row) ∧ rowOf (items.map Value.asItem) = .ok row ∧
      rowOf items = .ok verbatim ∧ (row = verbatim ↔ ∀ s, .sql s ∉ items) := by
  have hScalars : ∀ v ∈ items, v.IsScalar ∧ ¬v.HoldsLongInteger := by
    intro v hv
    obtain ⟨s, rfl⟩ | hOrdinary := h v hv
    · exact ⟨trivial, nofun⟩
    · exact ⟨hOrdinary.isScalar, hOrdinary.not_holdsLongInteger⟩
  have hTimes : ∀ t, .datetime t ∉ items := by
    intro t ht
    obtain ⟨s, hs⟩ | hOrdinary := h _ ht
    · cases hs
    · exact hOrdinary.ne_datetime t rfl
  obtain ⟨row, verbatim, hList, hTuple, hRow, hVerbatim, hEq⟩ := exists_row hne hScalars
  refine ⟨row, verbatim, hList, hTuple, hRow, hVerbatim, ?_⟩
  rw [hEq, Value.forall_asItem_eq_self_iff, and_iff_left hTimes]

/-- A function call of SQL between an integer and a text. -/
def callingItems : List Value := [.number (.int 1), .sql "now()".toList, .text "it's".toList]

/-- In the row the call is a text. -/
theorem row_verbatim_iff_calling :
    ∃ row verbatim, ofValue (.list callingItems) = .ok (.sql row) ∧
      rowOf callingItems = .ok verbatim ∧ row ≠ verbatim ∧
      row = "(1, 'now()', 'it''s')".toList ∧ verbatim = "(1, now(), 'it''s')".toList := by
  have hne : callingItems ≠ [] := List.cons_ne_nil _ _
  have hItems : ∀ v ∈ callingItems, (∃ s, v = .sql s) ∨ v.IsOrdinary := by
    simp only [callingItems, List.forall_mem_cons]
    exact ⟨.inr (.int (by decide +kernel)), .inl ⟨_, rfl⟩, .inr (.text _), List.forall_mem_nil _⟩
  obtain ⟨row, verbatim, hList, -, -, hVerbatim, hEq⟩ := row_verbatim_iff hne hItems
  have hRowText : (textOf (.list callingItems)).toOption = some "(1, 'now()', 'it''s')".toList := by
    decide +kernel
  have hVerbatimText : (rowOf callingItems).toOption = some "(1, now(), 'it''s')".toList := by
    decide +kernel
  rw [textOf, hList] at hRowText
  rw [hVerbatim] at hVerbatimText
  cases hRowText
  cases hVerbatimText
  have hCall : Value.sql "now()".toList ∈ callingItems := List.mem_cons_of_mem _ List.mem_cons_self
  exact ⟨_, _, hList, hVerbatim, fun hSame => hEq.mp hSame _ hCall, rfl, rfl⟩

/-- Ready SQL does not always stay as it is in a row. -/
theorem not_row_verbatim_always :
    ¬∀ items : List Value, items ≠ [] → (∀ v ∈ items, (∃ s, v = .sql s) ∨ v.IsOrdinary) →
      textOf (.list items) = rowOf items := by
  intro h
  have hRow := h [.sql "now()".toList] (List.cons_ne_nil _ _)
    fun v hv => .inl ⟨_, List.mem_singleton.mp hv⟩
  exact absurd (congrArg Except.toOption hRow) (by decide +kernel)

/-- **A row of scalars that are no SQL is made of their literals if and only if none of them is a
time**: a time is written there with a blank between date and time of day. -/
theorem row_uniform_iff (hne : items ≠ []) (h : ∀ v ∈ items, v.IsScalar ∧ ¬v.HoldsLongInteger)
    (hSql : ∀ s, .sql s ∉ items) :
    ∃ row alone, ofValue (.list items) = .ok (.sql row) ∧ ofValue (.tuple items) = .ok (.sql row) ∧
      rowOf (items.map Value.asItem) = .ok row ∧ rowOf items = .ok alone ∧
      (row = alone ↔ ∀ t, .datetime t ∉ items) := by
  obtain ⟨row, alone, hList, hTuple, hRow, hAlone, hEq⟩ := exists_row hne h
  refine ⟨row, alone, hList, hTuple, hRow, hAlone, ?_⟩
  rw [hEq, Value.forall_asItem_eq_self_iff, and_iff_right hSql]

/-- Eight o'clock on the first of June. -/
def morning : DateTime := ⟨⟨2025, 6, 1⟩, 8, 0, 0, 0, none⟩

/-- The date of the morning, a decimal and a byte that is a quote. -/
def untimedItems : List Value :=
  [.date morning.date, .number (.decimal (.finite false 25 (-2))), .bytes [0x27]]

/-- Without the time the row is made of the literals of its items, with it no longer. -/
theorem row_uniform_iff_morning :
    (∃ row, ofValue (.tuple untimedItems) = .ok (.sql row) ∧ rowOf untimedItems = .ok row) ∧
    ∃ row alone, ofValue (.list (.datetime morning :: untimedItems)) = .ok (.sql row) ∧
      rowOf (.datetime morning :: untimedItems) = .ok alone ∧ row ≠ alone := by
  have hne : untimedItems ≠ [] := List.cons_ne_nil _ _
  have hScalars : ∀ v ∈ untimedItems, v.IsScalar ∧ ¬v.HoldsLongInteger := by
    simp only [untimedItems, List.forall_mem_cons]
    exact ⟨⟨trivial, nofun⟩, ⟨trivial, nofun⟩, ⟨trivial, nofun⟩, List.forall_mem_nil _⟩
  have hSql : ∀ s, .sql s ∉ untimedItems := by simp [untimedItems]
  constructor
  · obtain ⟨row, alone, -, hTuple, -, hAlone, hEq⟩ := row_uniform_iff hne hScalars hSql
    obtain rfl := hEq.mpr (by simp [untimedItems])
    exact ⟨row, hTuple, hAlone⟩
  · have hAll : ∀ v ∈ .datetime morning :: untimedItems, v.IsScalar ∧ ¬v.HoldsLongInteger :=
      List.forall_mem_cons.mpr ⟨⟨trivial, nofun⟩, hScalars⟩
    have hNoSql : ∀ s, .sql s ∉ .datetime morning :: untimedItems := by simp [untimedItems]
    obtain ⟨row, alone, hList, -, -, hAlone, hEq⟩ :=
      row_uniform_iff (List.cons_ne_nil _ _) hAll hNoSql
    exact ⟨row, alone, hList, hAlone, fun hSame => hEq.mp hSame morning List.mem_cons_self⟩

/-- A row is not always made of the literals of its items. -/
theorem not_row_uniform_always :
    ¬∀ items : List Value, items ≠ [] → (∀ v ∈ items, v.IsScalar ∧ ¬v.HoldsLongInteger) →
      (∀ s, .sql s ∉ items) → textOf (.list items) = rowOf items := by
  intro h
  have hScalar : ∀ v ∈ [Value.datetime morning], v.IsScalar ∧ ¬v.HoldsLongInteger := by
    intro v hv
    rw [List.mem_singleton.mp hv]
    exact ⟨trivial, nofun⟩
  have hRow := h [.datetime morning] (List.cons_ne_nil _ _) hScalar (by simp)
  exact absurd (congrArg Except.toOption hRow) (by decide +kernel)

end Literal

end SqlTemplate
