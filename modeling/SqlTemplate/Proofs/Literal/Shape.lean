import SqlTemplate.Literal.Formatter
import SqlTemplate.Proofs.Literal.Outside
import SqlTemplate.Proofs.Number.Written
import SqlTemplate.Proofs.Value.Writable

/-!
# The shape of a literal

The literal that suits a value is a word that needs no quotes, a quoted text, or a row of these in
brackets (`Shape`). A reader who enters and leaves quotes at every single quote ends outside of all
of them (`Shape.readsAs`), so no text that a value holds, at whatever depth, is read as SQL. **Every
value that is not SQL already and can be written has a literal of such a shape, and that of a text
is quoted and stands for this text** (`exists_shape_ofValue`).
-/

namespace SqlTemplate

namespace Literal

/-- What stands in a literal without quotes. -/
inductive Word where
  /-- The literal for nothing. -/
  | null
  /-- A truth value. -/
  | bool (b : Bool)
  /-- An integer. -/
  | int (n : Int)
  /-- A float. -/
  | float (x : Binary64)
  deriving DecidableEq, Repr

/-- A word as it is written. -/
def Word.text : Word → Text
  | null => Literal.null
  | bool b => ofBool b
  | int n => Text.ofInt n
  | float x => x.text

/-- A word or a quoted text. -/
inductive Part where
  | word (w : Word)
  | quoted (s : Text)
  deriving DecidableEq, Repr

namespace Part

/-- A part as it is written. -/
def text : Part → Text
  | word w => w.text
  | quoted s => quote s

/-- What a part shows outside quotes. -/
def plain : Part → Text
  | word w => w.text
  | quoted _ => []

end Part

/-- What a literal is made of. -/
inductive Shape where
  /-- A single part. -/
  | part (p : Part)
  /-- Parts between brackets. -/
  | row (first : Part) (rest : List Part)
  /-- The query without rows. -/
  | noRows
  deriving DecidableEq, Repr

namespace Shape

/-- A literal as it is written. -/
def text : Shape → Text
  | part p => p.text
  | row first rest => '(' :: Value.commaSeparated ((first :: rest).map Part.text) ++ [')']
  | noRows => "(SELECT 1 WHERE 1=0)".toList

/-- What a literal shows outside quotes. -/
def plain : Shape → Text
  | part p => p.plain
  | row first rest => '(' :: Value.commaSeparated ((first :: rest).map Part.plain) ++ [')']
  | noRows => "(SELECT 1 WHERE 1=0)".toList

end Shape

/-! ### Reading literals -/

/-- Whether a text that is read from outside quotes ends outside, with `plain` outside of them. -/
def ReadsAs (text plain : Text) : Prop :=
  endsQuoted false text = false ∧ outside false text = plain

theorem ReadsAs.append {a b p q : Text} (ha : ReadsAs a p) (hb : ReadsAs b q) :
    ReadsAs (a ++ b) (p ++ q) := by
  refine ⟨?_, ?_⟩
  · rw [endsQuoted_append, ha.1, hb.1]
  · rw [outside_append, ha.1, ha.2, hb.2]

theorem readsAs_of_notMem {text : Text} (h : '\'' ∉ text) : ReadsAs text text := by
  refine ⟨endsQuoted_of_notMem h false, ?_⟩
  induction text with
  | nil => rfl
  | cons c rest ih =>
    rw [List.mem_cons, not_or] at h
    obtain ⟨hne, hRest⟩ := h
    rw [outside, if_neg (Ne.symm hne), if_neg Bool.false_ne_true, ih hRest]

theorem endsQuoted_doubleQuotes (quoted : Bool) (s : Text) :
    endsQuoted quoted (doubleQuotes s) = quoted := by
  induction s with
  | nil => exact endsQuoted_nil quoted
  | cons c s ih =>
    rw [doubleQuotes]
    split
    · rw [endsQuoted_cons, if_pos rfl, endsQuoted_cons, if_pos rfl, Bool.not_not, ih]
    next hc => rw [endsQuoted_cons, if_neg hc, ih]

theorem readsAs_quote (s : Text) : ReadsAs (quote s) [] := by
  refine ⟨?_, ?_⟩
  · rw [quote, List.cons_append, endsQuoted_cons, if_pos rfl, endsQuoted_append,
      endsQuoted_doubleQuotes]
    rfl
  · have hOutside := outside_quote_append s []
    rwa [List.append_nil] at hOutside

/-- **A quoted text stands for the text that was quoted.** -/
theorem unquote?_quote (s : Text) : unquote? (quote s) = some s := by
  have key (s : Text) : unquoteBody? (doubleQuotes s ++ ['\'']) = some s := by
    induction s with
    | nil => rfl
    | cons c s ih =>
      rw [doubleQuotes]
      split
      next hc =>
        rw [List.cons_append, List.cons_append, unquoteBody?, ih, hc]
        rfl
      next hc =>
        rw [List.cons_append, unquoteBody?, if_neg hc, ih]
        · rfl
        · rintro rfl
          exact absurd rfl hc
        · rintro rest rfl
          exact absurd rfl hc
  exact key s

/-- A word is written without the characters that divide a row: quotes, commas and blanks. -/
theorem Word.notMem_text {c : Char} (hc : c ∈ ['\'', ',', ' ']) (w : Word) : c ∉ w.text := by
  have hApart : Text.isNumeralChar c = false ∧ c ∉ Literal.null ∧ ∀ b, c ∉ ofBool b := by
    simp only [List.mem_cons, List.not_mem_nil, or_false] at hc
    obtain rfl | rfl | rfl := hc <;> decide
  obtain ⟨hNumeral, hNull, hBool⟩ := hApart
  cases w with
  | null => exact hNull
  | bool b => exact hBool b
  | int n => exact Text.notMem_of_all (Text.all_ofInt n) hNumeral
  | float x => exact Text.notMem_of_all (Binary64.all_text x) hNumeral

theorem Word.readsAs (w : Word) : ReadsAs w.text w.text :=
  readsAs_of_notMem (w.notMem_text (by decide))

theorem Part.readsAs (p : Part) : ReadsAs p.text p.plain := by
  cases p with
  | word w => exact w.readsAs
  | quoted s => exact readsAs_quote s

theorem readsAs_commaSeparated (parts : List Part) :
    ReadsAs (Value.commaSeparated (parts.map Part.text))
      (Value.commaSeparated (parts.map Part.plain)) := by
  induction parts with
  | nil => exact ⟨rfl, rfl⟩
  | cons p rest ih =>
    cases rest with
    | nil => exact p.readsAs
    | cons q rest =>
      have hComma : ReadsAs [',', ' '] [',', ' '] := readsAs_of_notMem (by decide)
      exact p.readsAs.append (hComma.append ih)

/-- **Reading a literal ends outside quotes**, where only words, brackets and commas stand, or the
query without rows. -/
theorem Shape.readsAs (shape : Shape) : ReadsAs shape.text shape.plain := by
  cases shape with
  | part p => exact p.readsAs
  | row first rest =>
    have hOpen : ReadsAs ['('] ['('] := readsAs_of_notMem (by decide)
    have hClose : ReadsAs [')'] [')'] := readsAs_of_notMem (by decide)
    exact (hOpen.append (readsAs_commaSeparated (first :: rest))).append hClose
  | noRows => exact readsAs_of_notMem (by decide)

/-! ### The literals of values -/

/-- What is no collection is a word or quoted, and so is the plain text of a collection. -/
theorem exists_part_scalar {v : Value} (h : ¬v.HoldsLongInteger) :
    ∃ p : Part, scalar v = .ok p.text := by
  have hQuoted (hScalar : scalar v = v.plain.map quote) : ∃ p : Part, scalar v = .ok p.text := by
    obtain ⟨s, hs⟩ := v.exists_plain_iff.mpr h
    exact ⟨.quoted s, by rw [hScalar, hs]; rfl⟩
  cases v with
  | null => exact ⟨.word .null, rfl⟩
  | bool b => exact ⟨.word (.bool b), rfl⟩
  | number n =>
    cases n with
    | int n =>
      rw [Value.holdsLongInteger_int_iff] at h
      exact ⟨.word (.int n), by rw [scalar, Text.writeInt, if_neg h]; rfl⟩
    | float x => exact ⟨.word (.float x), rfl⟩
    | decimal d => exact hQuoted rfl
  | text | sql | bytes | date | datetime | list | tuple | set | dict => exact hQuoted rfl

theorem exists_parts_mapM {items : List Value} (h : ∀ v ∈ items, ¬v.HoldsLongInteger) :
    ∃ parts : List Part, items.mapM scalar = .ok (parts.map Part.text) := by
  induction items with
  | nil => exact ⟨[], rfl⟩
  | cons v rest ih =>
    obtain ⟨hFirst, hRest⟩ := List.forall_mem_cons.mp h
    obtain ⟨p, hp⟩ := exists_part_scalar hFirst
    obtain ⟨parts, hParts⟩ := ih hRest
    exact ⟨p :: parts, by rw [List.mapM_cons, hp, hParts]; rfl⟩

theorem not_holdsLongInteger_of_mem_itemsOf {v item : Value} (h : ¬v.HoldsLongInteger)
    (hItem : item ∈ itemsOf v) : ¬item.HoldsLongInteger := by
  intro hLong
  cases v with
  | null => cases hItem
  | list items => exact h (.list hItem hLong)
  | tuple items => exact h (.tuple hItem hLong)
  | set frozen items => exact h (.set hItem hLong)
  | dict entries =>
    obtain ⟨entry, hEntry, rfl⟩ := List.mem_map.mp hItem
    exact h (.key hEntry hLong)
  | _ =>
    rw [List.mem_singleton.mp hItem] at hLong
    exact h hLong

/-- The right side of `IN` is a row of parts, or the query without rows. -/
theorem exists_shape_inList {v : Value} (h : ¬v.HoldsLongInteger) :
    ∃ shape : Shape, inList v = .ok shape.text := by
  obtain ⟨parts, hParts⟩ := exists_parts_mapM fun _ => not_holdsLongInteger_of_mem_itemsOf h
  have hList : inList v = .ok (if (parts.map Part.text).isEmpty then "(SELECT 1 WHERE 1=0)".toList
      else '(' :: Value.commaSeparated (parts.map Part.text) ++ [')']) := by
    rw [inList, hParts]
    rfl
  cases parts with
  | nil => exact ⟨.noRows, hList⟩
  | cons first rest => exact ⟨.row first rest, hList⟩

/-- A dictionary is quoted, or has no JSON text. -/
theorem exists_part_json (entries : List (Value × Value)) :
    ∃ p : Part, json (.dict entries) = p.text := by
  have hJson : json (.dict entries) = ((Json.text? (.dict entries)).map quote).getD null := rfl
  rw [hJson]
  cases Json.text? (.dict entries) with
  | none => exact ⟨.word .null, rfl⟩
  | some s => exact ⟨.quoted s, rfl⟩

/-- Marking a literal as SQL or as a text does not change it. -/
theorem exists_shape_map {literal : Except Fault Text} {mark : Text → Value}
    (h : ∃ shape : Shape, literal = .ok shape.text) (hMark : ∀ t, (mark t).text? = some t) :
    ∃ (shape : Shape) (w : Value), literal.map mark = .ok w ∧ w.text? = some shape.text := by
  obtain ⟨shape, rfl⟩ := h
  exact ⟨shape, mark shape.text, rfl, hMark _⟩

/-- The literal that suits a value has a shape. -/
theorem exists_shape_text?_ofValue {v : Value} (hWritable : ¬v.HoldsLongInteger)
    (hSql : ∀ s, v ≠ .sql s) :
    ∃ (shape : Shape) (w : Value), ofValue v = .ok w ∧ w.text? = some shape.text := by
  have hScalar : ∃ shape : Shape, scalar v = .ok shape.text := by
    obtain ⟨p, hp⟩ := exists_part_scalar hWritable
    exact ⟨.part p, hp⟩
  cases v with
  | null | bool | text | bytes => exact exists_shape_map hScalar fun _ => rfl
  | number n =>
    cases n with
    | decimal => exact exists_shape_map hScalar fun _ => rfl
    | int | float =>
      rw [ofValue]
      · exact exists_shape_map hScalar fun _ => rfl
      all_goals nofun
  | sql s => exact absurd rfl (hSql s)
  | date d => exact ⟨.part (.quoted d.iso), _, rfl, rfl⟩
  | datetime t => exact ⟨.part (.quoted (t.iso 'T')), _, rfl, rfl⟩
  | list | tuple | set => exact exists_shape_map (exists_shape_inList hWritable) fun _ => rfl
  | dict entries =>
    obtain ⟨p, hp⟩ := exists_part_json entries
    exact ⟨.part p, .sql (json (.dict entries)), rfl, by rw [hp]; rfl⟩

/-- **The literal of a value that can be written and is not SQL already has all its quotes closed,
and only words, brackets and commas stand outside of them**, or the query without rows. The literal
of a text is one quoted text, which stands for it. -/
theorem exists_shape_ofValue {v : Value} (hWritable : ¬v.HoldsLongInteger)
    (hSql : ∀ s, v ≠ .sql s) :
    ∃ (shape : Shape) (w : Value), ofValue v = .ok w ∧ w.text? = some shape.text ∧
      endsQuoted false shape.text = false ∧ outside false shape.text = shape.plain ∧
      ∀ s, v = .text s → shape = .part (.quoted s) ∧ unquote? shape.text = some s := by
  by_cases hText : ∃ s, v = .text s
  · obtain ⟨s, rfl⟩ := hText
    obtain ⟨hEnds, hOutside⟩ := readsAs_quote s
    refine ⟨.part (.quoted s), .sql (quote s), rfl, rfl, hEnds, hOutside, fun t ht => ?_⟩
    cases ht
    exact ⟨rfl, unquote?_quote s⟩
  · obtain ⟨shape, w, hw, hShape⟩ := exists_shape_text?_ofValue hWritable hSql
    obtain ⟨hEnds, hOutside⟩ := shape.readsAs
    exact ⟨shape, w, hw, hShape, hEnds, hOutside, fun s hs => absurd ⟨s, hs⟩ hText⟩

/-- Values of all sorts side by side, with quotes in texts that are SQL or inside another
collection. -/
def mixedRow : Value :=
  .tuple [.text "it's".toList, .sql "x' OR '1".toList, .list [.text "a'b".toList, .int 7], .null,
    .bool true, .int (-12), .number (.float .zero)]

/-- Only the words of the row stand outside quotes, and a text with a quote in it is read back. -/
theorem exists_shape_ofValue_mixedRow :
    (∃ (shape : Shape) (w : Value), ofValue mixedRow = .ok w ∧ w.text? = some shape.text ∧
      endsQuoted false shape.text = false ∧ outside false shape.text = shape.plain) ∧
    (ofValue mixedRow).toOption.bind Value.text? =
      some "('it''s', 'x'' OR ''1', '[\"a''b\", 7]', NULL, TRUE, -12, 0.0)".toList ∧
    outside false "('it''s', 'x'' OR ''1', '[\"a''b\", 7]', NULL, TRUE, -12, 0.0)".toList =
      "(, , , NULL, TRUE, -12, 0.0)".toList ∧
    ∃ (shape : Shape) (w : Value), ofValue (.text "it's".toList) = .ok w ∧
      w.text? = some shape.text ∧ unquote? shape.text = some "it's".toList := by
  have hWritable : ¬mixedRow.HoldsLongInteger := by
    rw [← Value.exists_shown_iff, exists_eq_ok_iff_isOk]
    decide +kernel
  obtain ⟨shape, w, hw, hShape, hEnds, hOutside, -⟩ :=
    exists_shape_ofValue hWritable (by simp [mixedRow])
  refine ⟨⟨shape, w, hw, hShape, hEnds, hOutside⟩, by decide +kernel, by decide +kernel, ?_⟩
  have hText : ¬(Value.text "it's".toList).HoldsLongInteger := fun h => by cases h
  obtain ⟨shape, w, hw, hShape, -, -, hQuoted⟩ := exists_shape_ofValue hText (by simp)
  exact ⟨shape, w, hw, hShape, (hQuoted _ rfl).2⟩

end Literal

end SqlTemplate
