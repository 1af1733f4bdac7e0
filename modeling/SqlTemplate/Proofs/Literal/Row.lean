import SqlTemplate.Proofs.Literal.Shape
import SqlTemplate.Proofs.Number.OwnText

/-!
# Reading rows back

In a row between brackets only the commas that divide it stand outside quotes: a word has no comma,
and in a quoted text the reader never leaves the quotes before its end. So **a row is cut into
just the parts that it was made of** (`readRow?_row`), whatever quotes, commas and brackets their
texts hold. Nothing, truth values, integers that can be written and texts (`Value.IsOrdinary`) are
read back from their parts, and so **is a list of them from its literal** (`readRow?_inList`).
-/

namespace SqlTemplate

-- Powers are read the same way, whatever else is imported.
attribute [local instance(2000)] instPowNat

/-- Nothing, a truth value, an integer that can be written or a text that is not SQL already. -/
inductive Value.IsOrdinary : Value → Prop where
  | null : IsOrdinary .null
  | bool (b : Bool) : IsOrdinary (.bool b)
  | int {n : Int} : n.natAbs < 10 ^ Fault.maxDigits → IsOrdinary (.number (.int n))
  | text (s : Text) : IsOrdinary (.text s)

namespace Literal

/-! ### Cutting at commas -/

/-- No comma stands outside quotes if none does behind the first character and this is none. -/
theorem comma_notMem_outside_cons_iff {quoted : Bool} {c : Char} {rest : Text} :
    ',' ∉ outside quoted (c :: rest) ↔
      ¬(c = ',' ∧ quoted = false) ∧ ',' ∉ outside (if c = '\'' then !quoted else quoted) rest := by
  rw [outside]
  by_cases hQuote : c = '\''
  · subst hQuote
    simp
  · cases quoted with
    | true => simp [hQuote]
    | false => simp [hQuote, eq_comm]

/-- A text is cut at the first comma outside quotes. -/
theorem cutAtCommas_append_comma {quoted : Bool} {front : Text} (hNone : ',' ∉ outside quoted front)
    (hEnds : endsQuoted quoted front = false) (rest : Text) :
    cutAtCommas quoted (front ++ ',' :: rest) = front :: cutAtCommas false rest := by
  induction front generalizing quoted with
  | nil =>
    rw [endsQuoted_nil] at hEnds
    rw [List.nil_append, cutAtCommas, if_pos ⟨rfl, hEnds⟩]
  | cons c front ih =>
    obtain ⟨hc, hFront⟩ := comma_notMem_outside_cons_iff.mp hNone
    rw [endsQuoted_cons] at hEnds
    rw [List.cons_append, cutAtCommas, if_neg hc, ih hFront hEnds, List.modifyHead_cons]

/-- Without a comma outside quotes a text is not cut. -/
theorem cutAtCommas_of_notMem {quoted : Bool} {text : Text} (hNone : ',' ∉ outside quoted text) :
    cutAtCommas quoted text = [text] := by
  induction text generalizing quoted with
  | nil => rfl
  | cons c text ih =>
    obtain ⟨hc, hText⟩ := comma_notMem_outside_cons_iff.mp hNone
    rw [cutAtCommas, if_neg hc, ih hText, List.modifyHead_cons]

theorem Part.comma_notMem_outside (p : Part) : ',' ∉ outside false p.text := by
  rw [p.readsAs.2]
  cases p with
  | word w => exact w.notMem_text (by decide)
  | quoted s => exact List.not_mem_nil

/-- **Parts that are joined are cut apart again**, each but the first with the blank in front of
it. -/
theorem cutAtCommas_commaSeparated (first : Part) (rest : List Part) :
    cutAtCommas false (Value.commaSeparated ((first :: rest).map Part.text)) =
      first.text :: rest.map (' ' :: ·.text) := by
  induction rest generalizing first with
  | nil => exact cutAtCommas_of_notMem first.comma_notMem_outside
  | cons second rest ih =>
    have hBlank : ¬(' ' = ',' ∧ false = false) := by decide
    calc cutAtCommas false (Value.commaSeparated ((first :: second :: rest).map Part.text))
        = cutAtCommas false (first.text ++
            ',' :: ' ' :: Value.commaSeparated ((second :: rest).map Part.text)) := rfl
      _ = first.text :: (cutAtCommas false
            (Value.commaSeparated ((second :: rest).map Part.text))).modifyHead (' ' :: ·) := by
          rw [cutAtCommas_append_comma first.comma_notMem_outside first.readsAs.1, cutAtCommas,
            if_neg hBlank]
          rfl
      _ = first.text :: (second :: rest).map (' ' :: ·.text) := by
          rw [ih second]
          rfl

/-! ### The parts of a row -/

/-- No part begins with a blank. -/
theorem Part.dropWhile_blank (p : Part) : p.text.dropWhile (· = ' ') = p.text := by
  cases p with
  | quoted s => rfl
  | word w =>
    have hBlank : ' ' ∉ w.text := w.notMem_text (by decide)
    change w.text.dropWhile (· = ' ') = w.text
    cases hText : w.text with
    | nil => rfl
    | cons c rest =>
      have hc : c ≠ ' ' := by
        rintro rfl
        exact hBlank (hText ▸ List.mem_cons_self)
      rw [List.dropWhile_cons_of_neg (by simpa using hc)]

/-- What stands between the brackets is cut at its commas, and each part is read. -/
theorem readRow?_brackets (inner : Text) :
    readRow? ('(' :: inner ++ [')']) =
      (cutAtCommas false inner).mapM fun part => partValue? (part.dropWhile (· = ' ')) := by
  simp only [List.cons_append, readRow?, List.getLast?_concat, List.dropLast_concat, if_true]

/-- **A row is read part by part.** -/
theorem readRow?_row (first : Part) (rest : List Part) :
    readRow? (Shape.row first rest).text = (first :: rest).mapM (partValue? ·.text) := by
  have hDrop (p : Part) : (' ' :: p.text).dropWhile (· = ' ') = p.text := by
    rw [List.dropWhile_cons_of_pos (by decide), p.dropWhile_blank]
  calc readRow? (Shape.row first rest).text
      = (cutAtCommas false (Value.commaSeparated ((first :: rest).map Part.text))).mapM
          fun part => partValue? (part.dropWhile (· = ' ')) := readRow?_brackets _
    _ = (first :: rest).mapM (partValue? ·.text) := by
      rw [cutAtCommas_commaSeparated, List.mapM_cons, List.mapM_cons, List.mapM_map,
        first.dropWhile_blank]
      simp only [Function.comp_def, hDrop]

theorem unquote?_of_notMem {text : Text} (h : '\'' ∉ text) : unquote? text = none := by
  cases text with
  | nil => rfl
  | cons c rest =>
    have hc : c ≠ '\'' := Ne.symm (List.ne_of_not_mem_cons h)
    simp [unquote?, hc]

theorem partValue?_quote (s : Text) : partValue? (quote s) = some (.text s) := by
  rw [partValue?, unquote?_quote]

theorem partValue?_word (w : Word) : partValue? w.text = wordValue? w.text := by
  rw [partValue?, unquote?_of_notMem (w.notMem_text (by decide))]

/-- An integer is none of the words that are written in letters. -/
theorem wordValue?_int {n : Int} (h : n.natAbs < 10 ^ Fault.maxDigits) :
    wordValue? (Text.ofInt n) = some (.number (.int n)) := by
  have hAll := Text.all_ofInt n
  have hNull : Text.ofInt n ≠ null := by
    intro hText
    rw [hText] at hAll
    exact absurd hAll (by decide)
  have hBool (b : Bool) : Text.ofInt n ≠ ofBool b := by
    intro hText
    rw [hText] at hAll
    cases b <;> exact absurd hAll (by decide)
  rw [wordValue?, if_neg hNull, if_neg (hBool true), if_neg (hBool false), Number.ofText?_int h]
  rfl

/-- An ordinary value stands in a row as a part from which it is read back. -/
theorem exists_part_of_isOrdinary {v : Value} (h : v.IsOrdinary) :
    ∃ p : Part, scalar v = .ok p.text ∧ partValue? p.text = some v := by
  cases h with
  | null => exact ⟨.word .null, rfl, (partValue?_word .null).trans (by rfl)⟩
  | bool b => exact ⟨.word (.bool b), rfl, (partValue?_word (.bool b)).trans (by cases b <;> rfl)⟩
  | @int n hDigits =>
    refine ⟨.word (.int n), ?_, (partValue?_word (.int n)).trans (wordValue?_int hDigits)⟩
    rw [scalar, Text.writeInt, if_neg (Nat.not_le.mpr hDigits)]
    rfl
  | text s => exact ⟨.quoted s, rfl, partValue?_quote s⟩

theorem exists_parts_of_isOrdinary {items : List Value} (h : ∀ v ∈ items, v.IsOrdinary) :
    ∃ parts : List Part, items.mapM scalar = .ok (parts.map Part.text) ∧
      parts.mapM (partValue? ·.text) = some items := by
  induction items with
  | nil => exact ⟨[], rfl, rfl⟩
  | cons v rest ih =>
    obtain ⟨hFirst, hRest⟩ := List.forall_mem_cons.mp h
    obtain ⟨p, hText, hValue⟩ := exists_part_of_isOrdinary hFirst
    obtain ⟨parts, hTexts, hValues⟩ := ih hRest
    refine ⟨p :: parts, ?_, ?_⟩
    · rw [List.mapM_cons, hText, hTexts]
      rfl
    · rw [List.mapM_cons, hValue, hValues]
      rfl

/-- The literal of a list of ordinary values is read back. -/
theorem exists_readRow?_inList {items : List Value} (hne : items ≠ [])
    (h : ∀ v ∈ items, v.IsOrdinary) :
    ∃ row, inList (.list items) = .ok row ∧ readRow? row = some items := by
  obtain ⟨parts, hTexts, hValues⟩ := exists_parts_of_isOrdinary h
  cases parts with
  | nil =>
    cases hValues
    exact absurd rfl hne
  | cons first rest =>
    refine ⟨(Shape.row first rest).text, ?_, (readRow?_row first rest).trans hValues⟩
    rw [inList, itemsOf, hTexts]
    rfl

/-- **A list of nothing, truth values, integers and texts is read back from the right side of
`IN`**, so no two such lists have the same one, whatever their texts imitate. -/
theorem readRow?_inList {items : List Value} (hne : items ≠ []) (h : ∀ v ∈ items, v.IsOrdinary) :
    ∃ row, inList (.list items) = .ok row ∧ readRow? row = some items ∧
      ∀ others : List Value, others ≠ [] → (∀ v ∈ others, v.IsOrdinary) →
        inList (.list others) = .ok row → others = items := by
  obtain ⟨row, hRow, hItems⟩ := exists_readRow?_inList hne h
  refine ⟨row, hRow, hItems, fun others hOthersNe hOthers hSame => ?_⟩
  obtain ⟨row', hRow', hRead⟩ := exists_readRow?_inList hOthersNe hOthers
  rw [hSame] at hRow'
  cases hRow'
  rw [hItems] at hRead
  exact (Option.some.inj hRead).symm

/-- Texts that imitate a comma between two texts, a word and the end of a row. -/
def imitatingItems : List Value :=
  [.text "a', 'b".toList, .text "NULL".toList, .null, .text "x), (1".toList, .bool true,
    .number (.int (-12)), .text []]

theorem readRow?_inList_imitating :
    imitatingItems ≠ [] ∧ (∀ v ∈ imitatingItems, v.IsOrdinary) ∧
    inList (.list imitatingItems) =
      .ok "('a'', ''b', 'NULL', NULL, 'x), (1', TRUE, -12, '')".toList ∧
    readRow? "('a'', ''b', 'NULL', NULL, 'x), (1', TRUE, -12, '')".toList =
      some imitatingItems := by
  have hne : imitatingItems ≠ [] := List.cons_ne_nil _ _
  have hOrdinary : ∀ v ∈ imitatingItems, v.IsOrdinary := by
    simp only [imitatingItems, List.forall_mem_cons]
    exact ⟨.text _, .text _, .null, .text _, .bool true, .int (by decide +kernel), .text _,
      List.forall_mem_nil _⟩
  obtain ⟨row, hRow, hItems, -⟩ := readRow?_inList hne hOrdinary
  have hText : (inList (.list imitatingItems)).toOption =
      some "('a'', ''b', 'NULL', NULL, 'x), (1', TRUE, -12, '')".toList := by
    decide +kernel
  rw [hRow] at hText
  cases hText
  exact ⟨hne, hOrdinary, hRow, hItems⟩

end Literal

end SqlTemplate
