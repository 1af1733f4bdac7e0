import SqlTemplate.Number.Numeral
import SqlTemplate.Proofs.Text.Decimal
import SqlTemplate.Proofs.Text.Runs

/-!
# The grammar of numerals

A numeral is a sign, digits around a point, at least one of them, and an exponent
(`Numeral.Spells`), and **a text is read as a numeral just if it is one**
(`Numeral.ofText?_eq_some_iff`). A lenient reading also takes margins around the numeral and single
underscores between its digits: **what is left without them is what it reads**
(`Numeral.dropUnderscores?_eq_some_iff`, `Numeral.exists_stripMargins`,
`Numeral.stripMargins_append`).
-/

namespace SqlTemplate

namespace Numeral

/-! ### Signs, digits and points -/

/-- The signs, each with whether it is a minus. -/
inductive SpellsSign : Text → Bool → Prop where
  /-- No sign. -/
  | none : SpellsSign [] false
  /-- A plus. -/
  | plus : SpellsSign ['+'] false
  /-- A minus. -/
  | minus : SpellsSign ['-'] true

/-- The point of a numeral and the digits behind it. -/
def pointText : Option Text → Text
  | none => []
  | some digits => '.' :: digits

variable {text sign run rest tail : Text} {negative : Bool} {fraction? : Option Text}
  {exponent? : Option Int}

theorem spellsSign_readSign (text : Text) :
    ∃ sign, text = sign ++ (readSign text).2 ∧ SpellsSign sign (readSign text).1 := by
  unfold readSign
  split
  · exact ⟨['-'], rfl, .minus⟩
  · exact ⟨['+'], rfl, .plus⟩
  · exact ⟨[], rfl, .none⟩

theorem SpellsSign.readSign_append (h : SpellsSign sign negative)
    (hRest : ∀ c ∈ rest.head?, c ≠ '+' ∧ c ≠ '-') : readSign (sign ++ rest) = (negative, rest) := by
  cases h with
  | plus | minus => rfl
  | none =>
    cases rest with
    | nil => rfl
    | cons c rest =>
      obtain ⟨hPlus, hMinus⟩ := hRest c rfl
      simp [readSign, hPlus, hMinus]

theorem SpellsSign.isBlank_of_mem (h : SpellsSign sign negative) {c : Char} (hc : c ∈ sign) :
    Text.isBlank c = false := by
  cases h with
  | none => cases hc
  | plus | minus =>
    rw [List.mem_singleton.mp hc]
    decide

/-- A digit is neither a sign nor a point. -/
theorem ne_of_isDigit {c d : Char} (hc : Text.isDigit c = true) (hd : Text.isDigit d = false) :
    c ≠ d := by
  rintro rfl
  exact Bool.false_ne_true (hd.symm.trans hc)

theorem readDigits_run (hRun : ∀ c ∈ run, Text.isDigit c = true)
    (hRest : ∀ c ∈ rest.head?, Text.isDigit c = false) :
    readDigits (run ++ rest) = (run, rest) := by
  rw [readDigits, Text.takeWhile_run hRun hRest, Text.dropWhile_run hRun hRest]

/-- A text is the digits at its beginning and what does not go on with them. -/
theorem exists_readDigits (text : Text) :
    ∃ run rest, text = run ++ rest ∧ readDigits text = (run, rest) ∧
      ∀ c ∈ run, Text.isDigit c = true := by
  obtain ⟨run, rest, rfl, hRun, hRest⟩ := Text.exists_run Text.isDigit text
  exact ⟨run, rest, rfl, readDigits_run hRun hRest, hRun⟩

theorem exists_readFraction (text : Text) :
    ∃ fraction? rest, text = pointText fraction? ++ rest ∧ readFraction text = (fraction?, rest) ∧
      ∀ c ∈ fraction?.getD [], Text.isDigit c = true := by
  unfold readFraction
  split
  next point =>
    obtain ⟨digits, rest, rfl, hRead, hDigits⟩ := exists_readDigits point
    exact ⟨some digits, rest, rfl, by rw [hRead], hDigits⟩
  next => exact ⟨none, text, rfl, rfl, List.forall_mem_nil _⟩

theorem readFraction_append (hFraction : ∀ c ∈ fraction?.getD [], Text.isDigit c = true)
    (hRest : ∀ c ∈ rest.head?, Text.isDigit c = false ∧ c ≠ '.') :
    readFraction (pointText fraction? ++ rest) = (fraction?, rest) := by
  cases fraction? with
  | some digits =>
    have hRead := readDigits_run hFraction fun c hc => (hRest c hc).1
    rw [Option.getD_some] at hRead
    simp only [pointText, List.cons_append, readFraction, hRead]
  | none =>
    cases rest with
    | nil => rfl
    | cons c rest =>
      have hPoint := (hRest c rfl).2
      simp [pointText, readFraction, hPoint]

/-! ### Exponents -/

/-- The exponents: none, or digits behind a letter and a sign. -/
inductive SpellsExponent : Text → Option Int → Prop where
  /-- No exponent. -/
  | absent : SpellsExponent [] none
  /-- A letter, a sign and at least one digit. -/
  | marked {marker : Char} {sign digits : Text} {negative : Bool} :
      marker = 'e' ∨ marker = 'E' → SpellsSign sign negative → digits ≠ [] →
      (∀ c ∈ digits, Text.isDigit c = true) →
      SpellsExponent (marker :: (sign ++ digits))
        (some (if negative then -(Text.natOfDigits digits : Int) else Text.natOfDigits digits))

/-- A row of digits does not begin with a sign. -/
theorem head?_ne_sign_of_isDigit (h : ∀ c ∈ run, Text.isDigit c = true) :
    ∀ c ∈ run.head?, c ≠ '+' ∧ c ≠ '-' := by
  intro c hc
  have hDigit := h c (List.mem_of_mem_head? hc)
  exact ⟨ne_of_isDigit hDigit (by decide), ne_of_isDigit hDigit (by decide)⟩

/-- **What is read as an exponent is one.** -/
theorem readExponent?_eq_some_iff :
    readExponent? text = some exponent? ↔ SpellsExponent text exponent? := by
  constructor
  · intro h
    unfold readExponent? at h
    split at h
    next =>
      cases h
      exact .absent
    next marker rest =>
      rw [Option.ite_none_right_eq_some] at h
      obtain ⟨hMarker, h⟩ := h
      obtain ⟨sign, hText, hSign⟩ := spellsSign_readSign rest
      generalize readSign rest = read at h hText hSign
      obtain ⟨negative, digits⟩ := read
      subst hText
      rw [Option.ite_none_left_eq_some, Bool.or_eq_true, List.isEmpty_iff, not_or,
        Bool.not_eq_true', Bool.not_eq_false, List.all_eq_true] at h
      obtain ⟨⟨hne, hDigits⟩, h⟩ := h
      cases h
      exact .marked hMarker hSign hne hDigits
  · intro h
    cases h with
    | absent => rfl
    | @marked marker sign digits negative hMarker hSign hne hDigits =>
      have hRead := hSign.readSign_append (head?_ne_sign_of_isDigit hDigits)
      have hAll : digits.all Text.isDigit = true := List.all_eq_true.mpr hDigits
      simp only [readExponent?, hRead]
      rw [if_pos hMarker, List.isEmpty_eq_false_iff.mpr hne, hAll]
      rfl

/-- An exponent begins neither with a digit nor with a point. -/
theorem SpellsExponent.head? (h : SpellsExponent tail exponent?) :
    ∀ c ∈ tail.head?, Text.isDigit c = false ∧ c ≠ '.' := by
  intro c hc
  cases h with
  | absent => cases hc
  | marked hMarker =>
    cases hc
    rcases hMarker with rfl | rfl <;> decide

theorem SpellsExponent.isBlank_of_mem (h : SpellsExponent tail exponent?) {c : Char}
    (hc : c ∈ tail) : Text.isBlank c = false := by
  cases h with
  | absent => cases hc
  | marked hMarker hSign hne hDigits =>
    rcases List.mem_cons.mp hc with rfl | hc
    · rcases hMarker with rfl | rfl <;> decide
    rcases List.mem_append.mp hc with hc | hc
    · exact hSign.isBlank_of_mem hc
    · exact Text.isBlank_of_isDigit (hDigits c hc)

/-! ### Numerals -/

/-- Whether a text is a numeral, taken apart: a sign, digits around a point, at least one, and an
exponent. -/
def Spells (text : Text) (n : Numeral) : Prop :=
  ∃ sign tail, text = sign ++ (n.whole ++ (pointText n.fraction? ++ tail)) ∧
    SpellsSign sign n.negative ∧ SpellsExponent tail n.exponent? ∧
    n.whole ++ n.fraction?.getD [] ≠ [] ∧
    ∀ c ∈ n.whole ++ n.fraction?.getD [], Text.isDigit c = true

/-- **What is read as a numeral is one.** -/
theorem ofText?_eq_some_iff {n : Numeral} : ofText? text = some n ↔ Spells text n := by
  constructor
  · intro h
    obtain ⟨sign, hText, hSign⟩ := spellsSign_readSign text
    obtain ⟨whole, afterWhole, hWholeText, hWhole, hWholeDigits⟩ :=
      exists_readDigits (readSign text).2
    obtain ⟨fraction?, tail, hFractionText, hFraction, hFractionDigits⟩ :=
      exists_readFraction afterWhole
    simp only [ofText?, hWhole, hFraction] at h
    rw [Option.ite_none_left_eq_some, Option.map_eq_some_iff] at h
    obtain ⟨hne, exponent?, hExponent, rfl⟩ := h
    refine ⟨sign, tail, ?_, hSign, readExponent?_eq_some_iff.mp hExponent, ?_, ?_⟩
    · rw [← hFractionText, ← hWholeText, ← hText]
    · rwa [Bool.and_eq_true, List.isEmpty_iff, List.isEmpty_iff, ← List.append_eq_nil_iff] at hne
    · exact List.forall_mem_append.mpr ⟨hWholeDigits, hFractionDigits⟩
  · rintro ⟨sign, tail, rfl, hSign, hTail, hne, hDigits⟩
    obtain ⟨negative, whole, fraction?, exponent?⟩ := n
    obtain ⟨hWhole, hFraction⟩ := List.forall_mem_append.mp hDigits
    have hAfterWhole : ∀ c ∈ (pointText fraction? ++ tail).head?, Text.isDigit c = false := by
      intro c hc
      cases fraction? with
      | some digits =>
        cases hc
        decide
      | none => exact (hTail.head? c hc).1
    have hAfterSign : ∀ c ∈ (whole ++ (pointText fraction? ++ tail)).head?, c ≠ '+' ∧ c ≠ '-' := by
      intro c hc
      cases whole with
      | cons d whole => exact head?_ne_sign_of_isDigit hWhole c hc
      | nil =>
        cases fraction? with
        | some digits =>
          cases hc
          decide
        | none => exact absurd rfl hne
    have hRead := readFraction_append hFraction hTail.head?
    simp only [ofText?, hSign.readSign_append hAfterSign, readDigits_run hWhole hAfterWhole, hRead,
      readExponent?_eq_some_iff.mpr hTail]
    rw [if_neg (by rwa [Bool.and_eq_true, List.isEmpty_iff, List.isEmpty_iff,
      ← List.append_eq_nil_iff])]
    rfl

/-- No blank occurs in a numeral. -/
theorem Spells.isBlank_of_mem {n : Numeral} (h : Spells text n) {c : Char} (hc : c ∈ text) :
    Text.isBlank c = false := by
  obtain ⟨sign, tail, rfl, hSign, hTail, -, hDigits⟩ := h
  obtain ⟨hWhole, hFraction⟩ := List.forall_mem_append.mp hDigits
  rcases List.mem_append.mp hc with hc | hc
  · exact hSign.isBlank_of_mem hc
  rcases List.mem_append.mp hc with hc | hc
  · exact Text.isBlank_of_isDigit (hWhole c hc)
  rcases List.mem_append.mp hc with hPoint | hc
  · generalize n.fraction? = fraction? at hFraction hPoint
    cases fraction? with
    | none => cases hPoint
    | some digits =>
      rcases List.mem_cons.mp hPoint with rfl | hDigit
      · decide
      · exact Text.isBlank_of_isDigit (hFraction c hDigit)
  · exact hTail.isBlank_of_mem hc

end Numeral

end SqlTemplate
