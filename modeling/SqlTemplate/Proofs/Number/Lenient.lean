import SqlTemplate.Number.Basic
import SqlTemplate.Proofs.Number.Grammar
import SqlTemplate.Proofs.Results

/-!
# Lenient readings of numerals

A lenient reading passes over margins around a numeral and over single underscores between its
digits (`Numeral.IsLenient`). **It gives an integer just if digits with a sign are left**, not too
many of them (`Numeral.integerOf?_eq_some_iff`), **and a float just if a numeral or the name of what
is no number is left** (`Numeral.floatOf?_eq_some_iff`). The strict reading of conditions, which
passes over blanks only, gives an integer for the same texts (`Number.ofText?_eq_int_iff`).
-/

namespace SqlTemplate

-- Powers are read the same way, whatever else is imported.
attribute [local instance(2000)] instPowNat

namespace Numeral

/-! ### Underscores -/

/-- Whether a text is another one with single underscores between some of its digits. -/
inductive IsGrouped : Text → Text → Prop where
  /-- Nothing. -/
  | nil : IsGrouped [] []
  /-- Any other character stands in both. -/
  | plain {c : Char} {grouped plain : Text} :
      c ≠ '_' → IsGrouped grouped plain → IsGrouped (c :: grouped) (c :: plain)
  /-- An underscore between two digits is passed over. -/
  | separated {c d : Char} {grouped plain : Text} :
      Text.isDigit c = true → Text.isDigit d = true → IsGrouped (d :: grouped) (d :: plain) →
      IsGrouped (c :: '_' :: d :: grouped) (c :: d :: plain)

variable {text grouped plain : Text}

/-- Both texts begin with the same character. -/
theorem IsGrouped.exists_cons {d : Char} (h : IsGrouped (d :: grouped) plain) :
    ∃ rest, plain = d :: rest := by
  cases h with
  | plain | separated => exact ⟨_, rfl⟩

theorem IsGrouped.mem (h : IsGrouped grouped plain) {c : Char} (hc : c ∈ grouped) :
    c = '_' ∨ c ∈ plain := by
  induction h with
  | nil => cases hc
  | plain _ _ ih =>
    rcases List.mem_cons.mp hc with rfl | hc
    · exact .inr List.mem_cons_self
    · exact (ih hc).imp_right (List.mem_cons_of_mem _)
  | separated _ _ _ ih =>
    rcases List.mem_cons.mp hc with rfl | hc
    · exact .inr List.mem_cons_self
    rcases List.mem_cons.mp hc with rfl | hc
    · exact .inl rfl
    · exact (ih hc).imp_right (List.mem_cons_of_mem _)

theorem IsGrouped.dropUnderscores? (h : IsGrouped grouped plain) (afterDigit : Bool) :
    dropUnderscores? afterDigit grouped = some plain := by
  induction h generalizing afterDigit with
  | nil => rfl
  | plain hc _ ih => simp [Numeral.dropUnderscores?, ih]
  | separated hFirst hSecond _ ih =>
    simp [Numeral.dropUnderscores?, ne_of_isDigit hFirst (d := '_') (by decide), hFirst, hSecond,
      ih]

/-- What underscores are dropped from is grouped, or it goes on with an underscore behind a
digit. -/
theorem cases_of_dropUnderscores? {afterDigit : Bool}
    (h : dropUnderscores? afterDigit text = some plain) :
    IsGrouped text plain ∨
      afterDigit = true ∧ ∃ d grouped rest, text = '_' :: d :: grouped ∧ plain = d :: rest ∧
        Text.isDigit d = true ∧ IsGrouped (d :: grouped) (d :: rest) := by
  fun_induction Numeral.dropUnderscores? afterDigit text generalizing plain with
  | case1 =>
    cases h
    exact .inl .nil
  | case2 afterDigit rest hDigits ih =>
    rw [Bool.and_eq_true] at hDigits
    obtain ⟨hAfter, hHead⟩ := hDigits
    have hGrouped := (ih h).resolve_right fun hFalse => Bool.false_ne_true hFalse.1
    cases rest with
    | nil => cases hHead
    | cons d grouped =>
      obtain ⟨rest, rfl⟩ := hGrouped.exists_cons
      exact .inr ⟨hAfter, d, grouped, rest, rfl, rfl, hHead, hGrouped⟩
  | case3 => cases h
  | case4 afterDigit c rest hc ih =>
    obtain ⟨others, hOthers, rfl⟩ := Option.map_eq_some_iff.mp h
    rcases ih hOthers with hGrouped | ⟨hDigit, d, grouped, others, rfl, rfl, hNext, hGrouped⟩
    · exact .inl (.plain (fun hUnderscore => hc hUnderscore) hGrouped)
    · exact .inl (.separated hDigit hNext hGrouped)

/-- **Underscores are dropped just where each of them stands between two digits.** -/
theorem dropUnderscores?_eq_some_iff :
    dropUnderscores? false text = some plain ↔ IsGrouped text plain :=
  ⟨fun h => (cases_of_dropUnderscores? h).resolve_right fun hFalse => Bool.false_ne_true hFalse.1,
    fun h => h.dropUnderscores? false⟩

/-! ### Margins -/

theorem isMargin_eq_false {c : Char} (h : Text.isBlank c = false) : isMargin c = false := by
  rw [isMargin, h, Bool.false_and]

/-- Only margins are stripped. -/
theorem exists_stripMargins (text : Text) :
    ∃ front back, text = front ++ (stripMargins text ++ back) ∧
      ∀ c ∈ front ++ back, isMargin c = true := by
  obtain ⟨front, rest, rfl, hFront, hRest⟩ := Text.exists_run isMargin text
  obtain ⟨back, core, hReverse, hBack, hCore⟩ := Text.exists_run isMargin rest.reverse
  have hStrip : stripMargins (front ++ rest) = core.reverse := by
    rw [stripMargins, Text.dropWhile_run hFront hRest, hReverse, Text.dropWhile_run hBack hCore]
  refine ⟨front, back.reverse, ?_, ?_⟩
  · rw [hStrip, ← List.reverse_append, ← hReverse, List.reverse_reverse]
  · refine List.forall_mem_append.mpr ⟨hFront, fun c hc => hBack c (List.mem_reverse.mp hc)⟩

/-- All margins are stripped. -/
theorem stripMargins_append {front core back : Text}
    (hMargins : ∀ c ∈ front ++ back, isMargin c = true) (hne : core ≠ [])
    (hCore : ∀ c ∈ core, isMargin c = false) : stripMargins (front ++ (core ++ back)) = core := by
  obtain ⟨hFront, hBack⟩ := List.forall_mem_append.mp hMargins
  have hHead (text : Text) : ∀ c ∈ (core ++ text).head?, isMargin c = false := by
    cases core with
    | nil => exact absurd rfl hne
    | cons d core =>
      intro c hc
      cases hc
      exact hCore d List.mem_cons_self
  have hLast : ∀ c ∈ core.reverse.head?, isMargin c = false :=
    fun c hc => hCore c (List.mem_reverse.mp (List.mem_of_mem_head? hc))
  rw [stripMargins, Text.dropWhile_run hFront (hHead back), List.reverse_append,
    Text.dropWhile_run (fun c hc => hBack c (List.mem_reverse.mp hc)) hLast, List.reverse_reverse]

/-! ### Lenient texts -/

/-- Whether a text is another one with margins around it and underscores between digits. -/
def IsLenient (text plain : Text) : Prop :=
  ∃ front core back, text = front ++ (core ++ back) ∧
    (∀ c ∈ front ++ back, isMargin c = true) ∧ IsGrouped core plain

/-- What is left of a text without margins and underscores. -/
theorem dropUnderscores?_stripMargins_iff (hne : plain ≠ [])
    (hPlain : ∀ c ∈ plain, Text.isBlank c = false) :
    dropUnderscores? false (stripMargins text) = some plain ↔ IsLenient text plain := by
  rw [dropUnderscores?_eq_some_iff]
  constructor
  · intro h
    obtain ⟨front, back, hText, hMargins⟩ := exists_stripMargins text
    exact ⟨front, stripMargins text, back, hText, hMargins, h⟩
  · rintro ⟨front, core, back, rfl, hMargins, hGrouped⟩
    have hCore : ∀ c ∈ core, isMargin c = false := by
      intro c hc
      rcases hGrouped.mem hc with rfl | hc
      · decide
      · exact isMargin_eq_false (hPlain c hc)
    have hNonempty : core ≠ [] := by
      rintro rfl
      cases hGrouped
      exact hne rfl
    rwa [stripMargins_append hMargins hNonempty hCore]

/-! ### Integers -/

/-- Whether a text is an integer: digits with a sign, not too many. -/
inductive SpellsInteger : Text → Int → Prop where
  /-- A sign and at least one digit. -/
  | intro {sign digits : Text} {negative : Bool} : SpellsSign sign negative → digits ≠ [] →
      (∀ c ∈ digits, Text.isDigit c = true) → digits.length ≤ Fault.maxDigits →
      SpellsInteger (sign ++ digits)
        (if negative then -(Text.natOfDigits digits : Int) else Text.natOfDigits digits)

theorem SpellsInteger.ne_nil {k : Int} (h : SpellsInteger text k) : text ≠ [] := by
  cases h with
  | intro _ hne => exact List.append_ne_nil_of_right_ne_nil _ hne

theorem SpellsInteger.isBlank_of_mem {k : Int} (h : SpellsInteger text k) {c : Char}
    (hc : c ∈ text) : Text.isBlank c = false := by
  cases h with
  | intro hSign _ hDigits =>
    rcases List.mem_append.mp hc with hc | hc
    · exact hSign.isBlank_of_mem hc
    · exact Text.isBlank_of_isDigit (hDigits c hc)

/-- What a text spells has no more digits than may be written. -/
theorem SpellsInteger.natAbs_lt {k : Int} (h : SpellsInteger text k) :
    k.natAbs < 10 ^ Fault.maxDigits := by
  cases h with
  | @intro sign digits negative _ _ _ hShort =>
    have hAbs : (if negative then -(Text.natOfDigits digits : Int)
        else Text.natOfDigits digits).natAbs = Text.natOfDigits digits := by
      cases negative <;> simp
    rw [hAbs]
    exact Nat.lt_of_lt_of_le (Text.natOfDigits_lt digits) (Nat.pow_le_pow_right (by decide) hShort)

/-- An integer is a numeral without a point and without an exponent. -/
theorem exists_spells_iff {k : Int} :
    (∃ n, Spells text n ∧ n.isInteger = true ∧ n.toInt = .ok k) ↔ SpellsInteger text k := by
  constructor
  · rintro ⟨⟨negative, whole, fraction?, exponent?⟩, hSpells, hInteger, hInt⟩
    obtain ⟨hFraction, hExponent⟩ := Bool.and_eq_true_iff.mp hInteger
    obtain rfl := Option.isNone_iff_eq_none.mp hFraction
    obtain rfl := Option.isNone_iff_eq_none.mp hExponent
    obtain ⟨sign, tail, rfl, hSign, hTail, hne, hDigits⟩ := hSpells
    cases hTail
    rw [Option.getD_none, List.append_nil] at hne hDigits
    by_cases hLong : Fault.maxDigits < whole.length
    · rw [toInt, Text.readNat, if_pos hLong] at hInt
      cases hInt
    · rw [toInt, Text.readNat, if_neg hLong] at hInt
      cases hInt
      rw [pointText, List.append_nil, List.append_nil]
      exact .intro hSign hne hDigits (Nat.le_of_not_lt hLong)
  · intro h
    cases h with
    | @intro sign digits negative hSign hne hDigits hShort =>
      refine ⟨⟨negative, digits, none, none⟩, ⟨sign, [], ?_, hSign, .absent, ?_, ?_⟩, rfl, ?_⟩
      · rw [pointText, List.append_nil, List.append_nil]
      · rwa [Option.getD_none, List.append_nil]
      · rwa [Option.getD_none, List.append_nil]
      · rw [toInt, Text.readNat, if_neg (Nat.not_lt.mpr hShort)]
        rfl

/-- **A text is read as an integer just if digits with a sign are left**, and not too many. -/
theorem integerOf?_eq_some_iff {k : Int} :
    integerOf? text = some k ↔ ∃ plain, IsLenient text plain ∧ SpellsInteger plain k := by
  have hRead (plain : Text) : (ofText? plain >>= fun n =>
      if n.isInteger then n.toInt.toOption else none) = some k ↔ SpellsInteger plain k := by
    rw [← exists_spells_iff, Option.bind_eq_bind, Option.bind_eq_some_iff]
    refine exists_congr fun n => and_congr ofText?_eq_some_iff ?_
    rw [Option.ite_none_right_eq_some, toOption_eq_some_iff]
  rw [integerOf?, Option.bind_eq_bind, Option.bind_eq_some_iff]
  simp only [hRead]
  refine exists_congr fun plain => and_congr_left fun h => ?_
  exact dropUnderscores?_stripMargins_iff h.ne_nil fun _ hc => h.isBlank_of_mem hc

/-! ### Names -/

/-- The names of what is no number, in any letter case and with a sign. -/
inductive SpellsName : Text → Binary64 → Prop where
  /-- What lies beyond all numbers. -/
  | infinite {sign name : Text} {negative : Bool} : SpellsSign sign negative →
      name.map Char.toLower = "inf".toList ∨ name.map Char.toLower = "infinity".toList →
      SpellsName (sign ++ name) (.infinite negative)
  /-- What is no number. -/
  | nan {sign name : Text} {negative : Bool} : SpellsSign sign negative →
      name.map Char.toLower = "nan".toList → SpellsName (sign ++ name) (.nan 0)

/-- A character whose lower case is a letter of ASCII is one itself. -/
theorem range_of_toLower {c : Char} (hLow : 97 ≤ c.toLower.toNat) (hHigh : c.toLower.toNat < 128) :
    65 ≤ c.toNat ∧ c.toNat < 128 := by
  unfold Char.toLower at hLow hHigh
  split at hLow
  next hUpper =>
    simp only [ge_iff_le, UInt32.le_iff_toNat_le] at hUpper
    exact ⟨hUpper.1, Nat.lt_of_le_of_lt hUpper.2 (by decide)⟩
  next hOther =>
    rw [dif_neg hOther] at hHigh
    exact ⟨Nat.le_trans (by decide) hLow, hHigh⟩

theorem range_of_mem_name {name letters : Text} (hName : name.map Char.toLower = letters)
    (hLetters : letters.all fun c => 97 ≤ c.toNat ∧ c.toNat < 128) :
    ∀ c ∈ name, 65 ≤ c.toNat ∧ c.toNat < 128 := by
  intro c hc
  have hMem : c.toLower ∈ letters := hName ▸ List.mem_map_of_mem hc
  have hLower := of_decide_eq_true (List.all_eq_true.mp hLetters _ hMem)
  exact range_of_toLower hLower.1 hLower.2

/-- A name is a sign and letters. -/
theorem SpellsName.exists_name {x : Binary64} (h : SpellsName text x) :
    ∃ sign name negative, text = sign ++ name ∧ SpellsSign sign negative ∧ name ≠ [] ∧
      ∀ c ∈ name, 65 ≤ c.toNat ∧ c.toNat < 128 := by
  have hLetters {name letters : Text} (hName : name.map Char.toLower = letters)
      (hne : letters ≠ []) (hRange : letters.all fun c => 97 ≤ c.toNat ∧ c.toNat < 128) :
      name ≠ [] ∧ ∀ c ∈ name, 65 ≤ c.toNat ∧ c.toNat < 128 := by
    refine ⟨?_, range_of_mem_name hName hRange⟩
    rintro rfl
    exact hne hName.symm
  cases h with
  | infinite hSign hName =>
    refine ⟨_, _, _, rfl, hSign, ?_⟩
    rcases hName with hName | hName <;> exact hLetters hName (by decide) (by decide)
  | nan hSign hName => exact ⟨_, _, _, rfl, hSign, hLetters hName (by decide) (by decide)⟩

theorem SpellsName.ne_nil {x : Binary64} (h : SpellsName text x) : text ≠ [] := by
  obtain ⟨sign, name, negative, rfl, -, hne, -⟩ := h.exists_name
  exact List.append_ne_nil_of_right_ne_nil _ hne

theorem SpellsName.isBlank_of_mem {x : Binary64} (h : SpellsName text x) {c : Char}
    (hc : c ∈ text) : Text.isBlank c = false := by
  obtain ⟨sign, name, negative, rfl, hSign, -, hName⟩ := h.exists_name
  rcases List.mem_append.mp hc with hc | hc
  · exact hSign.isBlank_of_mem hc
  · obtain ⟨hLow, hHigh⟩ := hName c hc
    exact Text.isBlank_eq_false_of_range (Nat.le_trans (by decide) hLow) hHigh

theorem SpellsName.isDigit_of_mem {x : Binary64} (h : SpellsName text x) {c : Char}
    (hc : c ∈ text) : Text.isDigit c = false := by
  obtain ⟨sign, name, negative, rfl, hSign, -, hName⟩ := h.exists_name
  rcases List.mem_append.mp hc with hc | hc
  · cases hSign with
    | none => cases hc
    | plus | minus =>
      rw [List.mem_singleton.mp hc]
      decide
  · obtain ⟨hLow, hHigh⟩ := hName c hc
    exact Text.isDigit_eq_false_of_range (Nat.le_trans (by decide) hLow) hHigh

/-- **What is read as a name is one.** -/
theorem namedFloat?_eq_some_iff {x : Binary64} : namedFloat? text = some x ↔ SpellsName text x := by
  constructor
  · intro h
    obtain ⟨sign, hText, hSign⟩ := spellsSign_readSign text
    rw [hText]
    simp only [namedFloat?, Bool.or_eq_true, beq_iff_eq, ← String.toList_inj,
      String.toList_ofList] at h
    split at h
    next hName =>
      cases h
      exact .infinite hSign hName
    next =>
      rw [Option.ite_none_right_eq_some] at h
      obtain ⟨hName, h⟩ := h
      cases h
      exact .nan hSign hName
  · intro h
    have hRead {sign name : Text} {negative : Bool} (hSign : SpellsSign sign negative)
        (hName : ∀ c ∈ name, 65 ≤ c.toNat ∧ c.toNat < 128) :
        readSign (sign ++ name) = (negative, name) := by
      refine hSign.readSign_append fun c hc => ?_
      have hLow := (hName c (List.mem_of_mem_head? hc)).1
      constructor <;> rintro rfl <;> exact absurd hLow (by decide)
    cases h with
    | infinite hSign hName =>
      have hLetters := hName.elim (fun h => range_of_mem_name h (by decide))
        fun h => range_of_mem_name h (by decide)
      simp only [namedFloat?, hRead hSign hLetters, Bool.or_eq_true, beq_iff_eq,
        ← String.toList_inj, String.toList_ofList]
      rw [if_pos hName]
    | nan hSign hName =>
      have hLetters := range_of_mem_name hName (by decide)
      simp only [namedFloat?, hRead hSign hLetters, Bool.or_eq_true, beq_iff_eq,
        ← String.toList_inj, String.toList_ofList, hName]
      rfl

/-! ### Floats -/

theorem Spells.ne_nil {n : Numeral} (h : Spells text n) : text ≠ [] := by
  rintro rfl
  obtain ⟨sign, tail, hText, -, -, hne, -⟩ := h
  obtain ⟨-, hText⟩ := List.append_eq_nil_iff.mp hText.symm
  obtain ⟨hWhole, hText⟩ := List.append_eq_nil_iff.mp hText
  obtain ⟨hPoint, -⟩ := List.append_eq_nil_iff.mp hText
  cases hFraction : n.fraction? with
  | none => exact hne (by rw [hWhole, hFraction]; rfl)
  | some digits =>
    rw [hFraction] at hPoint
    cases hPoint

/-- Whether a text is a float: a numeral, for the float nearest to it, or the name of what is no
number. -/
inductive SpellsFloat : Text → Binary64 → Prop where
  /-- A numeral. -/
  | numeral {text : Text} {n : Numeral} : Spells text n → SpellsFloat text n.toBinary64
  /-- A name. -/
  | name {text : Text} {x : Binary64} : SpellsName text x → SpellsFloat text x

theorem SpellsFloat.ne_nil {x : Binary64} (h : SpellsFloat text x) : text ≠ [] := by
  cases h with
  | numeral h => exact h.ne_nil
  | name h => exact h.ne_nil

theorem SpellsFloat.isBlank_of_mem {x : Binary64} (h : SpellsFloat text x) {c : Char}
    (hc : c ∈ text) : Text.isBlank c = false := by
  cases h with
  | numeral h => exact h.isBlank_of_mem hc
  | name h => exact h.isBlank_of_mem hc

/-- A numeral has digits, a name has none. -/
theorem Spells.not_spellsName {n : Numeral} {x : Binary64} (h : Spells text n) :
    ¬SpellsName text x := by
  intro hName
  obtain ⟨sign, tail, rfl, -, -, hne, hDigits⟩ := h
  obtain ⟨c, hc⟩ := List.exists_mem_of_ne_nil _ hne
  have hMem : c ∈ sign ++ (n.whole ++ (pointText n.fraction? ++ tail)) := by
    refine List.mem_append_right _ ?_
    rcases List.mem_append.mp hc with hWhole | hFraction
    · exact List.mem_append_left _ hWhole
    · refine List.mem_append_right _ (List.mem_append_left _ ?_)
      cases hPoint : n.fraction? with
      | none =>
        rw [hPoint] at hFraction
        cases hFraction
      | some digits =>
        rw [hPoint] at hFraction
        exact List.mem_cons_of_mem _ hFraction
  exact Bool.false_ne_true ((hName.isDigit_of_mem hMem).symm.trans (hDigits c hc))

/-- **A text is read as a float just if a numeral or a name is left.** -/
theorem floatOf?_eq_some_iff {x : Binary64} :
    floatOf? text = some x ↔ ∃ plain, IsLenient text plain ∧ SpellsFloat plain x := by
  have hRead (plain : Text) :
      (((ofText? plain).map toBinary64 <|> namedFloat? plain) = some x) ↔ SpellsFloat plain x := by
    rw [Option.orElse_eq_orElse, Option.orElse_eq_or, Option.or_eq_some_iff,
      Option.map_eq_some_iff, Option.map_eq_none_iff, namedFloat?_eq_some_iff]
    constructor
    · rintro (⟨n, hn, rfl⟩ | ⟨-, hName⟩)
      · exact .numeral (ofText?_eq_some_iff.mp hn)
      · exact .name hName
    · intro h
      cases h with
      | numeral h => exact .inl ⟨_, ofText?_eq_some_iff.mpr h, rfl⟩
      | name h =>
        refine .inr ⟨Option.eq_none_iff_forall_ne_some.mpr fun n hn => ?_, h⟩
        exact (ofText?_eq_some_iff.mp hn).not_spellsName h
  simp only [floatOf?, Option.bind_eq_bind, Option.bind_eq_some_iff, hRead]
  refine exists_congr fun plain => and_congr_left fun h => ?_
  exact dropUnderscores?_stripMargins_iff h.ne_nil fun _ hc => h.isBlank_of_mem hc

end Numeral

namespace Number

open Numeral

/-- **A text stands for an integer just if digits with a sign are left without the blanks around
it**, and not too many. -/
theorem ofText?_eq_int_iff {text : Text} {k : Int} :
    ofText? text = some (int k) ↔ SpellsInteger text.strip k := by
  rw [← exists_spells_iff, ofText?, Option.bind_eq_bind, Option.bind_eq_some_iff]
  refine exists_congr fun n => and_congr Numeral.ofText?_eq_some_iff ?_
  split
  next hInteger =>
    rw [and_iff_right hInteger, ← toOption_eq_some_iff, Option.map_eq_some_iff]
    constructor
    · rintro ⟨i, hInt, h⟩
      cases h
      exact hInt
    · exact fun hInt => ⟨k, hInt, rfl⟩
  next hInteger => exact iff_of_false (by simp) fun h => hInteger h.1

end Number

end SqlTemplate
