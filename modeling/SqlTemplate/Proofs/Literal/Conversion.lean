import SqlTemplate.Literal.Scalar
import SqlTemplate.Proofs.Number.Conversion
import SqlTemplate.Proofs.Number.Lenient

/-!
# Values as integers and as floats

A value has an integer if it is a truth value, a number with an integer part or a text that can be
read as an integer (`Value.HasInteger`), and a float if it is a truth value, a number near to a
float or a text that can be read as one (`Value.HasFloat`). The integer literal and the float
literal of a value are the text of this number, and nothing if there is none, **with one exception
each**: an infinite number has no integer literal at all, and an integer beyond the largest float
has no float literal (`converts_iff`).
-/

namespace SqlTemplate

-- Powers are read the same way, whatever else is imported.
attribute [local instance(2000)] instPowNat

/-! ### What values stand for -/

/-- The float of a number. -/
inductive Number.HasFloat : Number → Binary64 → Prop where
  /-- An integer in range has a float near to it. -/
  | int {k : Int} : ¬ExceedsFloats k → HasFloat (.int k) (.ofDecimal (k < 0) k.natAbs 0)
  /-- A float is its own. -/
  | float (x : Binary64) : HasFloat (.float x) x
  /-- A decimal has a float near to it, perhaps an infinite one. -/
  | decimal (negative : Bool) (coefficient : Nat) (exponent : Int) :
      HasFloat (.decimal (.finite negative coefficient exponent))
        (.ofDecimal negative coefficient exponent)
  /-- An infinite decimal has an infinite float. -/
  | infinite (negative : Bool) : HasFloat (.decimal (.infinite negative)) (.infinite negative)
  /-- A NaN that does not stop operations is one as a float. -/
  | nan (negative : Bool) (payload label : Nat) :
      HasFloat (.decimal (.nan negative false payload label)) (.nan label)

namespace Value

/-- Whether a value is read as a text: a text, ready SQL, or bytes of ASCII. -/
inductive IsReadAs : Value → Text → Prop where
  /-- A text. -/
  | text (s : Text) : IsReadAs (.text s) s
  /-- Ready SQL. -/
  | sql (s : Text) : IsReadAs (.sql s) s
  /-- Bytes, each of them an ASCII character. -/
  | bytes {bytes : List UInt8} {s : Text} : (∀ c ∈ s, c.toNat < 128) →
      bytes.map UInt8.toNat = s.map Char.toNat → IsReadAs (.bytes bytes) s

/-- The integer of a value. -/
inductive HasInteger : Value → Int → Prop where
  /-- A truth value counts as 0 or 1. -/
  | bool (b : Bool) : HasInteger (.bool b) (if b then 1 else 0)
  /-- A number that is no NaN and not infinite has an integer part. -/
  | number {n : Number} {q : Rat} :
      n.extended? = some (.rational q) → HasInteger (.number n) (integerPart q)
  /-- A text is an integer, apart from margins and underscores. -/
  | text {v : Value} {s plain : Text} {k : Int} : v.IsReadAs s → Numeral.IsLenient s plain →
      Numeral.SpellsInteger plain k → HasInteger v k

/-- The float of a value. -/
inductive HasFloat : Value → Binary64 → Prop where
  /-- A truth value counts as 0 or 1. -/
  | bool (b : Bool) : HasFloat (.bool b) (.ofDecimal false (if b then 1 else 0) 0)
  /-- A number has the float that is near to it. -/
  | number {n : Number} {x : Binary64} : n.HasFloat x → HasFloat (.number n) x
  /-- A text is a float, apart from margins and underscores. -/
  | text {v : Value} {s plain : Text} {x : Binary64} : v.IsReadAs s → Numeral.IsLenient s plain →
      Numeral.SpellsFloat plain x → HasFloat v x

/-- Whether a value is an infinite number. -/
def IsInfinite : Value → Prop
  | .number n => n.IsInfinite
  | _ => False

/-- Whether a value is an integer beyond the largest float. -/
def ExceedsFloats : Value → Prop
  | .number (.int k) => SqlTemplate.ExceedsFloats k
  | _ => False

end Value

/-! ### Reading values -/

namespace Literal

/-- Bytes are read as the characters whose codes they are. -/
theorem asciiText?_eq_some_iff {bytes : List UInt8} {s : Text} :
    asciiText? bytes = some s ↔
      (∀ c ∈ s, c.toNat < 128) ∧ bytes.map UInt8.toNat = s.map Char.toNat := by
  rw [asciiText?, Option.ite_none_right_eq_some, List.all_eq_true]
  constructor
  · rintro ⟨hAscii, h⟩
    cases h
    have hLess (b : UInt8) (hb : b ∈ bytes) : b.toNat < 128 := by
      have hByte := of_decide_eq_true (hAscii b hb)
      rwa [UInt8.lt_iff_toNat_lt] at hByte
    have hCode (b : UInt8) (hb : b ∈ bytes) : (Char.ofNat b.toNat).toNat = b.toNat := by
      rw [Char.ofNat, dif_pos (.inl (Nat.lt_trans (hLess b hb) (by decide)))]
      rfl
    constructor
    · intro c hc
      obtain ⟨b, hb, rfl⟩ := List.mem_map.mp hc
      rw [hCode b hb]
      exact hLess b hb
    · rw [List.map_map]
      exact List.map_congr_left fun b hb => (hCode b hb).symm
  · rintro ⟨hAscii, hCodes⟩
    constructor
    · intro b hb
      have hMem : b.toNat ∈ s.map Char.toNat := hCodes ▸ List.mem_map_of_mem hb
      obtain ⟨c, hc, hEq⟩ := List.mem_map.mp hMem
      rw [decide_eq_true_eq, UInt8.lt_iff_toNat_lt, ← hEq]
      exact hAscii c hc
    · have hChars : (bytes.map UInt8.toNat).map Char.ofNat = s := by
        rw [hCodes, List.map_map]
        exact (List.map_congr_left fun c _ => Char.ofNat_toNat c).trans (List.map_id s)
      rw [List.map_map] at hChars
      exact congrArg some hChars

end Literal

namespace Value

variable {v : Value}

/-- Whether a value is of a kind that can be read as a text. -/
def IsTextual : Value → Prop
  | .text _ | .sql _ | .bytes _ => True
  | _ => False

/-- The characters of such a value, if it has any. -/
def characters? : Value → Option Text
  | .text s => some s
  | .sql s => some s
  | .bytes b => Literal.asciiText? b
  | _ => none

theorem characters?_eq_some_iff {s : Text} : v.characters? = some s ↔ v.IsReadAs s := by
  cases v with
  | text t =>
    refine ⟨fun h => ?_, fun h => ?_⟩
    · cases h
      exact .text _
    · cases h
      rfl
  | sql t =>
    refine ⟨fun h => ?_, fun h => ?_⟩
    · cases h
      exact .sql _
    · cases h
      rfl
  | bytes bytes =>
    refine ⟨fun h => ?_, fun h => ?_⟩
    · obtain ⟨hAscii, hCodes⟩ := Literal.asciiText?_eq_some_iff.mp h
      exact .bytes hAscii hCodes
    · cases h with
      | bytes hAscii hCodes => exact Literal.asciiText?_eq_some_iff.mpr ⟨hAscii, hCodes⟩
  | _ => exact iff_of_false nofun nofun

/-- What a lenient reading of the characters gives. -/
theorem bind_characters?_eq_some_iff {α : Type} {read : Text → Option α} {a : α}
    {Spells : Text → α → Prop}
    (hRead : ∀ {s a}, read s = some a ↔ ∃ plain, Numeral.IsLenient s plain ∧ Spells plain a) :
    v.characters?.bind read = some a ↔
      ∃ s plain, v.IsReadAs s ∧ Numeral.IsLenient s plain ∧ Spells plain a := by
  simp only [Option.bind_eq_some_iff, characters?_eq_some_iff, hRead, exists_and_left]

end Value

namespace Literal

variable {v : Value}

theorem integerOf?_of_isTextual (h : v.IsTextual) :
    integerOf? v = .ok (v.characters?.bind Numeral.integerOf?) := by
  cases v with
  | text | sql | bytes => rfl
  | _ => cases h

theorem floatOf?_of_isTextual (h : v.IsTextual) :
    floatOf? v = .ok (v.characters?.bind Numeral.floatOf?) := by
  cases v with
  | text | sql | bytes => rfl
  | _ => cases h

/-- **The integer that a value is converted to is its own.** -/
theorem integerOf?_eq_ok_some_iff {k : Int} : integerOf? v = .ok (some k) ↔ v.HasInteger k := by
  have hTextual (h : v.IsTextual) : integerOf? v = .ok (some k) ↔ v.HasInteger k := by
    rw [integerOf?_of_isTextual h, Except.ok.injEq,
      Value.bind_characters?_eq_some_iff Numeral.integerOf?_eq_some_iff]
    constructor
    · rintro ⟨s, plain, hRead, hLenient, hSpells⟩
      exact .text hRead hLenient hSpells
    · intro hInteger
      cases hInteger with
      | text hRead hLenient hSpells => exact ⟨_, _, hRead, hLenient, hSpells⟩
      | _ => cases h
  cases v with
  | text | sql | bytes => exact hTextual trivial
  | bool b =>
    refine ⟨fun h => ?_, fun h => ?_⟩
    · cases h
      exact .bool b
    · cases h with
      | bool => rfl
      | text hRead => cases hRead
  | number n =>
    refine Iff.trans (map_some_eq_ok_iff.trans Number.toInt_eq_ok_iff) ⟨?_, fun h => ?_⟩
    · rintro ⟨q, hq, rfl⟩
      exact .number hq
    · cases h with
      | number hq => exact ⟨_, hq, rfl⟩
      | text hRead => cases hRead
  | _ =>
    refine ⟨fun h => ?_, fun h => ?_⟩
    · cases h
    · cases h with
      | text hRead => cases hRead

theorem not_exceedsFloats_bool (b : Bool) : ¬ExceedsFloats (if b then 1 else 0) := by
  rw [ExceedsFloats]
  cases b <;> decide +kernel

/-- The float that a number is converted to is near to it. -/
theorem floatOf?_number_eq_ok_some_iff {n : Number} {x : Binary64} :
    floatOf? (.number n) = .ok (some x) ↔ n.HasFloat x := by
  cases n with
  | int k =>
    refine Iff.trans (map_some_eq_ok_iff.trans Binary64.ofInt_eq_ok_iff) ⟨?_, fun h => ?_⟩
    · rintro ⟨hSmall, rfl⟩
      exact .int hSmall
    · cases h with
      | int hSmall => exact ⟨hSmall, rfl⟩
  | float y =>
    refine ⟨fun h => ?_, fun h => ?_⟩
    · cases h
      exact .float _
    · cases h
      rfl
  | decimal d =>
    refine Iff.trans (Except.ok.injEq ..).to_iff ⟨fun h => ?_, fun h => ?_⟩
    · cases d with
      | finite negative coefficient exponent =>
        cases h
        exact .decimal negative coefficient exponent
      | infinite negative =>
        cases h
        exact .infinite negative
      | nan negative signaling payload label =>
        cases signaling with
        | true => cases h
        | false =>
          cases h
          exact .nan negative payload label
    · cases h with
      | decimal | infinite | nan => rfl

/-- **The float that a value is converted to is its own.** -/
theorem floatOf?_eq_ok_some_iff {x : Binary64} : floatOf? v = .ok (some x) ↔ v.HasFloat x := by
  have hTextual (h : v.IsTextual) : floatOf? v = .ok (some x) ↔ v.HasFloat x := by
    rw [floatOf?_of_isTextual h, Except.ok.injEq,
      Value.bind_characters?_eq_some_iff Numeral.floatOf?_eq_some_iff]
    constructor
    · rintro ⟨s, plain, hRead, hLenient, hSpells⟩
      exact .text hRead hLenient hSpells
    · intro hFloat
      cases hFloat with
      | text hRead hLenient hSpells => exact ⟨_, _, hRead, hLenient, hSpells⟩
      | _ => cases h
  cases v with
  | text | sql | bytes => exact hTextual trivial
  | bool b =>
    refine Iff.trans (map_some_eq_ok_iff.trans Binary64.ofInt_eq_ok_iff) ⟨?_, fun h => ?_⟩
    · rintro ⟨-, rfl⟩
      cases b with
      | true => exact .bool true
      | false => exact .bool false
    · cases h with
      | bool => exact ⟨not_exceedsFloats_bool b, by cases b <;> rfl⟩
      | text hRead => cases hRead
  | number n =>
    refine floatOf?_number_eq_ok_some_iff.trans ⟨.number, fun h => ?_⟩
    cases h with
    | number hFloat => exact hFloat
    | text hRead => cases hRead
  | _ =>
    refine ⟨fun h => ?_, fun h => ?_⟩
    · cases h
    · cases h with
      | text hRead => cases hRead

/-! ### Literals of converted values -/

/-- Whether a literal is one of the texts, or nothing if there is none of them. -/
def IsOneOrNull (texts : Text → Prop) (literal : Except Fault Text) : Prop :=
  (∃ t, texts t ∧ literal = .ok t) ∨ (¬∃ t, texts t) ∧ literal = .ok null

/-- The literal of what a value is converted to. -/
def convertedText {α : Type} (converted : Except Fault (Option α))
    (write : α → Except Fault Text) : Except Fault Text :=
  orNull (converted >>= fun a? => a?.elim (.ok null) write)

theorem int_eq_convertedText (v : Value) : int v = convertedText (integerOf? v) Text.writeInt := by
  rw [int, convertedText]
  refine congrArg (fun next => orNull (integerOf? v >>= next)) (funext fun k? => ?_)
  cases k? with
  | none => rfl
  | some k => rw [Option.elim_some]

theorem float_eq_convertedText (v : Value) :
    float v = convertedText (floatOf? v) fun x => .ok x.text := by
  rw [float, convertedText]
  refine congrArg (fun next => orNull (floatOf? v >>= next)) (funext fun x? => ?_)
  cases x? with
  | none => rfl
  | some x => rfl

section ConvertedText

variable {α : Type} {converted : Except Fault (Option α)} {write : α → Except Fault Text}
  {texts : Text → Prop}

/-- What is in range is written, or nothing is. -/
theorem convertedText_of_inRange
    (hTexts : ∀ t, texts t ↔ ∃ a, converted = .ok (some a) ∧ write a = .ok t)
    (hWrite : ∀ a fault, write a = .error fault → isOutOfRange fault = false)
    (h : ∀ fault, converted = .error fault → isOutOfRange fault = false) :
    IsOneOrNull texts (convertedText converted write) := by
  -- Each of the cases but one has no text.
  have hNone (hNot : ∀ a t, converted = .ok (some a) → write a ≠ .ok t) : ¬∃ t, texts t := by
    rintro ⟨t, ht⟩
    obtain ⟨a, hConverted, hText⟩ := (hTexts t).mp ht
    exact hNot a t hConverted hText
  cases converted with
  | error fault => exact .inr ⟨hNone nofun, if_neg (Bool.eq_false_iff.mp (h fault rfl))⟩
  | ok a? =>
    cases a? with
    | none => exact .inr ⟨hNone nofun, rfl⟩
    | some a =>
      have hOrNull : convertedText (.ok (some a)) write = orNull (write a) := rfl
      cases hText : write a with
      | ok t => exact .inl ⟨t, (hTexts t).mpr ⟨a, rfl, hText⟩, by rw [hOrNull, hText]; rfl⟩
      | error fault =>
        refine .inr ⟨hNone fun b t hb => ?_, ?_⟩
        · cases hb
          rw [hText]
          exact (ok_ne_error t fault).symm
        · rw [hOrNull, hText]
          exact if_neg (Bool.eq_false_iff.mp (hWrite a fault hText))

/-- What is out of range is a fault. -/
theorem convertedText_of_outOfRange {fault : Fault} (h : isOutOfRange fault = true) :
    convertedText (.error fault) write = .error fault :=
  if_pos h

/-- **The literal of what is converted is its text, or nothing, unless it is out of range.** -/
theorem isOneOrNull_convertedText_iff {P : Prop}
    (hTexts : ∀ t, texts t ↔ ∃ a, converted = .ok (some a) ∧ write a = .ok t)
    (hWrite : ∀ a fault, write a = .error fault → isOutOfRange fault = false)
    (hRange : (∃ fault, isOutOfRange fault = true ∧ converted = .error fault) ↔ P) :
    (IsOneOrNull texts (convertedText converted write) ↔ ¬P) ∧
      ((∃ fault, isOutOfRange fault = true ∧ convertedText converted write = .error fault) ↔
        P) := by
  rw [← hRange]
  by_cases hOut : ∃ fault, isOutOfRange fault = true ∧ converted = .error fault
  · obtain ⟨fault, hFault, rfl⟩ := hOut
    have hError : convertedText (.error fault) write = .error fault :=
      convertedText_of_outOfRange hFault
    refine ⟨iff_of_false ?_ (not_not_intro ⟨fault, hFault, rfl⟩),
      iff_of_true ⟨fault, hFault, hError⟩ ⟨fault, hFault, rfl⟩⟩
    rw [hError]
    rintro (⟨t, -, hOk⟩ | ⟨-, hOk⟩) <;> cases hOk
  · have hText := convertedText_of_inRange hTexts hWrite fun fault hFault =>
      Bool.eq_false_iff.mpr fun hTrue => hOut ⟨fault, hTrue, hFault⟩
    refine ⟨iff_of_true hText hOut, iff_of_false ?_ hOut⟩
    rintro ⟨fault, -, hFault⟩
    rcases hText with ⟨t, -, hOk⟩ | ⟨-, hOk⟩ <;> cases hOk.symm.trans hFault

end ConvertedText

theorem isOutOfRange_of_writeInt (k : Int) (fault : Fault) (h : Text.writeInt k = .error fault) :
    isOutOfRange fault = false := by
  rw [Text.writeInt] at h
  split at h <;> cases h
  rfl

theorem not_outOfRange_ok {α : Type} {a : α} :
    ¬∃ fault, isOutOfRange fault = true ∧ (Except.ok a : Except Fault α) = .error fault := by
  rintro ⟨_, -, h⟩
  cases h

/-- Just the infinite numbers are out of the range of the integers. -/
theorem integerOf?_outOfRange_iff :
    (∃ fault, isOutOfRange fault = true ∧ integerOf? v = .error fault) ↔ v.IsInfinite := by
  cases v with
  | number n =>
    simp only [integerOf?, map_eq_error_iff, Value.IsInfinite]
    by_cases hRational : ∃ q, n.extended? = some (.rational q)
    · obtain ⟨q, hq⟩ := hRational
      rw [Number.toInt_of_rational hq]
      refine iff_of_false not_outOfRange_ok ?_
      rintro (h | h) <;> cases hq.symm.trans h
    · rcases Number.toInt_of_not_rational (not_exists.mp hRational) with
        ⟨hInfinite, hFault⟩ | ⟨hFinite, hFault⟩
      · rcases hFault with h | h <;> exact iff_of_true ⟨_, rfl, h⟩ hInfinite
      · refine iff_of_false ?_ hFinite
        rintro ⟨fault, hOut, hError⟩
        rcases hFault with h | h <;> cases h.symm.trans hError <;> cases hOut
  | _ => exact iff_of_false not_outOfRange_ok not_false

/-- Just the integers beyond the largest float are out of the range of the floats. -/
theorem floatOf?_outOfRange_iff :
    (∃ fault, isOutOfRange fault = true ∧ floatOf? v = .error fault) ↔ v.ExceedsFloats := by
  have hInteger (k : Int) : (∃ fault, isOutOfRange fault = true ∧
      (Binary64.ofInt k).map some = .error fault) ↔ SqlTemplate.ExceedsFloats k := by
    simp only [map_eq_error_iff, Binary64.ofInt_eq_error_iff]
    refine ⟨?_, fun h => ⟨_, rfl, h, rfl⟩⟩
    rintro ⟨_, -, h, -⟩
    exact h
  cases v with
  | bool b => exact iff_of_false (fun h => not_exceedsFloats_bool b ((hInteger _).mp h)) not_false
  | number n =>
    cases n with
    | int k => exact hInteger k
    | float | decimal => exact iff_of_false not_outOfRange_ok not_false
  | _ => exact iff_of_false not_outOfRange_ok not_false

/-- **A value is written as the number it is converted to, or as nothing if there is none, unless
it is out of range.** It is a fault to write an infinite number as an integer or an integer beyond
the largest float as a float. -/
theorem converts_iff (v : Value) :
    (IsOneOrNull (fun t => ∃ k, v.HasInteger k ∧ k.natAbs < 10 ^ Fault.maxDigits ∧ Text.ofInt k = t)
        (int v) ↔ ¬v.IsInfinite) ∧
      ((∃ fault, isOutOfRange fault = true ∧ int v = .error fault) ↔ v.IsInfinite) ∧
      (IsOneOrNull (fun t => ∃ x, v.HasFloat x ∧ x.text = t) (float v) ↔ ¬v.ExceedsFloats) ∧
      ((∃ fault, isOutOfRange fault = true ∧ float v = .error fault) ↔ v.ExceedsFloats) := by
  have hIntTexts (t : Text) :
      (∃ k, v.HasInteger k ∧ k.natAbs < 10 ^ Fault.maxDigits ∧ Text.ofInt k = t) ↔
        ∃ k, integerOf? v = .ok (some k) ∧ Text.writeInt k = .ok t := by
    simp only [integerOf?_eq_ok_some_iff, Text.writeInt_eq_ok_iff]
  have hFloatTexts (t : Text) : (∃ x, v.HasFloat x ∧ x.text = t) ↔
      ∃ x : Binary64, floatOf? v = .ok (some x) ∧ (.ok x.text : Except Fault Text) = .ok t := by
    simp only [floatOf?_eq_ok_some_iff, Except.ok.injEq]
  rw [int_eq_convertedText, float_eq_convertedText]
  obtain ⟨hInt, hIntFault⟩ := isOneOrNull_convertedText_iff hIntTexts isOutOfRange_of_writeInt
    integerOf?_outOfRange_iff
  obtain ⟨hFloat, hFloatFault⟩ := isOneOrNull_convertedText_iff hFloatTexts nofun
    floatOf?_outOfRange_iff
  exact ⟨hInt, hIntFault, hFloat, hFloatFault⟩

/-- A value is not always written as a number or as nothing. -/
theorem not_converts_always : ¬∀ v, (∃ t, int v = .ok t) ∧ ∃ t, float v = .ok t := by
  intro h
  obtain ⟨t, ht⟩ := (h (.number (.float (.infinite false)))).1
  cases ht

end Literal

end SqlTemplate
