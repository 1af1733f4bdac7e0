import SqlTemplate.Number.Fault
import SqlTemplate.Text.Blank

/-!
# Numbers in decimal, written and read

A number is written with the digits of ASCII. Each of them is a decimal digit and stands for its
distance from `0`, so **reading what was written gives the number back** (`natOfDigits_ofNat`). A
row of digits stands for less than its length allows (`natOfDigits_lt`), and what may be written may
also be read (`readNat_of_isOk`).
-/

namespace SqlTemplate

-- Powers are read the same way, whatever else is imported.
attribute [local instance(2000)] instPowNat

namespace Text

theorem range_of_ascii {c : Char} (h : c.isDigit = true) : 48 ≤ c.toNat ∧ c.toNat < 58 := by
  simp only [Char.isDigit, Bool.and_eq_true, decide_eq_true_eq, ge_iff_le, UInt32.le_iff_toNat_le]
    at h
  exact ⟨h.1, Nat.lt_succ_of_le h.2⟩

/-- The row of ASCII is the first one that is looked at. -/
theorem digitValue?_of_ascii {c : Char} (h : c.isDigit = true) :
    digitValue? c = some (c.toNat - 48) := by
  obtain ⟨hLow, hHigh⟩ := range_of_ascii h
  simp [digitValue?, zeros, hLow, hHigh]

theorem isDigit_of_ascii {c : Char} (h : c.isDigit = true) : isDigit c = true := by
  rw [isDigit, digitValue?_of_ascii h, Option.isSome_some]

theorem exists_zero_of_isDigit {c : Char} (h : isDigit c = true) :
    ∃ z ∈ zeros, ∃ k < 10, c.toNat = z + k := by
  simp only [isDigit, digitValue?, Option.isSome_map, List.find?_isSome, Bool.and_eq_true,
    decide_eq_true_eq] at h
  obtain ⟨z, hz, hLow, hHigh⟩ := h
  exact ⟨z, hz, c.toNat - z, by omega, by omega⟩

/-- No digit of any script is blank. -/
theorem isBlank_of_isDigit {c : Char} (h : isDigit c = true) : isBlank c = false := by
  have hApart : ∀ z ∈ zeros, ∀ k < 10, isBlank (Char.ofNat (z + k)) = false := by
    decide +kernel
  obtain ⟨z, hz, k, hk, hc⟩ := exists_zero_of_isDigit h
  rw [← Char.ofNat_toNat c, hc]
  exact hApart z hz k hk

/-- The digits of ASCII come before the letters, those of other scripts far behind. -/
theorem isDigit_eq_false_of_range {c : Char} (hLow : 58 ≤ c.toNat) (hHigh : c.toNat < 128) :
    isDigit c = false := by
  have hZeros : ∀ z ∈ zeros, z + 10 ≤ 58 ∨ 128 ≤ z := by decide
  have hNone : (zeros.find? fun z => z ≤ c.toNat && c.toNat < z + 10) = none := by
    rw [List.find?_eq_none]
    intro z hz
    have := hZeros z hz
    simp only [Bool.and_eq_true, decide_eq_true_eq]
    omega
  rw [isDigit, digitValue?, hNone]
  rfl

/-- On digits of ASCII the value is the one that the usual reading gives. -/
theorem natOfDigits_of_ascii {digits : Text} (h : ∀ c ∈ digits, c.isDigit = true) :
    natOfDigits digits = Nat.ofDigitChars 10 digits 0 := by
  have key (n : Nat) : digits.foldl (fun n c => 10 * n + (digitValue? c).getD 0) n =
      Nat.ofDigitChars 10 digits n := by
    induction digits generalizing n with
    | nil => rfl
    | cons c digits ih =>
      rw [List.foldl_cons, digitValue?_of_ascii (h c List.mem_cons_self), Nat.ofDigitChars_cons]
      exact ih (fun d hd => h d (List.mem_cons_of_mem c hd)) _
  exact key 0

theorem isDigit_of_mem_ofNat {n : Nat} {c : Char} (h : c ∈ ofNat n) : c.isDigit = true :=
  Nat.isDigit_of_mem_toDigits (by decide) (by decide) h

theorem ofNat_ne_nil (n : Nat) : ofNat n ≠ [] := Nat.toDigits_ne_nil

/-- **A number that is written in decimal can be read back.** -/
theorem natOfDigits_ofNat (n : Nat) : natOfDigits (ofNat n) = n := by
  rw [natOfDigits_of_ascii fun _ => isDigit_of_mem_ofNat]
  exact Nat.ofDigitChars_ten_toDigits

/-! ### Rows of digits -/

theorem isDigit_of_mem_zeros {c : Char} {count : Nat} (h : c ∈ List.replicate count '0') :
    c.isDigit = true := by
  rw [List.eq_of_mem_replicate h]
  rfl

theorem isDigit_of_mem_ofNatPadded {width n : Nat} {c : Char} (h : c ∈ ofNatPadded width n) :
    c.isDigit = true :=
  (List.mem_append.mp h).elim isDigit_of_mem_zeros isDigit_of_mem_ofNat

/-- Digits in front count as many times ten as digits stand behind them. -/
theorem natOfDigits_append (front back : Text) :
    natOfDigits (front ++ back) = natOfDigits front * 10 ^ back.length + natOfDigits back := by
  have key (n : Nat) : back.foldl (fun n c => 10 * n + (digitValue? c).getD 0) n =
      n * 10 ^ back.length + natOfDigits back := by
    induction back generalizing n with
    | nil => simp [natOfDigits]
    | cons c back ih =>
      have hHead : natOfDigits (c :: back) =
          (digitValue? c).getD 0 * 10 ^ back.length + natOfDigits back := by
        rw [natOfDigits, List.foldl_cons, ih, Nat.mul_zero, Nat.zero_add]
      have hShift : 10 * n * 10 ^ back.length = n * 10 ^ (back.length + 1) := by
        rw [Nat.pow_succ]
        ac_rfl
      rw [List.foldl_cons, ih, hHead, List.length_cons, Nat.add_mul, hShift, Nat.add_assoc]
  rw [natOfDigits, List.foldl_append, ← natOfDigits, key]

theorem getD_digitValue?_lt (c : Char) : (digitValue? c).getD 0 < 10 := by
  rw [digitValue?]
  cases hFind : zeros.find? fun z => z ≤ c.toNat && c.toNat < z + 10 with
  | none => exact Nat.succ_pos 9
  | some z =>
    have hRange := List.find?_some hFind
    rw [Bool.and_eq_true, decide_eq_true_eq, decide_eq_true_eq] at hRange
    rw [Option.map_some, Option.getD_some]
    omega

/-- A row of digits stands for less than its length allows. -/
theorem natOfDigits_lt (digits : Text) : natOfDigits digits < 10 ^ digits.length := by
  induction digits with
  | nil => exact Nat.one_pos
  | cons c digits ih =>
    have hFirst : natOfDigits [c] < 10 := by
      rw [natOfDigits, List.foldl_cons, List.foldl_nil, Nat.mul_zero, Nat.zero_add]
      exact getD_digitValue?_lt c
    calc natOfDigits (c :: digits)
        = natOfDigits [c] * 10 ^ digits.length + natOfDigits digits := natOfDigits_append [c] digits
      _ < (natOfDigits [c] + 1) * 10 ^ digits.length := by
          rw [Nat.succ_mul]
          exact Nat.add_lt_add_left ih _
      _ ≤ 10 * 10 ^ digits.length := Nat.mul_le_mul_right _ hFirst
      _ = 10 ^ (c :: digits).length := by rw [List.length_cons, Nat.pow_succ, Nat.mul_comm]

theorem natOfDigits_zeros (count : Nat) : natOfDigits (List.replicate count '0') = 0 := by
  induction count with
  | zero => rfl
  | succ count ih =>
    rw [List.replicate_succ, ← List.singleton_append, natOfDigits_append, ih]
    exact Nat.zero_mul _

/-- Zeros in front count nothing. -/
theorem natOfDigits_zeros_append (count : Nat) (digits : Text) :
    natOfDigits (List.replicate count '0' ++ digits) = natOfDigits digits := by
  rw [natOfDigits_append, natOfDigits_zeros, Nat.zero_mul, Nat.zero_add]

/-- A zero behind counts ten times. -/
theorem natOfDigits_append_zeros (digits : Text) (count : Nat) :
    natOfDigits (digits ++ List.replicate count '0') = natOfDigits digits * 10 ^ count := by
  rw [natOfDigits_append, natOfDigits_zeros, List.length_replicate, Nat.add_zero]

theorem natOfDigits_ofNatPadded (width n : Nat) : natOfDigits (ofNatPadded width n) = n := by
  rw [ofNatPadded, natOfDigits_zeros_append, natOfDigits_ofNat]

/-! ### The limit of digits -/

/-- An integer is written by its digits, if these are not too many. -/
theorem writeInt_eq_ok_iff {n : Int} {text : Text} :
    writeInt n = .ok text ↔ n.natAbs < 10 ^ Fault.maxDigits ∧ ofInt n = text := by
  rw [writeInt]
  split
  next hLong => exact iff_of_false nofun fun h => Nat.not_le.mpr h.1 hLong
  next hShort => rw [Except.ok.injEq, and_iff_right (Nat.not_le.mp hShort)]

/-- What may be written has no more digits than may be read. -/
theorem readNat_of_isOk {n : Nat} (h : (writeInt n).isOk) : readNat (ofNat n) = .ok n := by
  have hLimit : ¬Fault.maxDigits < (ofNat n).length := by
    intro hLong
    rw [writeInt] at h
    split at h
    · cases h
    next hSmall =>
      have hLength : (ofNat n).length ≤ Fault.maxDigits :=
        (Nat.length_toDigits_le_iff (by decide) (by decide)).mpr (Nat.lt_of_not_le hSmall)
      omega
  rw [readNat, if_neg hLimit, natOfDigits_ofNat]

end Text

end SqlTemplate
