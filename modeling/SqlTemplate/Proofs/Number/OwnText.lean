import SqlTemplate.Proofs.Number.Reading

/-!
# Numbers that are read from their own text

However the digits of a float are laid out, **reading its text gives the float back**
(`Number.ofText?_float`), and so it is with an integer that may be written (`Number.ofText?_int`). A
decimal is read as an integer if its exponent is zero (`Number.ofText?_decimal_zero`), and **any
other decimal is read as the float nearest to it** (`Number.ofText?_decimal`).
-/

namespace SqlTemplate

-- Powers are read the same way, whatever else is imported.
attribute [local instance(2000)] instPowNat

/-- What is dropped from the end of digits are zeros, and the exponent counts them. -/
theorem exists_dropTrailingZeros (digits : Text) (exponent : Int) :
    ∃ zeros : Nat,
      digits = (dropTrailingZeros digits exponent).1 ++ List.replicate zeros '0' ∧
        (dropTrailingZeros digits exponent).2 = exponent + zeros := by
  let zeros := digits.reverse.takeWhile (· == '0')
  let front := (digits.reverse.dropWhile (· == '0')).reverse
  have hZeros : zeros = List.replicate zeros.length '0' := by
    refine List.eq_replicate_iff.mpr ⟨rfl, fun c hc => ?_⟩
    exact beq_iff_eq.mp (List.all_eq_true.mp List.all_takeWhile c hc)
  have hDigits : digits = front ++ List.replicate zeros.length '0' := by
    have hSplit : zeros ++ digits.reverse.dropWhile (· == '0') = digits.reverse :=
      List.takeWhile_append_dropWhile
    rw [← List.reverse_inj, List.reverse_append, List.reverse_replicate, List.reverse_reverse,
      ← hZeros, hSplit]
  have hLength : digits.length - zeros.length = front.length := by
    have hSum := congrArg List.length hDigits
    rw [List.length_append, List.length_replicate] at hSum
    omega
  have hFront : digits.take front.length = front := by
    calc digits.take front.length
        = (front ++ List.replicate zeros.length '0').take front.length := by rw [← hDigits]
      _ = front := List.take_left
  refine ⟨zeros.length, ?_, rfl⟩
  rw [dropTrailingZeros, hLength, hFront]
  exact hDigits

/-- Of digits that are not all zero some are left. -/
theorem dropTrailingZeros_ne_nil {digits : Text} (h : Text.natOfDigits digits ≠ 0)
    (exponent : Int) : (dropTrailingZeros digits exponent).1 ≠ [] := by
  intro hNil
  obtain ⟨zeros, hDigits, -⟩ := exists_dropTrailingZeros digits exponent
  rw [hNil, List.nil_append] at hDigits
  exact h (hDigits ▸ Text.natOfDigits_zeros zeros)

namespace Magnitude

/-- What is left is read as the same float. -/
theorem ofDecimal?_dropTrailingZeros (digits : Text) (exponent : Int) :
    ofDecimal? (Text.natOfDigits (dropTrailingZeros digits exponent).1)
        (dropTrailingZeros digits exponent).2 =
      ofDecimal? (Text.natOfDigits digits) exponent := by
  obtain ⟨zeros, hDigits, hExponent⟩ := exists_dropTrailingZeros digits exponent
  generalize dropTrailingZeros digits exponent = dropped at hDigits hExponent
  have hMoved := ofDecimal?_mul_pow (Text.natOfDigits dropped.1) zeros dropped.2
  rw [← Text.natOfDigits_append_zeros, ← hDigits,
    show dropped.2 - zeros = exponent by omega] at hMoved
  exact hMoved.symm

/-- The shortest numeral of a float that is not zero is not zero. -/
theorem shortest_ne_zero {m : Magnitude} (h : m.mantissa ≠ 0) : m.shortest.1 ≠ 0 := by
  intro hZero
  have hRead := m.ofDecimal?_shortest
  rw [hZero, ofDecimal?, if_pos rfl] at hRead
  exact h (congrArg mantissa (Option.some.inj hRead)).symm

theorem eq_zero_of_mantissa {m : Magnitude} (h : m.mantissa = 0) : m = .zero := by
  have hExponent : m.exponent = 0 := by
    refine m.normal.resolve_right ?_
    rw [h]
    decide
  cases m
  cases h
  cases hExponent
  rfl

end Magnitude

/-- The exact value of a decimal as one fraction. -/
theorem Decimal.extended?_finite (negative : Bool) (coefficient : Nat) (exponent : Int) :
    (finite negative coefficient exponent).extended? =
      some (.rational (mkRat
        ((if negative then -(coefficient : Int) else coefficient) * 10 ^ exponent.toNat)
        (10 ^ (-exponent).toNat))) := by
  rw [extended?]
  split
  next hNonneg => rw [show (-exponent).toNat = 0 by omega, Nat.pow_zero, Rat.mkRat_one]
  next hNeg => rw [show exponent.toNat = 0 by omega, Int.pow_zero, Int.mul_one]

/-- Zeros that are moved from the coefficient into the exponent do not change the value. -/
theorem Decimal.extended?_of_zeros (negative : Bool) (coefficient zeros : Nat) (exponent : Int) :
    (finite negative (coefficient * 10 ^ zeros) (exponent - zeros)).extended? =
      (finite negative coefficient exponent).extended? := by
  have hCross := congrArg (Nat.cast (R := Int))
    (Magnitude.mul_pow_cross coefficient zeros exponent 1)
  simp only [Int.natCast_mul, Int.natCast_pow, Nat.mul_one] at hCross
  rw [extended?_finite, extended?_finite, Option.some.injEq, Extended.rational.injEq,
    Rat.mkRat_eq_iff (Nat.ne_of_gt (Magnitude.ten_pow_pos _))
      (Nat.ne_of_gt (Magnitude.ten_pow_pos _))]
  simp only [Int.natCast_mul, Int.natCast_pow]
  cases negative with
  | false => exact hCross
  | true =>
    simp only [if_true, Int.neg_mul]
    exact congrArg Neg.neg hCross

/-- A decimal with the exponent zero is written as an integer. -/
theorem Decimal.numeral_zero (coefficient : Nat) :
    numeral coefficient 0 = Text.ofNat coefficient := by
  have hLeading : (-6 : Int) < (Text.ofNat coefficient).length := by omega
  simp [numeral, hLeading, Text.ofNat_ne_nil]

namespace Numeral

/-- The exponent that is written behind a decimal. -/
theorem isExponent_power (power : Int) :
    IsExponent
      (if power = 0 then []
        else 'E' :: (if power < 0 then '-' else '+') :: Text.ofNat power.natAbs)
      (if power = 0 then none else some power) := by
  split
  · exact .absent
  · exact .marked (.inr rfl) (Text.ofNat_ne_nil _) (fun _ hc => Text.isDigit_of_mem_ofNat hc)
      (Text.natOfDigits_ofNat _)

theorem getD_power (power : Int) : (if power = 0 then none else some power).getD 0 = power := by
  split
  next h => exact h.symm
  next => rfl

/-! ### Floats -/

variable {digits : Text}

/-- Digits in front of the point, with zeros behind them. -/
theorem writes_beforePoint (negative : Bool) (zeros : Nat) (hne : digits ≠ [])
    (hDigits : ∀ c ∈ digits, c.isDigit = true) :
    Writes (signText negative ++ (digits ++ List.replicate zeros '0' ++ ['.', '0']))
      negative (Text.natOfDigits digits) zeros := by
  have hWhole : ∀ c ∈ digits ++ List.replicate zeros '0', c.isDigit = true := by
    intro c hc
    exact (List.mem_append.mp hc).elim (hDigits c) Text.isDigit_of_mem_zeros
  have hFraction : ∀ c ∈ ['0'], c.isDigit = true :=
    fun c hc => Text.isDigit_of_mem_zeros (show c ∈ List.replicate 1 '0' from hc)
  have hValue : Text.natOfDigits (digits ++ List.replicate zeros '0' ++ ['0']) =
      Text.natOfDigits digits * 10 ^ (zeros + 1) := by
    rw [← Text.natOfDigits_append_zeros, List.replicate_succ', ← List.append_assoc]
  refine ⟨⟨negative, digits ++ List.replicate zeros '0', some ['0'], none⟩, [], zeros + 1, ?_,
    ⟨⟨List.append_ne_nil_of_left_ne_nil hne _, hWhole, hFraction, .absent⟩, nofun⟩, rfl, rfl,
    hValue, ?_⟩
  · rfl
  · simp only [scale, Option.getD_none, Option.getD_some, List.length_singleton]
    omega

/-- However its digits are laid out around the point, a number is written in a numeral. -/
theorem writes_positional (negative : Bool) (hne : digits ≠ [])
    (hDigits : ∀ c ∈ digits, c.isDigit = true) (point : Int) :
    Writes (signText negative ++ Binary64.positional digits point)
      negative (Text.natOfDigits digits) (point - digits.length) := by
  rw [Binary64.positional]
  split
  next hBehind =>
    have hWrites := writes_behindPoint negative (-point).toNat hne hDigits .absent
    have hScale : none.getD 0 - ((-point).toNat + digits.length : Nat) = point - digits.length := by
      simp only [Option.getD_none]
      omega
    rwa [List.append_nil, hScale] at hWrites
  next hPoint =>
    split
    next hBefore =>
      have hWrites := writes_beforePoint negative (point - digits.length).toNat hne hDigits
      rwa [Int.toNat_of_nonneg (Int.sub_nonneg_of_le hBefore)] at hWrites
    next hAround =>
      have hInside : 0 < point.toNat ∧ point.toNat < digits.length := by omega
      have hWrites := writes_aroundPoint negative hInside.1 hInside.2 hDigits .absent
      have hScale : none.getD 0 - (digits.length - point.toNat : Nat) = point - digits.length := by
        simp only [Option.getD_none]
        omega
      rwa [List.append_nil, hScale] at hWrites

/-- A number with an exponent is written in a numeral. -/
theorem writes_scientific (negative : Bool) (hne : digits ≠ [])
    (hDigits : ∀ c ∈ digits, c.isDigit = true) (exponent : Int) :
    Writes (signText negative ++ Binary64.scientific digits exponent)
      negative (Text.natOfDigits digits) (exponent + 1 - digits.length) := by
  have hTail : IsExponent
      ('e' :: (if exponent < 0 then '-' else '+') :: Text.ofNatPadded 2 exponent.natAbs)
      (some exponent) :=
    .marked (.inl rfl) (List.append_ne_nil_of_right_ne_nil _ (Text.ofNat_ne_nil _))
      (fun _ => Text.isDigit_of_mem_ofNatPadded) (Text.natOfDigits_ofNatPadded 2 _)
  have hPos : 0 < digits.length := List.length_pos_iff.mpr hne
  rw [Binary64.scientific]
  by_cases hOne : (digits.drop 1).isEmpty
  · have hLength : digits.length = 1 := by
      rw [List.isEmpty_iff, List.drop_eq_nil_iff] at hOne
      omega
    have hTake : digits.take 1 = digits := by
      rw [← hLength]
      exact List.take_length
    have hWrites := writes_beforeExponent negative hne hDigits hTail
    rwa [if_pos hOne, hTake, List.append_nil, hLength,
      show exponent + 1 - (1 : Nat) = exponent by omega]
  · have hLess : 1 < digits.length := by
      rw [List.isEmpty_iff, List.drop_eq_nil_iff] at hOne
      omega
    have hWrites := writes_aroundPoint negative Nat.one_pos hLess hDigits hTail
    have hScale : (some exponent).getD 0 - (digits.length - 1 : Nat) =
        exponent + 1 - digits.length := by
      simp only [Option.getD_some]
      omega
    rwa [if_neg hOne, ← hScale]

/-- Wherever the point stands, a number is written in a numeral. -/
theorem writes_laidOut (negative : Bool) (hne : digits ≠ [])
    (hDigits : ∀ c ∈ digits, c.isDigit = true) (exponent : Int) :
    Writes (signText negative ++
        let point := digits.length + exponent
        if -4 < point ∧ point ≤ 16 then Binary64.positional digits point
        else Binary64.scientific digits (point - 1))
      negative (Text.natOfDigits digits) exponent := by
  dsimp only
  split
  · have hWrites := writes_positional negative hne hDigits (digits.length + exponent)
    rwa [show (digits.length : Int) + exponent - digits.length = exponent by omega] at hWrites
  · have hWrites := writes_scientific negative hne hDigits (digits.length + exponent - 1)
    rwa [show (digits.length : Int) + exponent - 1 + 1 - digits.length = exponent by omega]
      at hWrites

/-- **A float is written in a numeral that is read as this float.** -/
theorem exists_writes_float (negative : Bool) (m : Magnitude) :
    ∃ digits scale, Writes (Binary64.finite negative m).text negative digits scale ∧
      Binary64.ofDecimal negative digits scale = .finite negative m := by
  change ∃ digits scale, Writes (signText negative ++ Binary64.magnitudeText m) _ _ _ ∧ _
  rw [Binary64.magnitudeText]
  split
  next hZero =>
    have hDigits : ∀ c ∈ ['0'], c.isDigit = true := List.forall_mem_singleton.mpr rfl
    refine ⟨_, _, writes_beforePoint negative 0 (List.cons_ne_nil '0' []) hDigits, ?_⟩
    rw [Magnitude.eq_zero_of_mantissa hZero]
    rfl
  next hMantissa =>
    have hNonzero := Magnitude.shortest_ne_zero hMantissa
    have hShortest := m.ofDecimal?_shortest
    generalize m.shortest = shortest at hNonzero hShortest
    have hValue : Text.natOfDigits (Text.ofNat shortest.1) ≠ 0 := by
      rwa [Text.natOfDigits_ofNat]
    have hDigits : ∀ c ∈ (dropTrailingZeros (Text.ofNat shortest.1) shortest.2).1,
        c.isDigit = true :=
      fun _ hc => Text.isDigit_of_mem_ofNat (List.mem_of_mem_take hc)
    refine ⟨_, (dropTrailingZeros (Text.ofNat shortest.1) shortest.2).2,
      writes_laidOut negative (dropTrailingZeros_ne_nil hValue _) hDigits _, ?_⟩
    rw [Binary64.ofDecimal, Magnitude.ofDecimal?_dropTrailingZeros, Text.natOfDigits_ofNat,
      hShortest]
    rfl

/-! ### Decimals -/

/-- **A decimal whose exponent is not zero is written in a numeral.** -/
theorem writes_decimal (negative : Bool) (coefficient : Nat) {exponent : Int} (h : exponent ≠ 0) :
    Writes (Decimal.finite negative coefficient exponent).text negative coefficient exponent := by
  have hne := Text.ofNat_ne_nil coefficient
  have hDigits : ∀ c ∈ Text.ofNat coefficient, c.isDigit = true :=
    fun _ hc => Text.isDigit_of_mem_ofNat hc
  have hPos : 0 < (Text.ofNat coefficient).length := List.length_pos_iff.mpr hne
  change Writes (signText negative ++ Decimal.numeral coefficient exponent) _ _ _
  rw [Decimal.numeral]
  generalize hPoint : (if exponent ≤ 0 ∧ -6 < ((Text.ofNat coefficient).length : Int) + exponent
    then ((Text.ofNat coefficient).length : Int) + exponent else 1) = point
  have hTail := isExponent_power ((Text.ofNat coefficient).length + exponent - point)
  have hPower := getD_power ((Text.ofNat coefficient).length + exponent - point)
  split
  next hBehind =>
    have hWrites := writes_behindPoint negative (-point).toNat hne hDigits hTail
    rw [hPower, Text.natOfDigits_ofNat] at hWrites
    convert hWrites using 1
    omega
  next =>
    split
    next hBefore =>
      -- The point stands right behind the digits, so a power has to follow.
      have hOne : point = (Text.ofNat coefficient).length := by
        split at hPoint <;> omega
      have hNonzero : ((Text.ofNat coefficient).length : Int) + exponent - point ≠ 0 := by omega
      rw [if_neg hNonzero, if_neg hNonzero] at hTail
      have hWrites := writes_beforeExponent negative hne hDigits hTail
      rw [Text.natOfDigits_ofNat] at hWrites
      rw [if_neg hNonzero, show (point - (Text.ofNat coefficient).length).toNat = 0 by omega,
        List.replicate_zero, List.append_nil]
      convert hWrites using 1
      omega
    next hAround =>
      have hInside : 0 < point.toNat ∧ point.toNat < (Text.ofNat coefficient).length := by omega
      have hWrites := writes_aroundPoint negative hInside.1 hInside.2 hDigits hTail
      rw [hPower, Text.natOfDigits_ofNat] at hWrites
      convert hWrites using 1
      omega

end Numeral

namespace Number

open Numeral

/-! ### Numbers and their texts -/

/-- **A float is read from its own text.** -/
theorem ofText?_float (negative : Bool) (m : Magnitude) :
    ofText? (Binary64.finite negative m).text = some (float (.finite negative m)) := by
  obtain ⟨digits, scale, hWrites, hFloat⟩ := exists_writes_float negative m
  rw [ofText?_of_writes hWrites, hFloat]

/-- **An integer that may be written is read from its own text.** -/
theorem ofText?_int {n : Int} (h : n.natAbs < 10 ^ Fault.maxDigits) :
    ofText? (Text.ofInt n) = some (int n) := by
  have hText : Text.ofInt n = signText (decide (n < 0)) ++ Text.ofNat n.natAbs := by
    by_cases hn : n < 0 <;> simp [Text.ofInt, signText, hn]
  have hOk : (Text.writeInt (n.natAbs : Int)).isOk := by
    rw [Text.writeInt, Int.natAbs_natCast, if_neg (Nat.not_le.mpr h)]
    rfl
  rw [hText, ofText?_digits _ (Text.ofNat_ne_nil _) fun _ hc => Text.isDigit_of_mem_ofNat hc,
    Text.readNat_of_isOk hOk]
  simp only [Except.toOption, Option.map_some, decide_eq_true_eq, Option.some.injEq, int.injEq]
  split <;> omega

/-- A decimal with the exponent zero is read as an integer, if it does not have too many digits. -/
theorem ofText?_decimal_zero (negative : Bool) (coefficient : Nat) :
    ofText? (Decimal.finite negative coefficient 0).text =
      (Text.readNat (Text.ofNat coefficient)).toOption.map fun n : Nat =>
        int (if negative then -(n : Int) else n) := by
  change ofText? (signText negative ++ Decimal.numeral coefficient 0) = _
  rw [Decimal.numeral_zero]
  exact ofText?_digits negative (Text.ofNat_ne_nil _) fun _ hc => Text.isDigit_of_mem_ofNat hc

/-- **Any other decimal is read as the float nearest to it.** -/
theorem ofText?_decimal (negative : Bool) (coefficient : Nat) {exponent : Int} (h : exponent ≠ 0) :
    ofText? (Decimal.finite negative coefficient exponent).text =
      some (float (.ofDecimal negative coefficient exponent)) :=
  ofText?_of_writes (writes_decimal negative coefficient h)

end Number

end SqlTemplate
