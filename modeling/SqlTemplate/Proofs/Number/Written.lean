import SqlTemplate.Number.Basic
import SqlTemplate.Proofs.Text.Decimal

/-!
# The characters of a written number

An integer is written with digits and a minus sign, a float also with a point, an exponent or the
name of what is no number. **Whatever the number is, no other character occurs**
(`Text.all_ofInt`, `Binary64.all_text`), a quote least of all.
-/

namespace SqlTemplate

namespace Text

/-- Whether a character may occur in a written integer or float. -/
def isNumeralChar (c : Char) : Bool :=
  c.isDigit || ['+', '-', '.', 'e', 'i', 'n', 'f', 'a'].contains c

variable {text : Text}

theorem notMem_of_all {c : Char} (h : text.all isNumeralChar) (hc : isNumeralChar c = false) :
    c ∉ text := by
  intro hMem
  have hChar := List.all_eq_true.mp h c hMem
  rw [hc] at hChar
  cases hChar

theorem all_ofNat (n : Nat) : (ofNat n).all isNumeralChar := by
  rw [List.all_eq_true]
  intro c hc
  rw [isNumeralChar, isDigit_of_mem_ofNat hc, Bool.true_or]

/-- **An integer is written with digits and a sign.** -/
theorem all_ofInt (n : Int) : (ofInt n).all isNumeralChar := by
  rw [ofInt]
  split
  · rw [List.all_cons, all_ofNat]
    rfl
  · exact all_ofNat _

theorem all_zeros (count : Nat) : (List.replicate count '0').all isNumeralChar := by
  rw [List.all_replicate]
  split <;> rfl

theorem all_ofNatPadded (width n : Nat) : (ofNatPadded width n).all isNumeralChar := by
  rw [ofNatPadded, List.all_append, all_zeros, all_ofNat]
  rfl

theorem all_take (h : text.all isNumeralChar) (count : Nat) :
    (text.take count).all isNumeralChar := by
  rw [List.all_eq_true] at h ⊢
  exact fun c hc => h c (List.mem_of_mem_take hc)

theorem all_drop (h : text.all isNumeralChar) (count : Nat) :
    (text.drop count).all isNumeralChar := by
  rw [List.all_eq_true] at h ⊢
  exact fun c hc => h c (List.mem_of_mem_drop hc)

end Text

namespace Binary64

open Text

variable {digits : Text}

theorem all_positional (h : digits.all isNumeralChar) (point : Int) :
    (positional digits point).all isNumeralChar := by
  have hZero : isNumeralChar '0' = true := rfl
  have hPoint : isNumeralChar '.' = true := rfl
  rw [positional]
  split
  · simp only [List.cons_append, List.all_cons, List.all_append, hZero, hPoint, all_zeros, h,
      Bool.and_self]
  · split
    · simp only [List.all_cons, List.all_append, List.all_nil, hZero, hPoint, all_zeros, h,
        Bool.and_self]
    · simp only [List.all_cons, List.all_append, hPoint, all_take h, all_drop h, Bool.and_self]

theorem all_scientific (h : digits.all isNumeralChar) (exponent : Int) :
    (scientific digits exponent).all isNumeralChar := by
  have hFraction : (if (digits.drop 1).isEmpty then [] else '.' :: digits.drop 1).all
      isNumeralChar := by
    split
    · rfl
    · rw [List.all_cons, all_drop h]
      rfl
  have hSign : isNumeralChar (if exponent < 0 then '-' else '+') = true := by
    split <;> rfl
  have hExponent : isNumeralChar 'e' = true := rfl
  simp only [scientific, List.all_append, List.all_cons, all_take h, hFraction, hExponent, hSign,
    all_ofNatPadded, Bool.and_self]

theorem all_magnitudeText (m : Magnitude) : (magnitudeText m).all isNumeralChar := by
  rw [magnitudeText]
  split
  · rfl
  · have hDigits : (dropTrailingZeros (ofNat m.shortest.1) m.shortest.2).1.all isNumeralChar :=
      all_take (all_ofNat _) _
    dsimp only
    split
    · exact all_positional hDigits _
    · exact all_scientific hDigits _

/-- **A float is written with the characters of a numeral or a name.** -/
theorem all_text (x : Binary64) : x.text.all isNumeralChar := by
  cases x with
  | finite negative m =>
    rw [text, List.all_append, all_magnitudeText]
    cases negative <;> rfl
  | infinite negative => cases negative <;> rfl
  | nan => rfl

end Binary64

end SqlTemplate
