import SqlTemplate.Text.Search

/-!
# Blank characters

The characters that separate tokens in a condition and that are ignored around a numeral: the
spaces and line ends of Unicode and the four information separators of ASCII.
-/

namespace SqlTemplate

namespace Text

/-- Whether a character is blank. -/
def isBlank (c : Char) : Bool :=
  let n := c.toNat
  (0x9 ≤ n && n ≤ 0xd) || (0x1c ≤ n && n ≤ 0x20) || n == 0x85 || n == 0xa0 || n == 0x1680 ||
    (0x2000 ≤ n && n ≤ 0x200a) || n == 0x2028 || n == 0x2029 || n == 0x202f || n == 0x205f ||
    n == 0x3000

/-- A text without the blanks at its beginning and its end. -/
def strip (text : Text) : Text :=
  ((text.dropWhile isBlank).reverse.dropWhile isBlank).reverse

/-- Of ASCII, only characters up to the space are blank. -/
theorem isBlank_eq_false_of_range {c : Char} (hLow : 33 ≤ c.toNat) (hHigh : c.toNat < 128) :
    isBlank c = false := by
  simp only [isBlank, Bool.or_eq_false_iff, Bool.and_eq_false_iff, decide_eq_false_iff_not,
    beq_eq_false_iff_ne]
  omega

/-- Nothing is taken off a text without blanks. -/
theorem strip_eq_self {text : Text} (h : ∀ c ∈ text, isBlank c = false) : text.strip = text := by
  have hDrop (s : Text) (hs : ∀ c ∈ s, isBlank c = false) : s.dropWhile isBlank = s := by
    cases s with
    | nil => rfl
    | cons c rest =>
      exact List.dropWhile_cons_of_neg (ne_true_of_eq_false (hs c List.mem_cons_self))
  rw [strip, hDrop text h, hDrop text.reverse fun c hc => h c (List.mem_reverse.mp hc),
    List.reverse_reverse]

end Text

end SqlTemplate
