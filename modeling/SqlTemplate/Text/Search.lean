/-!
# Texts and searching in them

A text is the list of its characters, so an offset counts characters and the functions on
texts are the functions on lists. This module holds the search for a piece of text: its first
occurrence, from the beginning (`find?`) or from an offset on (`findFrom?`), and the rule for
an offset that is negative (`resolveOffset`).
-/

namespace SqlTemplate

/-- A text is its sequence of characters. -/
abbrev Text := List Char

namespace Text

/-- Offset of the first occurrence of `piece`; the empty piece occurs everywhere. -/
def find? (text piece : Text) : Option Nat :=
  match text with
  | [] => if piece.isEmpty then some 0 else none
  | c :: rest => if piece.isPrefixOf (c :: rest) then some 0 else (find? rest piece).map (· + 1)

/-- Offset of the first occurrence of `piece` at or after `start`; nothing occurs at a start
beyond the end of the text, not even the empty piece. -/
def findFrom? (text piece : Text) (start : Nat) : Option Nat :=
  if text.length < start then none else (find? (text.drop start) piece).map (· + start)

/-- A negative offset counts from the end of the text, and stops at its beginning. -/
def resolveOffset (text : Text) (offset : Int) : Nat :=
  if offset < 0 then (text.length + offset).toNat else offset.toNat

/-- The characters at the offsets from `start` up to, but not including, `stop`. -/
def slice (text : Text) (start stop : Nat) : Text := (text.take stop).drop start

theorem find?_nil_piece (text : Text) : find? text [] = some 0 := by
  cases text <;> simp [find?]

/-- What is found is there. -/
theorem prefix_drop_of_find? {text piece : Text} {n : Nat} (h : find? text piece = some n) :
    piece <+: text.drop n := by
  induction text generalizing n with
  | nil =>
    simp only [find?] at h
    split at h
    · simp_all
    · simp at h
  | cons c rest ih =>
    simp only [find?] at h
    split at h
    · simp only [Option.some.injEq] at h
      subst h
      simpa using List.isPrefixOf_iff_prefix.1 ‹_›
    · obtain ⟨m, hm, rfl⟩ := Option.map_eq_some_iff.1 h
      simpa using ih hm

/-- What is found is not found earlier. -/
theorem not_infix_take_of_find? {text piece : Text} {n : Nat} (hne : piece ≠ [])
    (h : find? text piece = some n) : ¬piece <:+: text.take n := by
  induction text generalizing n with
  | nil => simpa using hne
  | cons c rest ih =>
    simp only [find?] at h
    split at h
    · cases h
      simpa using hne
    next hPrefix =>
      obtain ⟨m, hm, rfl⟩ := Option.map_eq_some_iff.mp h
      rw [List.take_succ_cons, List.infix_cons_iff, not_or]
      refine ⟨fun hc => hPrefix ?_, ih hm⟩
      exact List.isPrefixOf_iff_prefix.mpr
        (hc.trans (List.cons_prefix_cons.mpr ⟨rfl, List.take_prefix m rest⟩))

/-- An occurrence lies inside the text. -/
theorem add_length_le_of_find? {text piece : Text} {n : Nat} (h : find? text piece = some n) :
    n + piece.length ≤ text.length := by
  induction text generalizing n with
  | nil =>
    simp only [find?] at h
    split at h
    · simp only [Option.some.injEq] at h
      simp_all [← h]
    · simp at h
  | cons c rest ih =>
    simp only [find?] at h
    split at h
    · simp only [Option.some.injEq] at h
      subst h
      have := (List.isPrefixOf_iff_prefix.1 ‹_›).length_le
      omega
    · obtain ⟨m, hm, rfl⟩ := Option.map_eq_some_iff.1 h
      have := ih hm
      simp only [List.length_cons]
      omega

/-- A text in which a piece is found is what stands before its first occurrence, the piece and what
follows. -/
theorem exists_append_of_find? {text piece : Text} {n : Nat} (hne : piece ≠ [])
    (h : find? text piece = some n) :
    ∃ front rest, text = front ++ (piece ++ rest) ∧ front.length = n ∧ ¬piece <:+: front := by
  obtain ⟨rest, hRest⟩ := prefix_drop_of_find? h
  have hLength := add_length_le_of_find? h
  refine ⟨text.take n, rest, ?_, ?_, not_infix_take_of_find? hne h⟩
  · rw [hRest, List.take_append_drop]
  · rw [List.length_take, Nat.min_eq_left (by omega)]

/-- What stands in a text is found. -/
theorem exists_append_of_infix {text piece : Text} (hne : piece ≠ []) (h : piece <:+: text) :
    ∃ front rest, text = front ++ (piece ++ rest) ∧ ¬piece <:+: front := by
  suffices hFound : find? text piece ≠ none by
    obtain ⟨n, hFind⟩ := Option.ne_none_iff_exists'.mp hFound
    obtain ⟨front, rest, hText, -, hFirst⟩ := exists_append_of_find? hne hFind
    exact ⟨front, rest, hText, hFirst⟩
  induction text with
  | nil => exact absurd (List.infix_nil.mp h) hne
  | cons c rest ih =>
    rw [find?]
    split
    · exact Option.some_ne_none 0
    next hPrefix =>
      rw [Ne, Option.map_eq_none_iff]
      rw [List.isPrefixOf_iff_prefix] at hPrefix
      exact ih ((List.infix_cons_iff.mp h).resolve_left hPrefix)

/-- What is found stands nowhere before. -/
theorem not_prefix_drop_of_find? {text piece : Text} {n k : Nat} (h : find? text piece = some n)
    (hk : k < n) : ¬piece <+: text.drop k := by
  induction text generalizing n k with
  | nil =>
    simp only [find?] at h
    split at h
    · cases h
      exact absurd hk (Nat.not_lt_zero k)
    · cases h
  | cons c rest ih =>
    simp only [find?] at h
    split at h
    · cases h
      exact absurd hk (Nat.not_lt_zero k)
    next hPrefix =>
      obtain ⟨m, hm, rfl⟩ := Option.map_eq_some_iff.mp h
      cases k with
      | zero => rwa [List.drop_zero, ← List.isPrefixOf_iff_prefix]
      | succ k => exact ih hm (Nat.lt_of_succ_lt_succ hk)

/-- What is not found stands nowhere. -/
theorem not_prefix_drop_of_find?_eq_none {text piece : Text} (h : find? text piece = none)
    (k : Nat) : ¬piece <+: text.drop k := by
  induction text generalizing k with
  | nil =>
    rw [List.drop_nil, List.prefix_nil]
    rintro rfl
    cases h
  | cons c rest ih =>
    simp only [find?] at h
    split at h
    · cases h
    next hPrefix =>
      cases k with
      | zero => rwa [List.drop_zero, ← List.isPrefixOf_iff_prefix]
      | succ k => exact ih (Option.map_eq_none_iff.mp h) k

/-- A search from an offset finds the first occurrence from there on. -/
theorem findFrom?_eq_some {text piece : Text} {start n : Nat}
    (h : findFrom? text piece start = some n) :
    start ≤ n ∧ piece <+: text.drop n ∧
      ∀ k, start ≤ k → k < n → ¬piece <+: text.drop k := by
  simp only [findFrom?] at h
  split at h
  · cases h
  · obtain ⟨m, hm, rfl⟩ := Option.map_eq_some_iff.mp h
    refine ⟨Nat.le_add_left start m, ?_, fun k hStart hk => ?_⟩
    · rw [Nat.add_comm, ← List.drop_drop]
      exact prefix_drop_of_find? hm
    · have hNone := not_prefix_drop_of_find? hm (k := k - start) (by omega)
      rwa [List.drop_drop, Nat.add_sub_cancel' hStart] at hNone

/-- If it finds nothing there is no occurrence from there on. -/
theorem findFrom?_eq_none {text piece : Text} {start k : Nat}
    (h : findFrom? text piece start = none) (hne : piece ≠ []) (hk : start ≤ k) :
    ¬piece <+: text.drop k := by
  simp only [findFrom?] at h
  split at h
  · rw [List.drop_eq_nil_of_le (by omega), List.prefix_nil]
    exact hne
  · have hNone := not_prefix_drop_of_find?_eq_none (Option.map_eq_none_iff.mp h) (k - start)
    rwa [List.drop_drop, Nat.add_sub_cancel' hk] at hNone

/-- A search from an offset finds nothing before it, and what it finds lies inside the text. -/
theorem findFrom?_bounds {text piece : Text} {start n : Nat}
    (h : findFrom? text piece start = some n) :
    start ≤ n ∧ n + piece.length ≤ text.length := by
  simp only [findFrom?] at h
  split at h
  · simp at h
  · obtain ⟨m, hm, rfl⟩ := Option.map_eq_some_iff.1 h
    have := add_length_le_of_find? hm
    simp only [List.length_drop] at this
    omega

end Text

end SqlTemplate
