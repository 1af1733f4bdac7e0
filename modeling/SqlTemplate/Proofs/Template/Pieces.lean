import SqlTemplate.Proofs.Text.Identifier
import SqlTemplate.Template.Reference

/-!
# The one reading of a text

`pieces` reads a text from the left. What it reads can be said without an order: references and
characters that spell the text, where each reference is an identifier that goes on as long as it
can, and where no dollar sign that stands by itself has an identifier behind it (`IsReading`). As a
dollar sign is no part of an identifier, references cannot overlap, so **a text has one reading, and
it is the one that `pieces` finds** (`isReading_iff`). It takes a text and the one behind it apart
where no identifier goes on (`pieces_append`), so the references are just the identifiers behind
dollar signs, whatever stands before them (`reference_mem_pieces_iff`).
-/

namespace SqlTemplate

namespace Template

/-- Whether a piece can be read in front of a text: a reference is an identifier that ends there,
and a dollar sign by itself has no identifier behind it. -/
def Piece.Fits (rest : Text) : Piece → Prop
  | reference name => Text.IsIdentifier name ∧ ∀ c ∈ rest.head?, ¬Text.isIdentifierPart c
  | char c => c = '$' → ∀ d ∈ rest.head?, ¬Text.isIdentifierStart d

/-- Whether pieces are a reading of a text. -/
structure IsReading (text : Text) (ps : List Piece) : Prop where
  /-- They spell the text. -/
  spelled : ps.flatMap Piece.text = text
  /-- Each of them can be read in front of those behind it. -/
  fits : ∀ before piece after, ps = before ++ piece :: after →
    piece.Fits (after.flatMap Piece.text)

variable {text : Text} {ps : List Piece} {piece : Piece}

theorem isReading_nil_iff : IsReading text [] ↔ text = [] := by
  constructor
  · intro h
    exact h.spelled.symm
  · rintro rfl
    refine ⟨rfl, fun before piece after h => ?_⟩
    cases before <;> cases h

/-- A reading is a piece that fits and a reading of what stands behind it. -/
theorem isReading_cons_iff :
    IsReading text (piece :: ps) ↔
      ∃ rest, text = piece.text ++ rest ∧ piece.Fits rest ∧ IsReading rest ps := by
  constructor
  · intro h
    refine ⟨ps.flatMap Piece.text, h.spelled.symm, h.fits [] piece ps rfl, rfl, ?_⟩
    intro before other after hSplit
    exact h.fits (piece :: before) other after (by rw [hSplit, List.cons_append])
  · rintro ⟨rest, rfl, hFits, hRest⟩
    refine ⟨by rw [List.flatMap_cons, hRest.spelled], fun before other after hSplit => ?_⟩
    cases before with
    | nil =>
      cases hSplit
      rw [hRest.spelled]
      exact hFits
    | cons _ before =>
      cases hSplit
      exact hRest.fits before other after rfl

/-- A piece that fits is read. -/
theorem pieces_text_append {rest : Text} (h : piece.Fits rest) :
    pieces (piece.text ++ rest) = piece :: pieces rest := by
  cases piece with
  | char c =>
    have hNone : ¬(c = '$' ∧ Text.identifier rest ≠ []) := by
      rintro ⟨hDollar, hne⟩
      exact hne (Text.identifier_eq_nil_iff.mpr (h hDollar))
    rw [Piece.text, List.singleton_append, pieces]
    simp only [if_neg hNone]
  | reference name =>
    have hName := Text.identifier_append_of_head? h.1 h.2
    rw [Piece.text, List.cons_append, pieces]
    simp only [hName, List.drop_left]
    exact if_pos ⟨trivial, h.1.1⟩

/-- What is read from the left is a reading. -/
theorem isReading_pieces (text : Text) : IsReading text (pieces text) := by
  fun_induction pieces text with
  | case1 => exact isReading_nil_iff.mpr rfl
  | case2 c rest name hc ih =>
    obtain ⟨rfl, hName⟩ := hc
    obtain ⟨hIdentifier, tail, hRest, hEnd⟩ := Text.exists_append_of_identifier hName
    refine isReading_cons_iff.mpr ⟨tail, ?_, ⟨hIdentifier, hEnd⟩, ?_⟩
    · rw [Piece.text, List.cons_append, ← hRest]
    · have hTail : rest.drop name.length = tail :=
        (congrArg (List.drop name.length) hRest).trans List.drop_left
      rw [hTail] at ih ⊢
      exact ih
  | case3 c rest name hc ih =>
    refine isReading_cons_iff.mpr ⟨rest, rfl, fun hDollar => ?_, ih⟩
    rw [← Text.identifier_eq_nil_iff]
    by_contra hne
    exact hc ⟨hDollar, hne⟩

/-- **A text has one reading, which is the one from the left.** -/
theorem isReading_iff : IsReading text ps ↔ ps = pieces text := by
  constructor
  · intro h
    induction ps generalizing text with
    | nil => rw [isReading_nil_iff.mp h, pieces]
    | cons piece ps ih =>
      obtain ⟨rest, rfl, hFits, hRest⟩ := isReading_cons_iff.mp h
      rw [pieces_text_append hFits, ← ih hRest]
  · rintro rfl
    exact isReading_pieces text

/-! ### Pieces of two texts -/

variable {front rest : Text} {name : Text}

/-- Whether a piece fits depends on the next character alone. -/
theorem Piece.Fits.append (h : piece.Fits front)
    (hRest : ∀ c ∈ rest.head?, ¬Text.isIdentifierPart c) : piece.Fits (front ++ rest) := by
  cases front with
  | cons => exact h
  | nil =>
    cases piece with
    | reference name => exact ⟨h.1, hRest⟩
    | char c =>
      exact fun _ d hd hStart => hRest d hd (Text.isIdentifierPart_of_isIdentifierStart hStart)

/-- **Two texts are read apart where no identifier goes on from the first into the second.** -/
theorem pieces_append (h : ∀ c ∈ rest.head?, ¬Text.isIdentifierPart c) :
    pieces (front ++ rest) = pieces front ++ pieces rest := by
  have hRead {ps : List Piece} : ∀ {front : Text}, IsReading front ps →
      IsReading (front ++ rest) (ps ++ pieces rest) := by
    induction ps with
    | nil =>
      intro front hFront
      rw [isReading_nil_iff.mp hFront]
      exact isReading_pieces rest
    | cons piece ps ih =>
      intro front hFront
      obtain ⟨tail, rfl, hFits, hTail⟩ := isReading_cons_iff.mp hFront
      rw [List.append_assoc, List.cons_append]
      exact isReading_cons_iff.mpr ⟨_, rfl, hFits.append h, ih hTail⟩
  exact (isReading_iff.mp (hRead (isReading_pieces front))).symm

/-- Whether a dollar sign stands in a text with a name behind it that goes no further. -/
def RefersTo (text name : Text) : Prop :=
  ∃ front rest, text = front ++ '$' :: (name ++ rest) ∧ Text.IsIdentifier name ∧
    ∀ c ∈ rest.head?, ¬Text.isIdentifierPart c

/-- **The references of a text are the identifiers behind its dollar signs**, each as far as it
goes. -/
theorem reference_mem_pieces_iff : .reference name ∈ pieces text ↔ RefersTo text name := by
  constructor
  · intro h
    obtain ⟨before, after, hSplit⟩ := List.append_of_mem h
    obtain ⟨hIdentifier, hRest⟩ := (isReading_pieces text).fits before _ after hSplit
    refine ⟨before.flatMap Piece.text, after.flatMap Piece.text, ?_, hIdentifier, hRest⟩
    rw [← (isReading_pieces text).spelled, hSplit, List.flatMap_append, List.flatMap_cons]
    rfl
  · rintro ⟨front, rest, rfl, hIdentifier, hRest⟩
    have hDollar :
        ∀ c ∈ (Piece.text (.reference name) ++ rest).head?, ¬Text.isIdentifierPart c := by
      intro c hc
      cases hc
      decide
    have hFits : (Piece.reference name).Fits rest := ⟨hIdentifier, hRest⟩
    change _ ∈ pieces (front ++ (Piece.text (.reference name) ++ rest))
    rw [pieces_append hDollar, pieces_text_append hFits]
    exact List.mem_append_right _ List.mem_cons_self

end Template

end SqlTemplate
