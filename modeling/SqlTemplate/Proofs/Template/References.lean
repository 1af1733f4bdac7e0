import SqlTemplate.Proofs.Results
import SqlTemplate.Template.Reference

/-!
# References and what is put in their place

Substitution goes through a text piece by piece, so it sees a replacement only at a reference
(`substitute_congr`), and it fails only if a piece fails. What it writes is at least as long as what
it writes for any piece of the text (`exists_substitute`).
-/

namespace SqlTemplate

namespace Template

variable {ε : Type} {replacement replacement' : Text → Option (Except ε Text)} {text : Text}

theorem mem_references {name : Text} : name ∈ references text ↔ .reference name ∈ pieces text := by
  rw [references, List.mem_filterMap]
  constructor
  · rintro ⟨piece, hPiece, hName⟩
    cases piece with
    | char c => cases hName
    | reference n =>
      cases hName
      exact hPiece
  · exact fun h => ⟨_, h, rfl⟩

theorem references_cons (c : Char) (rest : Text) :
    references (c :: rest) =
      if c = '$' ∧ Text.identifier rest ≠ [] then
        Text.identifier rest :: references (rest.drop (Text.identifier rest).length)
      else references rest := by
  rw [references, pieces]
  split <;> rfl

/-- Without a dollar sign there is no reference. -/
theorem references_of_notMem (h : '$' ∉ text) : references text = [] := by
  induction text with
  | nil => rw [references, pieces, List.filterMap_nil]
  | cons c rest ih =>
    rw [List.mem_cons, not_or] at h
    rw [references_cons, if_neg fun hc => h.1 hc.1.symm, ih h.2]

/-! ### Substitution piece by piece -/

/-- Substitution does not see what a name is replaced by unless the text refers to it. -/
theorem substitute_congr
    (h : ∀ name ∈ references text, replacement name = replacement' name) :
    substitute replacement text = substitute replacement' text := by
  have hPieces : (pieces text).mapM (substitutePiece replacement) =
      (pieces text).mapM (substitutePiece replacement') := by
    refine mapM_congr fun piece hPiece => ?_
    cases piece with
    | char c => rfl
    | reference name => rw [substitutePiece, substitutePiece, h name (mem_references.mpr hPiece)]
  rw [substitute, substitute, hPieces]

theorem substitute_eq_ok_iff {result : Text} :
    substitute replacement text = .ok result ↔
      ∃ texts, (pieces text).mapM (substitutePiece replacement) = .ok texts ∧
        texts.flatten = result := by
  rw [substitute]
  cases (pieces text).mapM (substitutePiece replacement) with
  | error e => exact ⟨nofun, fun ⟨_, h, _⟩ => nomatch h⟩
  | ok texts =>
    constructor
    · intro h
      cases h
      exact ⟨texts, rfl, rfl⟩
    · rintro ⟨texts', hTexts, rfl⟩
      cases hTexts
      rfl

/-- Substitution succeeds if each replacement that is needed does. -/
theorem exists_substitute
    (h : ∀ name ∈ references text, ∀ e, replacement name ≠ some (.error e)) :
    ∃ result, substitute replacement text = .ok result := by
  obtain ⟨texts, hTexts⟩ :
      ∃ texts, (pieces text).mapM (substitutePiece replacement) = .ok texts := by
    refine exists_mapM_eq_ok fun piece hPiece => ?_
    cases piece with
    | char c => exact ⟨[c], rfl⟩
    | reference name =>
      have hName := h name (mem_references.mpr hPiece)
      rw [substitutePiece]
      cases hReplacement : replacement name with
      | none => exact ⟨_, rfl⟩
      | some replaced =>
        cases replaced with
        | error e => exact absurd hReplacement (hName e)
        | ok s => exact ⟨s, rfl⟩
  exact ⟨_, substitute_eq_ok_iff.mpr ⟨texts, hTexts, rfl⟩⟩

/-- What replaces a name is in the result, and has succeeded. -/
theorem exists_replacement_of_substitute {result : Text}
    (h : substitute replacement text = .ok result) {name : Text} (hName : name ∈ references text) :
    (∀ e, replacement name ≠ some (.error e)) ∧
      ∀ s, replacement name = some (.ok s) → s.length ≤ result.length := by
  obtain ⟨texts, hTexts, rfl⟩ := substitute_eq_ok_iff.mp h
  obtain ⟨written, hMem, hWritten⟩ := exists_mem_of_mapM_eq_ok hTexts _ (mem_references.mp hName)
  rw [substitutePiece] at hWritten
  constructor
  · intro e hError
    rw [hError] at hWritten
    cases hWritten
  · intro s hs
    rw [hs] at hWritten
    cases hWritten
    exact (List.sublist_flatten_of_mem hMem).length_le

end Template

end SqlTemplate
