import Mathlib.Data.List.TakeWhile
import SqlTemplate.Text.Search

/-!
# Runs of characters of one kind

A reader that takes characters as long as they are of a kind takes a run of them off the beginning
of a text: each text is such a run and a rest that does not go on with it (`exists_run`), and **from
a run with such a rest behind it just the run is taken** (`takeWhile_run`, `dropWhile_run`).
-/

namespace SqlTemplate

namespace Text

variable {p : Char → Bool} {run rest : Text}

theorem takeWhile_run (hRun : ∀ c ∈ run, p c = true) (hRest : ∀ c ∈ rest.head?, p c = false) :
    (run ++ rest).takeWhile p = run := by
  rw [List.takeWhile_append_of_pos hRun]
  cases rest with
  | nil => exact List.append_nil run
  | cons c rest =>
    rw [List.takeWhile_cons_of_neg (ne_true_of_eq_false (hRest c rfl)), List.append_nil]

theorem dropWhile_run (hRun : ∀ c ∈ run, p c = true) (hRest : ∀ c ∈ rest.head?, p c = false) :
    (run ++ rest).dropWhile p = rest := by
  rw [List.dropWhile_append_of_pos hRun]
  cases rest with
  | nil => rfl
  | cons c rest => exact List.dropWhile_cons_of_neg (ne_true_of_eq_false (hRest c rfl))

/-- A text is a run and what does not go on with it. -/
theorem exists_run (p : Char → Bool) (text : Text) :
    ∃ run rest : Text, text = run ++ rest ∧ (∀ c ∈ run, p c = true) ∧
      ∀ c ∈ rest.head?, p c = false := by
  refine ⟨text.takeWhile p, text.dropWhile p, List.takeWhile_append_dropWhile.symm,
    List.all_eq_true.mp List.all_takeWhile, fun c hc => ?_⟩
  have hStop := List.head?_dropWhile_not p text
  rw [Option.mem_def.mp hc] at hStop
  simpa using hStop

end Text

end SqlTemplate
