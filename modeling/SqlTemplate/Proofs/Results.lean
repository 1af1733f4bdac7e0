/-!
# Results and errors

When steps that are taken one after another come to a result and when they end in an error; the same
for a choice between steps, for a step that is taken for each member of a list and for one whose
error is given another form.
-/

namespace SqlTemplate

variable {ε δ α β ι : Type}

/-- A result is no error, of whatever form. -/
theorem not_exists_ok_eq_error {a : α} {f : ι → ε} :
    ¬∃ i, (Except.ok a : Except ε α) = .error (f i) := by
  rintro ⟨_, h⟩
  cases h

theorem not_exists_error_eq_ok {e : ε} : ¬∃ a, (Except.error e : Except ε α) = .ok a := by
  rintro ⟨_, h⟩
  cases h

theorem ok_ne_error (a : α) (error : ε) : (Except.ok a : Except ε α) ≠ .error error := by
  intro h
  cases h

theorem exists_eq_ok_iff_isOk {x : Except ε α} : (∃ a, x = .ok a) ↔ x.isOk := by
  cases x with
  | ok a => exact iff_of_true ⟨a, rfl⟩ rfl
  | error e => exact iff_of_false not_exists_error_eq_ok Bool.false_ne_true

/-- What comes to no result ends in an error. -/
theorem exists_eq_error_iff {x : Except ε α} : (∃ e, x = .error e) ↔ ¬∃ a, x = .ok a := by
  cases x with
  | ok a => exact iff_of_false not_exists_ok_eq_error (not_not_intro ⟨a, rfl⟩)
  | error e => exact iff_of_true ⟨e, rfl⟩ not_exists_error_eq_ok

theorem toOption_eq_some_iff {x : Except ε α} {a : α} : x.toOption = some a ↔ x = .ok a := by
  cases x with
  | ok b => exact ⟨fun h => congrArg Except.ok (Option.some.inj h), fun h => by cases h; rfl⟩
  | error e => exact iff_of_false nofun nofun

/-! ### Two steps -/

/-- A sequence of two steps succeeds if both do. -/
theorem exists_of_bind_eq_ok {x : Except ε α} {next : α → Except ε β} {b : β}
    (h : x >>= next = .ok b) : ∃ a, x = .ok a ∧ next a = .ok b := by
  cases x with
  | error e => cases h
  | ok a => exact ⟨a, rfl, h⟩

/-- Both steps of a sequence come to a result if it does. -/
theorem bind_eq_ok_iff {x : Except ε α} {next : α → Except ε β} {b : β} :
    x >>= next = .ok b ↔ ∃ a, x = .ok a ∧ next a = .ok b := by
  refine ⟨exists_of_bind_eq_ok, ?_⟩
  rintro ⟨a, rfl, h⟩
  exact h

/-- A sequence of two steps, the second of which comes to a result or not whatever the first one
gives, comes to a result if both do. -/
theorem exists_bind_eq_ok_iff {x : Except ε α} {next : α → Except ε β} {P : Prop}
    (h : ∀ a, (∃ b, next a = .ok b) ↔ P) :
    (∃ b, x >>= next = .ok b) ↔ (∃ a, x = .ok a) ∧ P := by
  cases x with
  | error e => exact iff_of_false not_exists_error_eq_ok fun h => not_exists_error_eq_ok h.1
  | ok a => exact (h a).trans (and_iff_right ⟨a, rfl⟩).symm

/-- What is only handed on comes to a result if it does itself. -/
theorem exists_bind_pure_eq_ok_iff {x : Except ε α} (f : α → β) :
    (∃ b, (x >>= fun a => pure (f a)) = .ok b) ↔ ∃ a, x = .ok a := by
  have h (a : α) : (∃ b, (pure (f a) : Except ε β) = .ok b) ↔ True := iff_true_intro ⟨f a, rfl⟩
  rw [exists_bind_eq_ok_iff h, and_true]

/-- A result that is only given another form has it. -/
theorem exists_eq_of_map_eq_ok {f : α → β} {b : β} (x : Except ε α) (h : x.map f = .ok b) :
    ∃ a, b = f a := by
  cases x with
  | error e => cases h
  | ok a =>
    cases h
    exact ⟨a, rfl⟩

theorem map_some_eq_ok_iff {x : Except ε α} {a : α} : x.map some = .ok (some a) ↔ x = .ok a := by
  cases x with
  | error e => exact iff_of_false nofun nofun
  | ok b =>
    refine ⟨fun h => ?_, fun h => ?_⟩
    · cases h
      rfl
    · cases h
      rfl

theorem map_eq_error_iff {f : α → β} {x : Except ε α} {e : ε} :
    x.map f = .error e ↔ x = .error e := by
  cases x with
  | ok a => exact iff_of_false nofun nofun
  | error e' => rw [Except.map, Except.error.injEq, Except.error.injEq]

/-- One of two steps ends in the error. -/
theorem bind_eq_error_iff {x : Except ε α} {next : α → Except ε β} {e : ε} :
    x >>= next = .error e ↔ x = .error e ∨ ∃ a, x = .ok a ∧ next a = .error e := by
  cases x with
  | error e' =>
    refine ⟨fun h => .inl ?_, ?_⟩
    · cases h
      rfl
    · rintro (h | ⟨_, h, -⟩)
      · cases h
        rfl
      · cases h
  | ok a =>
    refine ⟨fun h => .inr ⟨a, rfl, h⟩, ?_⟩
    rintro (h | ⟨_, h, hNext⟩)
    · cases h
    · cases h
      exact hNext

/-- A sequence of two steps has no error that neither of them has. -/
theorem bind_ne_error {x : Except ε α} {next : α → Except ε β} {error : ε}
    (hx : x ≠ .error error) (hNext : ∀ a, x = .ok a → next a ≠ .error error) :
    x >>= next ≠ .error error := by
  rw [Ne, bind_eq_error_iff]
  rintro (h | ⟨a, h, hError⟩)
  · exact hx h
  · exact hNext a h hError

/-! ### A step for each member of a list -/

theorem mapM_congr {f g : α → Except ε β} {l : List α} (h : ∀ a ∈ l, f a = g a) :
    l.mapM f = l.mapM g := by
  induction l with
  | nil => rfl
  | cons a l ih =>
    rw [List.mapM_cons, List.mapM_cons, h a List.mem_cons_self,
      ih fun b hb => h b (List.mem_cons_of_mem a hb)]

/-- What succeeds for each member of a list succeeds for the list. -/
theorem exists_mapM_eq_ok {f : α → Except ε β} {l : List α}
    (h : ∀ a ∈ l, ∃ b, f a = .ok b) : ∃ bs, l.mapM f = .ok bs := by
  induction l with
  | nil => exact ⟨[], rfl⟩
  | cons a l ih =>
    obtain ⟨b, hb⟩ := h a List.mem_cons_self
    obtain ⟨bs, hbs⟩ := ih fun c hc => h c (List.mem_cons_of_mem a hc)
    exact ⟨b :: bs, by rw [List.mapM_cons, hb, hbs]; rfl⟩

/-- What succeeds for a list has succeeded for each member. -/
theorem exists_mem_of_mapM_eq_ok {f : α → Except ε β} {l : List α} {bs : List β}
    (h : l.mapM f = .ok bs) : ∀ a ∈ l, ∃ b ∈ bs, f a = .ok b := by
  induction l generalizing bs with
  | nil => exact fun a ha => absurd ha List.not_mem_nil
  | cons a l ih =>
    rw [List.mapM_cons] at h
    obtain ⟨b, ha, h⟩ := exists_of_bind_eq_ok h
    obtain ⟨cs, hl, h⟩ := exists_of_bind_eq_ok h
    cases h
    intro c hc
    rcases List.mem_cons.mp hc with rfl | hc
    · exact ⟨b, List.mem_cons_self, ha⟩
    · obtain ⟨d, hd, hcd⟩ := ih hl c hc
      exact ⟨d, List.mem_cons_of_mem b hd, hcd⟩

theorem length_of_mapM_eq_ok {f : α → Except ε β} {l : List α} {bs : List β}
    (h : l.mapM f = .ok bs) : bs.length = l.length := by
  induction l generalizing bs with
  | nil =>
    cases h
    rfl
  | cons a l ih =>
    rw [List.mapM_cons] at h
    obtain ⟨b, -, h⟩ := exists_of_bind_eq_ok h
    obtain ⟨cs, hl, h⟩ := exists_of_bind_eq_ok h
    cases h
    rw [List.length_cons, List.length_cons, ih hl]

/-! ### Errors of another form -/

theorem mapError_eq_error_iff {x : Except ε α} {f : ε → δ} {d : δ} :
    x.mapError f = .error d ↔ ∃ e, x = .error e ∧ f e = d := by
  cases x with
  | ok a =>
    refine iff_of_false nofun ?_
    rintro ⟨_, h, -⟩
    cases h
  | error e =>
    refine ⟨fun h => ⟨e, rfl, Except.error.inj h⟩, ?_⟩
    rintro ⟨_, h, rfl⟩
    cases h
    rfl

theorem mapError_eq_ok_iff {x : Except ε α} {f : ε → δ} {a : α} :
    x.mapError f = .ok a ↔ x = .ok a := by
  cases x with
  | ok b => exact ⟨fun h => by cases h; rfl, fun h => by cases h; rfl⟩
  | error e => exact iff_of_false (fun h => by cases h) fun h => by cases h

theorem exists_mapError_eq_error_iff {x : Except ε α} (f : ε → δ) :
    (∃ e, x.mapError f = .error e) ↔ ∃ e, x = .error e := by
  simp only [exists_eq_error_iff, mapError_eq_ok_iff]

/-! ### Choices -/

section

variable {c : Prop} [Decidable c] {a : α} {e : ε} {x : Except ε α}

theorem exists_ite_error_eq_error_iff :
    (∃ e', (if c then .error e else x) = .error e') ↔ c ∨ ∃ e', x = .error e' := by
  by_cases h : c
  · rw [if_pos h]
    exact iff_of_true ⟨e, rfl⟩ (.inl h)
  · rw [if_neg h, or_iff_right h]

theorem exists_ite_ok_eq_error_iff :
    (∃ e, (if c then .ok a else x) = .error e) ↔ ¬c ∧ ∃ e, x = .error e := by
  by_cases h : c
  · rw [if_pos h]
    exact iff_of_false not_exists_ok_eq_error fun hOther => hOther.1 h
  · rw [if_neg h, and_iff_right h]

end

end SqlTemplate
