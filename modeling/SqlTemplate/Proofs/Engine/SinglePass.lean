import SqlTemplate.Proofs.Engine.Substitution
import SqlTemplate.Proofs.Template.Pieces
import SqlTemplate.Proofs.Value.Writable

/-!
# Substitution in a single pass

Substitution goes once through the text that an engine has rendered. Of the one reading of that text
(`Template.isReading_iff`), each reference to a bound name is replaced by the literal of its value
and all else stays, so **what is put in is read neither as a reference nor as a directive**. The
names are those that the conditions saw.

A key that does not begin with a dollar sign is rejected before anything is rendered or even
compiled. The first such key decides how: a message shows it, **unless it cannot be written, and
then the fault of writing it takes the place of the message** (`render_single_pass`).
-/

namespace SqlTemplate

namespace Substitution

open Template (IsReading Piece pieces)

-- Powers are read the same way, whatever else is imported.
attribute [local instance(2000)] instPowNat

variable {bindings : Bindings} {names : List (Text × Value)}

/-! ### Keys -/

/-- Whether a key begins with a dollar sign. -/
def IsMarked (key : Value) : Prop := ∃ name, key.plain = .ok ('$' :: name)

/-- The error with which a key that is not marked is rejected. -/
def rejection (key : Value) : RenderError :=
  match key.plain with
  | .ok shown => .unmarkedVariable shown
  | .error fault => .fault fault

theorem namesOf_cons_of_marked {name : Text} {key value : Value} (h : key.plain = .ok ('$' :: name))
    (rest : Bindings) :
    namesOf ((key, value) :: rest) = (namesOf rest).map ((name, value) :: ·) := by
  rw [namesOf, h]
  rfl

theorem namesOf_cons_of_not_marked {key : Value} (h : ¬IsMarked key) (value : Value)
    (rest : Bindings) : namesOf ((key, value) :: rest) = .error (rejection key) := by
  rw [namesOf, rejection]
  cases hKey : key.plain with
  | error fault => rfl
  | ok shown =>
    refine bind_eq_error_iff.mpr (.inr ⟨shown, rfl, ?_⟩)
    split
    next name => exact absurd ⟨name, hKey⟩ h
    next => rfl

/-- The names of keys that are all marked can be read. -/
theorem exists_namesOf (h : ∀ entry ∈ bindings, IsMarked entry.1) :
    ∃ names, namesOf bindings = .ok names := by
  induction bindings with
  | nil => exact ⟨[], rfl⟩
  | cons first rest ih =>
    obtain ⟨hFirst, hRest⟩ := List.forall_mem_cons.mp h
    obtain ⟨name, hKey⟩ := hFirst
    obtain ⟨others, hOthers⟩ := ih hRest
    rw [namesOf_cons_of_marked hKey, hOthers]
    exact ⟨_, rfl⟩

/-- The first key that is not marked is rejected. -/
theorem namesOf_append_of_not_marked {before after : Bindings} {entry : Value × Value}
    (hBefore : ∀ other ∈ before, IsMarked other.1) (h : ¬IsMarked entry.1) :
    namesOf (before ++ entry :: after) = .error (rejection entry.1) := by
  induction before with
  | nil => exact namesOf_cons_of_not_marked h _ _
  | cons first before ih =>
    obtain ⟨hFirst, hRest⟩ := List.forall_mem_cons.mp hBefore
    obtain ⟨name, hKey⟩ := hFirst
    rw [List.cons_append, namesOf_cons_of_marked hKey, ih hRest]
    rfl

theorem exists_first_not_marked (h : ∃ entry ∈ bindings, ¬IsMarked entry.1) :
    ∃ before entry after, bindings = before ++ entry :: after ∧
      (∀ other ∈ before, IsMarked other.1) ∧ ¬IsMarked entry.1 := by
  induction bindings with
  | nil =>
    obtain ⟨_, hMem, -⟩ := h
    cases hMem
  | cons first rest ih =>
    by_cases hFirst : IsMarked first.1
    · have hRest : ∃ entry ∈ rest, ¬IsMarked entry.1 := by
        simpa [hFirst] using h
      obtain ⟨before, entry, after, rfl, hBefore, hEntry⟩ := ih hRest
      refine ⟨first :: before, entry, after, rfl, ?_, hEntry⟩
      exact List.forall_mem_cons.mpr ⟨hFirst, hBefore⟩
    · exact ⟨[], first, rest, rfl, List.forall_mem_nil _, hFirst⟩

/-- A key is shown in a message unless it cannot be written. -/
theorem exists_rejection_eq_unmarkedVariable_iff (key : Value) :
    (∃ shown, rejection key = .unmarkedVariable shown) ↔ ¬key.HoldsLongInteger := by
  rw [← key.exists_plain_iff, rejection]
  cases key.plain with
  | ok shown => exact iff_of_true ⟨shown, rfl⟩ ⟨shown, rfl⟩
  | error fault => exact iff_of_false (fun ⟨_, h⟩ => by cases h) not_exists_error_eq_ok

/-! ### References -/

/-- A piece of a rendered text, or the literal of what it refers to if that is bound. -/
def filled (values : List (Text × Value)) : Piece → Except Fault Text
  | .char c => .ok [c]
  | .reference name =>
    match values.lookup name with
    | some v => literalText v
    | none => .ok ('$' :: name)

/-- Filling in goes through the pieces of a text. -/
theorem fill_eq (values : List (Text × Value)) (text : Text) :
    fill values text = ((pieces text).mapM (filled values)).map List.flatten := by
  have hPiece : Template.substitutePiece (fun name => (values.lookup name).map literalText) =
      filled values := by
    funext piece
    cases piece with
    | char c => rfl
    | reference name =>
      rw [Template.substitutePiece, filled]
      cases values.lookup name <;> rfl
  rw [fill, Template.substitute, hPiece]
  cases (pieces text).mapM (filled values) <;> rfl

/-- Where the names can be read, the text that an engine has rendered is filled in, piece by
piece. -/
theorem render_of_namesOf_eq_ok (settings : Settings) (template : Value)
    (h : namesOf bindings = .ok names) (room : Nat) :
    render settings template (some bindings) room = do
      let rendering ←
        (Engine.mk ⟨[]⟩ settings.trim settings.debug).render template bindings (room - 1)
      let rendered ← rendering.result.mapError .fault
      let texts ← ((pieces rendered).mapM (filled (Named.ofPairs names))).mapError .fault
      return .text texts.flatten := by
  cases hRender :
    (Engine.mk ⟨[]⟩ settings.trim settings.debug).render template bindings (room - 1) with
  | error e =>
    rw [Engine.render] at hRender
    simp only [render, renderWith, h, bind, hRender]
    rfl
  | ok rendering =>
    rw [render_of_engine h hRender]
    obtain ⟨trace, result⟩ := rendering
    cases result with
    | error fault => rfl
    | ok rendered =>
      show ((fill _ rendered).map Value.text).mapError _ =
        ((pieces rendered).mapM (filled _)).mapError _ >>= fun texts => pure (.text texts.flatten)
      rw [fill_eq]
      cases (pieces rendered).mapM (filled (Named.ofPairs names)) <;> rfl

/-! ### Single pass -/

/-- **Substitution is simultaneous and goes through the rendered text once.** If all keys begin with
a dollar sign, the names are those that the conditions see, and of the one reading of the text that
an engine renders each reference to a bound name is replaced by the literal of its value. If a key
does not, nothing is rendered, with whatever compiler, and the first such key is rejected; a message
shows it if and only if it can be written. -/
theorem render_single_pass (settings : Settings) (template : Value) (bindings : Bindings)
    (room : Nat) :
    ((∀ entry ∈ bindings, IsMarked entry.1) →
      ∃ names, namesOf bindings = .ok names ∧
        Environment.merged ⟨[]⟩ bindings = .ok ⟨Named.ofPairs names⟩ ∧
        (∀ rendered ps, IsReading rendered ps ↔ ps = pieces rendered) ∧
        render settings template (some bindings) room = do
          let rendering ←
            (Engine.mk ⟨[]⟩ settings.trim settings.debug).render template bindings (room - 1)
          let rendered ← rendering.result.mapError .fault
          let texts ← ((pieces rendered).mapM (filled (Named.ofPairs names))).mapError .fault
          return .text texts.flatten) ∧
    ((∃ entry ∈ bindings, ¬IsMarked entry.1) →
      ∃ before entry after, bindings = before ++ entry :: after ∧
        (∀ other ∈ before, IsMarked other.1) ∧ ¬IsMarked entry.1 ∧
        (∀ {m : Type → Type} [Monad m] (compiler : Condition.Compiler m),
          renderWith compiler settings template (some bindings) room =
            pure (.error (rejection entry.1))) ∧
        ((∃ shown, rejection entry.1 = .unmarkedVariable shown) ↔
          ¬entry.1.HoldsLongInteger)) := by
  refine ⟨fun hMarked => ?_, fun hUnmarked => ?_⟩
  · obtain ⟨names, hNames⟩ := exists_namesOf hMarked
    exact ⟨names, hNames, merged_of_namesOf hNames, fun _ _ => Template.isReading_iff,
      render_of_namesOf_eq_ok settings template hNames room⟩
  · obtain ⟨before, entry, after, rfl, hBefore, hEntry⟩ := exists_first_not_marked hUnmarked
    refine ⟨before, entry, after, rfl, hBefore, hEntry, fun compiler => ?_,
      exists_rejection_eq_unmarkedVariable_iff _⟩
    simp only [renderWith, namesOf_append_of_not_marked hBefore hEntry]

/-- A text with references to a name, to a longer one that is not bound, and to another name behind
two dollar signs. -/
def referringText : Text := ['$', 'a', '$', 'a', 'b', '$', '$', 'b']

/-- Two names, of which one is bound to a text that refers to the other. -/
def referringBindings : Bindings :=
  [(.text ['$', 'a'], .text ['$', 'b']), (.text ['$', 'b'], .null)]

/-- A text that is put in is not read again, and a key without a dollar sign is rejected. -/
theorem render_single_pass_referring :
    render .default (.text referringText) (some referringBindings) Condition.usualRoom =
      .ok (.text ['\'', '$', 'b', '\'', '$', 'a', 'b', '$', 'N', 'U', 'L', 'L']) ∧
    render .default (.text referringText) (some [(.text ['a'], .null)]) Condition.usualRoom =
      .error (.unmarkedVariable ['a']) := by
  have hMarked : ∀ entry ∈ referringBindings, IsMarked entry.1 := by
    simp only [referringBindings, List.forall_mem_cons]
    exact ⟨⟨_, rfl⟩, ⟨_, rfl⟩, List.forall_mem_nil _⟩
  have hUnmarked : ¬IsMarked (.text ['a']) := by
    rintro ⟨name, hName⟩
    cases hName
  have hPieces : pieces referringText =
      [.reference ['a'], .reference ['a', 'b'], .char '$', .reference ['b']] := by
    simp [referringText, pieces, Text.identifier, Text.isIdentifierStart, Text.isIdentifierPart]
  constructor
  · obtain ⟨names, hNames, hMerged, -, hRender⟩ :=
      (render_single_pass .default (.text referringText) referringBindings
        Condition.usualRoom).1 hMarked
    have hNone : '{' ∉ referringText := by decide
    cases hNames
    rw [hRender, Engine.render_text, hMerged]
    simp only [Rendering.render_of_notMem hNone]
    show (do
      let texts ← ((pieces referringText).mapM (filled _)).mapError RenderError.fault
      return Value.text texts.flatten) = _
    rw [hPieces]
    rfl
  · obtain ⟨before, entry, after, hSplit, -, -, hRender, -⟩ :=
      (render_single_pass .default (.text referringText) [(.text ['a'], .null)]
        Condition.usualRoom).2
        ⟨_, List.mem_singleton_self _, hUnmarked⟩
    have hEntry : entry ∈ [(Value.text ['a'], Value.null)] := by
      rw [hSplit]
      exact List.mem_append_right _ List.mem_cons_self
    rw [List.mem_singleton.mp hEntry] at hRender
    exact hRender (m := Id) @Condition.compile

/-- A key that cannot be written in front of one without a dollar sign. -/
def unwritableBindings : Bindings :=
  [(.number (.int (10 ^ Fault.maxDigits : Nat)), .null), (.text ['a'], .null)]

/-- The fault of writing the first key takes the place of the message. -/
theorem render_unwritableBindings (settings : Settings) (template : Value) (room : Nat) :
    render settings template (some unwritableBindings) room = .error (.fault .digitLimit) := by
  have hPlain : (Value.number (.int (10 ^ Fault.maxDigits : Nat))).plain = .error .digitLimit := by
    simp only [Value.plain, Number.text, Text.writeInt]
    exact if_pos (Nat.le_of_eq (Int.natAbs_natCast _).symm)
  rw [render, renderWith, unwritableBindings]
  simp only [namesOf, hPlain]
  rfl

/-- A message does not always say that a key has no dollar sign. -/
theorem not_rejects_always :
    ¬∀ (settings : Settings) (template : Value) (bindings : Bindings),
      (∃ entry ∈ bindings, ∃ key, entry.1.plain = .ok key ∧ ¬['$'] <+: key) →
      ∃ shown, render settings template (some bindings) Condition.usualRoom =
        .error (.unmarkedVariable shown) := by
  intro h
  have hKey : ∃ entry ∈ unwritableBindings, ∃ key, entry.1.plain = .ok key ∧ ¬['$'] <+: key :=
    ⟨_, List.mem_cons_of_mem _ List.mem_cons_self, ['a'], rfl, by decide⟩
  obtain ⟨shown, hRender⟩ := h .default (.text ['x']) unwritableBindings hKey
  rw [render_unwritableBindings] at hRender
  cases hRender

end Substitution

end SqlTemplate
