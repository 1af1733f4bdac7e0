import SqlTemplate.Engine.Substitution
import SqlTemplate.Proofs.Engine.Steps
import SqlTemplate.Proofs.Template.References

/-!
# Substitution as rendering and filling in

Where every key begins with a dollar sign, conditions see the same names as substitution
(`merged_of_namesOf`): **the result is the text that is rendered in the environment of the
variables, with its references filled in** (`render_of_namesOf`).
-/

namespace SqlTemplate

open Template (references)

namespace Substitution

variable {bindings : Bindings} {names : List (Text × Value)}

/-- Where names are read from variables, each key is a name behind a dollar sign. -/
theorem of_namesOf_cons {key value : Value} {rest : Bindings}
    (h : namesOf ((key, value) :: rest) = .ok names) :
    ∃ name others, key.plain = .ok ('$' :: name) ∧ namesOf rest = .ok others ∧
      names = (name, value) :: others := by
  rw [namesOf] at h
  obtain ⟨s, hKey, h⟩ := exists_of_bind_eq_ok h
  rw [mapError_eq_ok_iff] at hKey
  split at h
  next name =>
    obtain ⟨others, hRest, h⟩ := exists_of_bind_eq_ok h
    cases h
    exact ⟨name, others, hKey, hRest, rfl⟩
  next => cases h

/-- Conditions see the same names as substitution. -/
theorem environmentNamesOf_eq (h : namesOf bindings = .ok names) :
    Environment.namesOf bindings = .ok names := by
  induction bindings generalizing names with
  | nil =>
    cases h
    rfl
  | cons first rest ih =>
    obtain ⟨key, value⟩ := first
    obtain ⟨name, others, hKey, hRest, rfl⟩ := of_namesOf_cons h
    rw [Environment.namesOf, hKey, ih hRest]
    rfl

/-- The environment of such variables binds the names that substitution sees. -/
theorem merged_of_namesOf (h : namesOf bindings = .ok names) :
    Environment.merged ⟨[]⟩ bindings = .ok ⟨Named.ofPairs names⟩ := by
  have hSame : Named.insertAll [] (Named.ofPairs names) = Named.ofPairs names :=
    Named.ofPairs_of_nodup (Named.nodup_ofPairs names)
  rw [Environment.merged, Environment.ofBindings, environmentNamesOf_eq h]
  exact congrArg (fun entries => Except.ok (Environment.mk entries)) hSame

/-- What is substituted in is the text that an engine of the settings renders. -/
theorem render_of_engine {settings : Settings} {template : Value} {rendering : Rendering}
    {room : Nat} (h : namesOf bindings = .ok names)
    (hEngine : Engine.render ⟨⟨[]⟩, settings.trim, settings.debug⟩ template bindings (room - 1) =
      .ok rendering) :
    render settings template (some bindings) room =
      ((rendering.result.bind (fill (Named.ofPairs names))).map Value.text).mapError
        RenderError.fault := by
  rw [Engine.render] at hEngine
  simp only [render, renderWith, h, bind, hEngine]
  rfl

/-- It is rendered in the environment of the variables. -/
theorem render_of_namesOf (settings : Settings) (text : Text) (h : namesOf bindings = .ok names)
    (room : Nat) :
    render settings (.text text) (some bindings) room =
      (((Rendering.render settings.trim ⟨Named.ofPairs names⟩ text (room - 1 - 1)).result.bind
        (fill (Named.ofPairs names))).map Value.text).mapError RenderError.fault := by
  refine render_of_engine h ?_
  rw [Engine.render_text, merged_of_namesOf h]

/-- There is a result just when there is a rendered text whose references can be filled in. -/
theorem render_eq_ok_iff {settings : Settings} {text : Text} (h : namesOf bindings = .ok names)
    {room : Nat} {v : Value} :
    render settings (.text text) (some bindings) room = .ok v ↔
      ∃ rendered result,
        (Rendering.render settings.trim ⟨Named.ofPairs names⟩ text (room - 1 - 1)).result =
          .ok rendered ∧
        fill (Named.ofPairs names) rendered = .ok result ∧ .text result = v := by
  rw [render_of_namesOf settings text h room]
  cases (Rendering.render settings.trim ⟨Named.ofPairs names⟩ text (room - 1 - 1)).result with
  | error fault => exact ⟨nofun, fun ⟨_, _, hResult, _⟩ => nomatch hResult⟩
  | ok rendered =>
    show ((fill _ rendered).map Value.text).mapError RenderError.fault = _ ↔ _
    cases hFill : fill (Named.ofPairs names) rendered with
    | error fault =>
      refine ⟨nofun, ?_⟩
      rintro ⟨_, _, hRendered, hResult, -⟩
      cases hRendered
      cases hFill.symm.trans hResult
    | ok result =>
      constructor
      · intro hv
        cases hv
        exact ⟨rendered, result, rfl, hFill, rfl⟩
      · rintro ⟨_, _, hRendered, hResult, rfl⟩
        cases hRendered
        cases hFill.symm.trans hResult
        rfl

/-- Filling in depends on the names that a text refers to. -/
theorem fill_congr {values values' : List (Text × Value)} {text : Text}
    (h : ∀ name ∈ references text, values.lookup name = values'.lookup name) :
    fill values text = fill values' text :=
  Template.substitute_congr fun name hName => by rw [h name hName]

end Substitution

end SqlTemplate
