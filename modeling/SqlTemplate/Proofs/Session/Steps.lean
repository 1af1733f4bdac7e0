import SqlTemplate.Proofs.Engine.Calls
import SqlTemplate.Session

/-!
# What steps do in a session

Most steps get at their session in few ways: they look up an engine or make one, set an option of
new engines, and compile conditions by way of the cache (`Session.Ordinary`). **All others set the
size of the cache, empty it or ask whether a condition is in it** (`Session.perform_cases`). So
what holds of these few ways, and of one after another, holds of all ordinary steps: an engine stays
as it was made until another one takes its name (`Session.lookup_engines_after`), and **the cache is
emptied or left as some calls would leave it** (`Session.cache_next`).
-/

namespace SqlTemplate

open Condition (ByCompiling Cache Compiler)

/-- Whether a step makes an engine of a name. -/
def Step.Makes (id : Text) : Step → Prop
  | .createEngine id' _ _ _ => id' = id
  | _ => False

namespace Session

/-! ### Engines by their names -/

/-- A new engine is put under its name, if there is one. -/
theorem run_createEngine (id : Text) (globals : Bindings) (trim? debug? : Option Bool)
    (s : Session) :
    (createEngine id globals trim? debug?).run s =
      match Engine.create s.settings globals trim? debug? with
      | .error fault => (.error (.ofFault fault), s)
      | .ok e => ((e.globals.shown.map (.engine e)).mapError .ofFault,
          { s with engines := Named.insert id e s.engines }) := by
  have hBind : (createEngine id globals trim? debug?).run s =
      (match Engine.create s.settings globals trim? debug? with
      | .error fault => pure (.error (.ofFault fault))
      | .ok e => do
        set { s with engines := Named.insert id e s.engines }
        pure ((e.globals.shown.map (.engine e)).mapError .ofFault) :
          StateM Session (Except Failure Answer)).run s := rfl
  rw [hBind]
  cases Engine.create s.settings globals trim? debug? <;> rfl

theorem run_engine_of_some {id : Text} {e : Engine} {s : Session}
    (h : s.engines.lookup id = some e) : (engine id).run s = (.ok e, s) := by
  simp only [engine, StateT.run_bind, StateT.run_get, pure_bind, h]
  rfl

/-! ### Ordinary steps -/

/-- Whether an action gets at its session in the ways of ordinary steps only, and makes engines of
no other names than those that are given. -/
inductive Ordinary (made : Text → Prop) : {α : Type} → StateM Session α → Prop where
  /-- The session is left alone. -/
  | pure {α : Type} (a : α) : Ordinary made (Pure.pure a)
  /-- An engine is looked up. -/
  | engine (id : Text) : Ordinary made (Session.engine id)
  /-- An engine is made. -/
  | createEngine {id : Text} (globals : Bindings) (trim? debug? : Option Bool) :
      made id → Ordinary made (Session.createEngine id globals trim? debug?)
  /-- It is set whether failed conditions are logged. -/
  | setDebug (debug : Bool) :
      Ordinary made (modify fun s => { s with settings := { s.settings with debug } })
  /-- It is set whether new engines trim. -/
  | setTrim (trim : Bool) :
      Ordinary made (modify fun s => { s with settings := { s.settings with trim } })
  /-- Conditions are compiled, whichever they are and wherever it is done. -/
  | compiling {room : Nat} {α : Type}
      (action : Settings → Compiler (StateM Cache) → StateM Cache α)
      {answer : Settings → Id α} :
      (∀ settings size, ByCompiling size room (fun _ => True)
        (action settings (Cache.compiler size)) (answer settings)) →
      Ordinary made (get >>= fun s => Session.usingCache (action s.settings))
  /-- One action follows another. -/
  | bind {α β : Type} {x : StateM Session α} {next : α → StateM Session β} :
      Ordinary made x → (∀ a, Ordinary made (next a)) → Ordinary made (x >>= next)

namespace Ordinary

variable {made : Text → Prop} {room : Nat} {α : Type}

theorem usingCache {action : Compiler (StateM Cache) → StateM Cache α} {a : Id α}
    (h : ∀ size, ByCompiling size room (fun _ => True) (action (Cache.compiler size)) a) :
    Ordinary made (Session.usingCache action) :=
  compiling (fun _ => action) fun _ => h

theorem compile (source : Text) (room : Nat) :
    Ordinary made (Session.usingCache fun c => c source room) :=
  .usingCache fun _ => .compiler trivial

theorem outcome (source : Text) (env : Environment) (room : Nat) :
    Ordinary made (Session.outcome source env room) :=
  .bind (.usingCache fun _ => .outcomeWith env trivial) fun _ => .pure _

end Ordinary

/-- A step that is not about the cache itself is ordinary. -/
theorem ordinary_perform {step : Step} (hSize : ∀ size, step ≠ .setCacheSize size)
    (hClear : step ≠ .clearCache) (hCompile : ∀ source, step ≠ .compile source) (room : Nat) :
    Ordinary (fun id => step.Makes id) (perform step room) := by
  cases step with
  | setDebug debug => exact .bind (.setDebug debug) fun _ => .pure _
  | setTrim trim => exact .bind (.setTrim trim) fun _ => .pure _
  | setCacheSize size => exact absurd rfl (hSize size)
  | createEngine id globals trim? debug? => exact .createEngine globals trim? debug? rfl
  | render id template bindings =>
    refine .bind (.engine id) fun found => ?_
    cases found with
    | error e => exact .pure _
    | ok e =>
      exact .bind (.usingCache fun size =>
        Engine.byCompiling_renderWith size e template bindings fun _ _ => trivial) fun _ => .pure _
  | merged id bindings =>
    refine .bind (.engine id) fun found => ?_
    cases found with
    | error e => exact .pure _
    | ok e => exact .pure _
  | setGlobal id => exact .bind (.engine id) fun _ => .pure _
  | compile source => exact absurd rfl (hCompile source)
  | clearCache => exact absurd rfl hClear
  | value source env =>
    refine .bind (.compile source room) fun compiled => ?_
    cases compiled with
    | ok c => exact .pure _
    | error e => exact .pure _
  | outcome source env => exact .bind (.outcome source env room) fun _ => .pure _
  | holds source env => exact .bind (.outcome source env (room - 1)) fun _ => .pure _
  | parameters template =>
    exact .bind (.usingCache fun size =>
      Template.byCompiling_parametersWith size template fun _ _ => trivial) fun _ => .pure _
  | check template =>
    exact .bind (.usingCache fun size =>
      Template.byCompiling_checkWith size template fun _ _ => trivial) fun _ => .pure _
  | renderSql template bindings? =>
    have hPerform : perform (.renderSql template bindings?) room =
        (get >>= fun s => Session.usingCache fun compiler =>
            Substitution.renderWith compiler s.settings template bindings? room) >>=
          fun result => Pure.pure ((result.map .value).mapError .render) := rfl
    rw [hPerform]
    exact .bind (.compiling
      (fun settings compiler => Substitution.renderWith compiler settings template bindings? room)
      fun settings size =>
        Substitution.byCompiling_renderWith size settings template bindings? fun _ _ => trivial)
      fun _ => .pure _

/-- **A step sets the size of the cache, empties it, asks whether a condition is in it, or is
ordinary.** -/
theorem perform_cases (step : Step) (room : Nat) :
    (∃ size, step = .setCacheSize size) ∨ step = .clearCache ∨
      (∃ source, step = .compile source) ∨
      Ordinary (fun id => step.Makes id) (perform step room) := by
  by_cases hSize : ∃ size, step = .setCacheSize size
  · exact .inl hSize
  by_cases hClear : step = .clearCache
  · exact .inr (.inl hClear)
  by_cases hCompile : ∃ source, step = .compile source
  · exact .inr (.inr (.inl hCompile))
  · exact .inr (.inr (.inr (ordinary_perform (fun size h => hSize ⟨size, h⟩) hClear
      (fun source h => hCompile ⟨source, h⟩) room)))

/-! ### Steps and runs -/

/-- The answer to a step in a session, where there is some room. -/
def answer (step : Step) (room : Nat) (s : Session) : Except Failure Answer :=
  ((perform step room).run s).1

/-- The session behind a step. -/
def next (s : Session) (step : Step) (room : Nat) : Session := ((perform step room).run s).2

/-- The session behind steps, each where there is some room. -/
def after (s : Session) (steps : List (Step × Nat)) : Session := ((performAll steps).run s).2

theorem after_cons (step : Step) (room : Nat) (rest : List (Step × Nat)) (s : Session) :
    s.after ((step, room) :: rest) = (s.next step room).after rest := rfl

/-- What only looks at an answer leaves the session as it is. -/
theorem run_bind_snd {α β : Type} {x : StateM Session α} {next : α → StateM Session β}
    (h : ∀ a, ∃ b, next a = pure b) (s : Session) : ((x >>= next).run s).2 = (x.run s).2 := by
  obtain ⟨b, hNext⟩ := h (x.run s).1
  show ((next (x.run s).1).run (x.run s).2).2 = _
  rw [hNext]
  rfl

/-- Compiling a condition changes nothing but the cache. -/
theorem next_compile (source : Text) (s : Session) (room : Nat) :
    s.next (.compile source) room =
      { s with cache := (s.cache.compile s.settings.cacheSize source room).2 } := by
  show (((get : StateM Session Session) >>= fun _ =>
    usingCache (fun c => c source room) >>= _).run s).2 = _
  rw [StateT.run_bind]
  refine run_bind_snd (fun compiled => ?_) s
  cases compiled with
  | ok c => exact ⟨_, rfl⟩
  | error e => exact ⟨_, rfl⟩

/-! ### Engines stay -/

/-- What gets at its session in the ways of ordinary steps keeps the engines whose names it does
not make. -/
theorem Ordinary.lookup_engines {made : Text → Prop} {α : Type} {action : StateM Session α}
    (h : Ordinary made action) {id : Text} (hId : ¬made id) (s : Session) :
    (action.run s).2.engines.lookup id = s.engines.lookup id := by
  induction h generalizing s with
  | pure | engine | setDebug | setTrim | compiling => rfl
  | createEngine globals trim? debug? hMade =>
    rw [run_createEngine]
    cases Engine.create s.settings globals trim? debug? with
    | error fault => rfl
    | ok e =>
      refine (Named.lookup_insert _ e s.engines id).trans (if_neg fun hEq => ?_)
      exact hId (hEq ▸ hMade)
  | bind _ _ hFirst hNext => exact (hNext _ _).trans (hFirst s)

/-- An engine stays as it is unless one of its name is made. -/
theorem lookup_engines_next {step : Step} {id : Text} (h : ¬step.Makes id) (s : Session)
    (room : Nat) : (s.next step room).engines.lookup id = s.engines.lookup id := by
  obtain ⟨size, rfl⟩ | rfl | ⟨source, rfl⟩ | hOrdinary := perform_cases step room
  · rfl
  · rfl
  · rw [next_compile]
  · exact hOrdinary.lookup_engines h s

theorem lookup_engines_after {steps : List (Step × Nat)} {id : Text}
    (h : ∀ step ∈ steps, ¬step.1.Makes id) (s : Session) :
    (s.after steps).engines.lookup id = s.engines.lookup id := by
  induction steps generalizing s with
  | nil => rfl
  | cons first rest ih =>
    obtain ⟨hFirst, hRest⟩ := List.forall_mem_cons.mp h
    obtain ⟨step, room⟩ := first
    rw [after_cons, ih hRest, lookup_engines_next hFirst]

/-! ### What is done to the cache -/

/-- Whether all that an action does to the cache is to compile texts at the size that is set, which
it leaves as it is. -/
def OnlyCompiles {α : Type} (action : StateM Session α) : Prop :=
  ∀ s, (action.run s).2.settings.cacheSize = s.settings.cacheSize ∧
    ∃ calls, (action.run s).2.cache = s.cache.after s.settings.cacheSize calls

namespace OnlyCompiles

variable {α β : Type}

theorem pure (a : α) : OnlyCompiles (Pure.pure a) := fun _ => ⟨rfl, [], rfl⟩

theorem bind {x : StateM Session α} {next : α → StateM Session β} (hx : OnlyCompiles x)
    (hNext : ∀ a, OnlyCompiles (next a)) : OnlyCompiles (x >>= next) := by
  intro s
  obtain ⟨hSize, calls, hCalls⟩ := hx s
  obtain ⟨hSize', later, hLater⟩ := hNext (x.run s).1 (x.run s).2
  refine ⟨hSize'.trans hSize, calls ++ later, ?_⟩
  rw [Cache.after_append, ← hCalls, ← hSize, ← hLater]
  rfl

theorem createEngine (id : Text) (globals : Bindings) (trim? debug? : Option Bool) :
    OnlyCompiles (Session.createEngine id globals trim? debug?) := by
  intro s
  rw [run_createEngine]
  cases Engine.create s.settings globals trim? debug? with
  | error fault => exact ⟨rfl, [], rfl⟩
  | ok e => exact ⟨rfl, [], rfl⟩

end OnlyCompiles

theorem Ordinary.onlyCompiles {made : Text → Prop} {α : Type} {action : StateM Session α}
    (h : Ordinary made action) : OnlyCompiles action := by
  induction h with
  | pure a => exact .pure a
  | engine | setDebug | setTrim => exact fun s => ⟨rfl, [], rfl⟩
  | createEngine globals trim? debug? _ => exact .createEngine _ globals trim? debug?
  | compiling _ hCompiling =>
    exact fun s => ⟨rfl, (hCompiling s.settings s.settings.cacheSize).onlyCompiles s.cache⟩
  | bind _ _ hFirst hNext => exact .bind hFirst hNext

/-- **A step empties the cache or leaves it as calls at the size that is set would.** -/
theorem cache_next (step : Step) (room : Nat) (s : Session) :
    (s.next step room).cache = .empty ∨
      ∃ calls, (s.next step room).cache = s.cache.after s.settings.cacheSize calls := by
  obtain ⟨size, rfl⟩ | rfl | ⟨source, rfl⟩ | hOrdinary := perform_cases step room
  · exact .inr ⟨[], rfl⟩
  · exact .inl rfl
  · rw [next_compile]
    exact .inr ⟨[(source, room)], rfl⟩
  · exact .inr (hOrdinary.onlyCompiles s).2

end Session

end SqlTemplate
