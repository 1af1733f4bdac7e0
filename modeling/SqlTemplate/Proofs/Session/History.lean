import SqlTemplate.Proofs.Engine.Exact
import SqlTemplate.Proofs.Session.Steps

/-!
# What a session remembers

All steps of a session share one cache, whose size may change at any time. After any steps each
entry of the cache is what its text is compiled to where there is room enough
(`isGenuine_after`). So where a step is taken, **the cache does not show in its answer, unless it
holds a condition that the step meets and that is nested too deeply to be compiled there afresh**
(`answer_emptied`); only the answer to compiling shows whether the text was found.

Apart from such conditions (`HasRoomFor`), a run of any steps shows in the answers to later ones
only through the engines it has made and the settings that new engines take (`history_independent`).
With them it may show: a condition that has been compiled by itself is found by a rendering that
could not have read it (`not_history_independent_always`).
-/

namespace SqlTemplate

open Condition (ByCompiling Cache Compiler)

/-- The text of an answer to a rendering. -/
def Answer.text? : Answer → Option Text
  | rendered text _ _ => some text
  | _ => none

namespace Session

/-! ### The cache behind a run -/

theorem isGenuine_next {s : Session} (h : s.cache.IsGenuine) (step : Step) (room : Nat) :
    (s.next step room).cache.IsGenuine := by
  rcases cache_next step room s with hEmpty | ⟨calls, hCalls⟩
  · rw [hEmpty]
    exact Cache.isGenuine_empty
  · rw [hCalls]
    exact h.after _ calls

/-- **Every entry of the cache is what its text is compiled to**, whatever steps are taken, wherever
and at whichever sizes. -/
theorem isGenuine_after {s : Session} (h : s.cache.IsGenuine) (steps : List (Step × Nat)) :
    (s.after steps).cache.IsGenuine := by
  induction steps generalizing s with
  | nil => exact h
  | cons first rest ih => exact ih (isGenuine_next h first.1 first.2)

/-! ### Conditions that a step meets -/

/-- The conditions that a step compiles where there is some room, if it compiles each of them
afresh. -/
def conditionsMet (s : Session) (room : Nat) : Step → List Text
  | .render id template bindings =>
    match s.engines.lookup id with
    | some e => e.conditionsMet template bindings room
    | none => []
  | .compile source | .value source _ | .outcome source _ | .holds source _ => [source]
  | .parameters template | .check template => (Template.conditions template).map Prod.snd
  | .renderSql template bindings? =>
    Substitution.conditionsMet s.settings template bindings? room
  | _ => []

/-- The room in which a step compiles conditions, of the one that it is given: one call less for
each call between. -/
def compileRoom (room : Nat) : Step → Nat
  | .render _ _ _ => room - 1 - 1 - 1
  | .outcome _ _ => room - 1
  | .holds _ _ => room - 1 - 1
  | .parameters _ => room - 1
  | .check _ => room - 1 - 1
  | .renderSql _ _ => room - 1 - 1 - 1 - 1
  | _ => room

/-- Whether no condition that a step meets is both in the cache and nested too deeply to be compiled
where the step compiles it. -/
def HasRoomFor (s : Session) (step : Step) (room : Nat) : Prop :=
  ∀ source ∈ s.conditionsMet room step, source ∈ s.cache.keys →
    Condition.compile source (compileRoom room step) ≠ .error .tooDeep

/-- A session with nothing in its cache, which may have another size. -/
def emptied (s : Session) (size : Int) : Session :=
  ⟨{ s.settings with cacheSize := size }, .empty, s.engines⟩

theorem isGenuine_emptied (s : Session) (size : Int) : (s.emptied size).cache.IsGenuine :=
  Cache.isGenuine_empty

/-- With an empty cache there is room for every step. -/
theorem hasRoomFor_emptied (s : Session) (size : Int) (step : Step) (room : Nat) :
    (s.emptied size).HasRoomFor step room :=
  fun _ _ h => absurd h List.not_mem_nil

/-- A genuine cache is faithful for the conditions that a step meets if there is room for it. -/
theorem HasRoomFor.isFaithful {s : Session} {step : Step} {room : Nat} (h : s.HasRoomFor step room)
    (hs : s.cache.IsGenuine) :
    s.cache.IsFaithful (compileRoom room step) (· ∈ s.conditionsMet room step) :=
  hs.isFaithful fun source hKey hMet => h source hMet hKey

/-! ### Answers -/

variable {α β : Type}

/-- What compiles conditions for which the cache is faithful answers what it answers when they are
compiled afresh. -/
theorem fst_run_usingCache {action : Compiler (StateM Cache) → StateM Cache α} {a : Id α}
    {room : Nat} {asked : Text → Prop}
    (h : ∀ size, ByCompiling size room asked (action (Cache.compiler size)) a) {s : Session}
    (hs : s.cache.IsFaithful room asked) : ((usingCache action).run s).1 = a :=
  ((h _).transparent s.cache hs).1

/-- Answers to which only what they are made of counts are the same if that is the same. -/
theorem fst_run_bind {x : StateM Session α} {next : α → StateM Session β}
    (hNext : ∀ a, ∃ b, next a = pure b) {s s' : Session} (h : (x.run s).1 = (x.run s').1) :
    ((x >>= next).run s).1 = ((x >>= next).run s').1 := by
  obtain ⟨b, hb⟩ := hNext (x.run s').1
  show ((next (x.run s).1).run (x.run s).2).1 = ((next (x.run s').1).run (x.run s').2).1
  rw [h, hb]
  rfl

/-- A rendering by an engine that there is. -/
theorem run_render_of_some {id : Text} {e : Engine} {s : Session}
    (h : s.engines.lookup id = some e) (template : Value) (bindings : Bindings) (room : Nat) :
    (perform (.render id template bindings) room).run s =
      let rendered := (usingCache fun c => e.renderWith c template bindings room).run s
      (renderedAnswer e rendered.1, rendered.2) := by
  show (engine id >>= _ : StateM Session _).run s = _
  rw [StateT.run_bind, run_engine_of_some h]
  rfl

/-- A rendering by an engine that there is not. -/
theorem answer_render_of_none {id : Text} {s : Session} (h : s.engines.lookup id = none)
    (template : Value) (bindings : Bindings) (room : Nat) :
    answer (.render id template bindings) room s = .error (.unknownEngine id) := by
  show ((engine id >>= _ : StateM Session _).run s).1 = _
  rw [StateT.run_bind, engine, StateT.run_bind, StateT.run_get, pure_bind, h]
  rfl

/-- **A step does not see the cache if there is room for it**, unless it asks whether a condition is
in the cache. -/
theorem answer_emptied {s : Session} (hs : s.cache.IsGenuine) {step : Step} {room : Nat}
    (hRoom : s.HasRoomFor step room) (hStep : ∀ source, step ≠ .compile source) (size : Int) :
    answer step room s = answer step room (s.emptied size) := by
  -- What a step answers depends on what compiling answers, which is the same from both caches.
  have hSame {α : Type} {action : Compiler (StateM Cache) → StateM Cache α} {a : Id α}
      (h : ∀ size, ByCompiling size (compileRoom room step) (· ∈ s.conditionsMet room step)
        (action (Cache.compiler size)) a) :
      ((usingCache action).run s).1 = ((usingCache action).run (s.emptied size)).1 :=
    (fst_run_usingCache h (hRoom.isFaithful hs)).trans
      (fst_run_usingCache h (Cache.isFaithful_empty _ _)).symm
  cases step with
  | setDebug | setTrim | setCacheSize | clearCache => rfl
  | createEngine id globals trim? debug? =>
    show ((createEngine id globals trim? debug?).run s).1 =
      ((createEngine id globals trim? debug?).run (s.emptied size)).1
    have hCreate : Engine.create (s.emptied size).settings globals trim? debug? =
        Engine.create s.settings globals trim? debug? := rfl
    rw [run_createEngine, run_createEngine, hCreate]
    cases Engine.create s.settings globals trim? debug? <;> rfl
  | render id template bindings =>
    cases hEngine : s.engines.lookup id with
    | none =>
      have hEngine' : (s.emptied size).engines.lookup id = none := hEngine
      rw [answer_render_of_none hEngine, answer_render_of_none hEngine']
    | some e =>
      have hEngine' : (s.emptied size).engines.lookup id = some e := hEngine
      rw [answer, answer, run_render_of_some hEngine, run_render_of_some hEngine']
      refine congrArg (renderedAnswer e) (hSame fun size =>
        Engine.byCompiling_renderWith size e template bindings fun source hSource => ?_)
      rwa [conditionsMet, hEngine]
  | merged id bindings =>
    refine fst_run_bind (fun found => ?_) rfl
    cases found with
    | error e => exact ⟨_, rfl⟩
    | ok e => exact ⟨_, rfl⟩
  | setGlobal id => exact fst_run_bind (fun _ => ⟨_, rfl⟩) rfl
  | compile source => exact absurd rfl (hStep source)
  | value source env =>
    refine fst_run_bind (fun compiled => ?_) (hSame fun _ => .compiler (List.mem_singleton_self _))
    cases compiled with
    | ok c => exact ⟨_, rfl⟩
    | error e => exact ⟨_, rfl⟩
  | outcome source env | holds source env =>
    exact fst_run_bind (fun _ => ⟨_, rfl⟩) (fst_run_bind (fun _ => ⟨_, rfl⟩)
      (hSame fun _ => .outcomeWith env (List.mem_singleton_self source)))
  | parameters template =>
    exact fst_run_bind (fun _ => ⟨_, rfl⟩) (hSame fun size =>
      Template.byCompiling_parametersWith size template fun _ h => h)
  | check template =>
    exact fst_run_bind (fun _ => ⟨_, rfl⟩) (hSame fun size =>
      Template.byCompiling_checkWith size template fun _ h => h)
  | renderSql template bindings? =>
    have hAnswer (s : Session) : answer (.renderSql template bindings?) room s =
        (((usingCache fun c =>
          Substitution.renderWith c s.settings template bindings? room).run s).1.map
            .value).mapError .render := rfl
    rw [hAnswer, hAnswer, hSame fun size =>
      Substitution.byCompiling_renderWith size s.settings template bindings? fun _ h => h]
    rfl

/-- What an engine in a session answers is what it renders with its conditions compiled afresh. -/
theorem answer_render {s : Session} (hs : s.cache.IsGenuine) {id : Text} {e : Engine}
    (h : s.engines.lookup id = some e) {template : Value} {bindings : Bindings} {room : Nat}
    (hRoom : s.HasRoomFor (.render id template bindings) room) :
    answer (.render id template bindings) room s =
      renderedAnswer e (e.render template bindings room) := by
  rw [answer, run_render_of_some h]
  refine congrArg (renderedAnswer e) (fst_run_usingCache (fun size =>
    Engine.byCompiling_renderWith size e template bindings fun source hSource => ?_)
    (hRoom.isFaithful hs))
  rwa [conditionsMet, h]

/-- The outcome of a condition is that of the condition compiled afresh. -/
theorem answer_outcome {s : Session} (hs : s.cache.IsGenuine) {source : Text} {env : Environment}
    {room : Nat} (hRoom : s.HasRoomFor (.outcome source env) room) :
    answer (.outcome source env) room s =
      ((Condition.outcome env source room).mapError .ofFault).map .outcome := by
  have hOutcome : ((usingCache fun c => Condition.outcomeWith c env source room).run s).1 =
      Condition.outcome env source room :=
    fst_run_usingCache (fun _ => .outcomeWith env (List.mem_singleton_self source))
      (hRoom.isFaithful hs)
  rw [← hOutcome]
  rfl

/-- A new engine has its globals, and trims as it is told or as the settings say. -/
theorem lookup_engines_createEngine {globals : Bindings} {env : Environment}
    (h : Environment.ofBindings globals = .ok env) (id : Text) (trim? debug? : Option Bool)
    (room : Nat) (s : Session) :
    (s.next (.createEngine id globals trim? debug?) room).engines.lookup id =
      some ⟨env, trim?.getD s.settings.trim, debug?.getD s.settings.debug⟩ := by
  have hCreate : Engine.create s.settings globals trim? debug? =
      .ok ⟨env, trim?.getD s.settings.trim, debug?.getD s.settings.debug⟩ := by
    rw [Engine.create, h]
    rfl
  show ((createEngine id globals trim? debug?).run s).2.engines.lookup id = _
  rw [run_createEngine, hCreate]
  exact (Named.lookup_insert id _ s.engines id).trans (if_pos rfl)

/-- The debug option of an engine shows in the log only. -/
theorem text?_renderedAnswer_debug (env : Environment) (trim debug debug' : Bool)
    (rendering : Except RenderError Rendering) :
    (renderedAnswer ⟨env, trim, debug⟩ rendering).map Answer.text? =
      (renderedAnswer ⟨env, trim, debug'⟩ rendering).map Answer.text? := by
  cases rendering with
  | error e => rfl
  | ok rendering =>
    obtain ⟨trace, result⟩ := rendering
    rw [renderedAnswer, renderedAnswer]
    cases result with
    | error fault => rfl
    | ok text => cases env.shown <;> rfl

/-! ### History -/

/-- **A session remembers its settings and its engines, and conditions that are nested too deeply to
be read everywhere.** After any steps, each taken where there is some room, an entry of the cache is
what its text is compiled to, wherever that is not nested too deeply. A step, except for one that
asks whether a condition is in the cache, has the answer that it has with an empty cache of any size
if there is room for it: if no condition that it meets is kept though it is nested too deeply to be
compiled there. What an engine renders then depends on the bindings that it was made with, on
whether it trims and on what it is given: neither the steps before it was made, nor those since, nor
its debug option show in the text. -/
theorem history_independent (steps : List (Step × Nat)) :
    let s := initial.after steps
    (∀ source c, (source, c) ∈ s.cache.entries →
      (∃ room, Condition.compile source room = .ok c) ∧
      ∀ room, Condition.compile source room ≠ .error .tooDeep →
        Condition.compile source room = .ok c) ∧
    (∀ step room size, (∀ source, step ≠ .compile source) → s.HasRoomFor step room →
      answer step room s = answer step room (s.emptied size)) ∧
    (∀ id globals trim? debug? env made later, Environment.ofBindings globals = .ok env →
      (∀ step ∈ later, ¬step.1.Makes id) → ∀ debug template bindings room,
      let e : Engine := ⟨env, trim?.getD s.settings.trim, debug⟩
      let s' := s.after ((.createEngine id globals trim? debug?, made) :: later)
      s'.HasRoomFor (.render id template bindings) room →
        (answer (.render id template bindings) room s').map Answer.text? =
          (renderedAnswer e (e.render template bindings room)).map Answer.text?) := by
  intro s
  have hGenuine : s.cache.IsGenuine := isGenuine_after Cache.isGenuine_empty steps
  refine ⟨fun source c hEntry => ?_, fun step room size hStep hRoom => ?_, ?_⟩
  · obtain ⟨enough, hCompile⟩ := hGenuine source c hEntry
    exact ⟨⟨enough, hCompile⟩, fun room => Condition.compile_eq_ok_of_eq_ok hCompile⟩
  · exact answer_emptied hGenuine hRoom hStep size
  · intro id globals trim? debug? env made later hEnv hLater debug template bindings room e s' hRoom
    have hEngine := lookup_engines_createEngine hEnv id trim? debug? made s
    rw [← lookup_engines_after hLater] at hEngine
    rw [answer_render (isGenuine_after hGenuine _) hEngine hRoom]
    exact text?_renderedAnswer_debug ..

/-- Steps that are all taken where there is the room that a program leaves which is not deep in
calls. -/
def usually (steps : List Step) : List (Step × Nat) := steps.map (·, Condition.usualRoom)

/-- An engine that was made when nothing was trimmed goes on not trimming, with a condition that was
compiled before it was made and is found since. -/
theorem history_independent_untrimmed :
    (answer (.render ['e'] (.text (Template.Tree.print (.literal ['y']
        (.whenHolds ['a'] (.literal ['x'] .done) .done)))) []) Condition.usualRoom
      (initial.after (usually [.setCacheSize 1, .setTrim false, .compile ['a'],
        .createEngine ['e'] [(.text ['$', 'a'], .bool true)] none none,
        .setTrim true, .setDebug true]))).map Answer.text? = .ok (some ['y', 'x']) ∧
    answer (.outcome ['a'] ⟨[(['a'], .bool true)]⟩) Condition.usualRoom
      (initial.after (usually [.setCacheSize 1, .compile ['a']])) =
        .ok (.outcome (.evaluated true)) := by
  have hA : Template.Tree.IsPlainCondition ['a'] := ⟨by decide, by decide⟩
  have hPlain : Template.Tree.IsPlain (.literal ['y']
      (.whenHolds ['a'] (.literal ['x'] .done) .done)) :=
    ⟨by decide, hA, ⟨by decide, trivial⟩, trivial⟩
  have hRoom {s : Session} (hKeys : s.cache.keys = [['a']]) (step : Step)
      (hStep : 13 ≤ compileRoom Condition.usualRoom step) :
      s.HasRoomFor step Condition.usualRoom := by
    intro source _ hSource
    rw [hKeys, List.mem_singleton] at hSource
    rw [hSource]
    exact Condition.compile_ne_tooDeep
      (Condition.compile_name ⟨List.cons_ne_nil _ _, rfl⟩ rfl hStep)
  constructor
  · have hTrim : (initial.after
        (usually [.setCacheSize 1, .setTrim false, .compile ['a']])).settings.trim = false := by
      decide +kernel
    have hText := (history_independent
      (usually [.setCacheSize 1, .setTrim false, .compile ['a']])).2.2
      ['e'] [(.text ['$', 'a'], .bool true)] none none ⟨[(['a'], .bool true)]⟩ Condition.usualRoom
      (usually [.setTrim true, .setDebug true]) rfl (by simp [usually, Step.Makes]) false
      (.text (Template.Tree.print (.literal ['y'] (.whenHolds ['a'] (.literal ['x'] .done) .done))))
      [] Condition.usualRoom (hRoom (by decide +kernel) _ (by decide))
    rw [hTrim] at hText
    refine Eq.trans ?_ (hText.trans ?_)
    · rfl
    · have hOutcome := Condition.outcome_name ⟨List.cons_ne_nil 'a' [], rfl⟩ rfl
        (by decide : 14 ≤ Condition.usualRoom - 1 - 1) ⟨[(['a'], .bool true)]⟩
      rw [Engine.render_text]
      show (renderedAnswer _ (.ok (Rendering.render false ⟨[(['a'], .bool true)]⟩ _
        (Condition.usualRoom - 1)))).map _ = _
      rw [Rendering.render_print hPlain]
      simp only [Template.Tree.rendering, Rendering.branch, hOutcome]
      rfl
  · have hOutcome := Condition.outcome_name ⟨List.cons_ne_nil 'a' [], rfl⟩ rfl
      (by decide : 14 ≤ Condition.usualRoom) ⟨[(['a'], .bool true)]⟩
    refine ((history_independent (usually [.setCacheSize 1, .compile ['a']])).2.1 _ _ 0
      (fun _ h => by cases h) (hRoom (by decide +kernel) _ (by decide))).trans ?_
    rw [answer_outcome (isGenuine_emptied _ 0) (hasRoomFor_emptied _ _ _ _), hOutcome]
    rfl

/-! ### A condition that is kept though it is nested too deeply -/

/-- A condition that can be read by itself, but not in a rendering. -/
def deepCondition : Text :=
  List.replicate 7 '!' ++ (List.replicate 97 '(' ++ '0' :: List.replicate 97 ')')

/-- A template with the condition. -/
def deepTree : Template.Tree := .whenHolds deepCondition (.literal ['x'] .done) .done

/-- What the condition is compiled to. -/
def deepCompiled : Condition.Compiled :=
  ⟨deepCondition, [], Nat.repeat (.unary .not) 7 (.literal (.number (.int 0)))⟩

theorem compile_deepCondition :
    Condition.compile deepCondition Condition.usualRoom = .ok deepCompiled :=
  toOption_eq_some_iff.mp (by decide +kernel)

theorem compile_deepCondition_of_rendering :
    Condition.compile deepCondition (Condition.usualRoom - 1 - 1 - 1) = .error .tooDeep := by
  have hRoom : Condition.usualRoom - 1 - 1 - 1 ≤ Condition.usualRoom := by decide
  have hNone :
      (Condition.compile deepCondition (Condition.usualRoom - 1 - 1 - 1)).isOk = false := by
    decide +kernel
  refine (Condition.compile_upto hRoom deepCondition).resolve_left fun hSame => ?_
  rw [hSame, compile_deepCondition] at hNone
  cases hNone

theorem extract?_deepTree (trim : Bool) :
    Template.Block.extract? trim deepTree.print = some ⟨[], deepCondition, ['x'], [], []⟩ := by
  have hCondition : Template.Tree.IsPlainCondition deepCondition :=
    ⟨by decide +kernel, by decide +kernel⟩
  have hValid : (Template.Tree.literal ['x'] .done).IsPlain := ⟨by decide, trivial⟩
  have hBlock := Template.Block.extract?_whenHolds List.not_mem_nil hCondition hValid trim []
  rw [deepTree, Template.Tree.print_whenHolds]
  cases trim <;> exact hBlock

/-- The condition fails in a rendering that compiles it afresh. -/
theorem render_deepTree (trim : Bool) :
    Rendering.render trim ⟨[]⟩ deepTree.print (Condition.usualRoom - 1) =
      ⟨[⟨deepCondition, .ok (.failed (.syntaxError .tooDeep))⟩], .ok []⟩ := by
  have hOutcome : Condition.outcome ⟨[]⟩ deepCondition (Condition.usualRoom - 1 - 1) =
      .ok (.failed (.syntaxError .tooDeep)) := by
    rw [Condition.outcome, Condition.outcomeWith, compile_deepCondition_of_rendering]
    rfl
  rw [Rendering.render_of_extract? (extract?_deepTree trim), Rendering.branch, hOutcome]
  show Rendering.mk (_ :: (Rendering.render trim ⟨[]⟩ [] _).trace)
    (Rendering.render trim ⟨[]⟩ [] _).result = _
  rw [Rendering.render_of_notMem List.not_mem_nil]
  rfl

/-- The condition holds in a rendering that finds it. -/
theorem renderWith_deepTree {cache : Cache} (h : cache.IsGenuine)
    (hMem : deepCondition ∈ cache.keys) {size : Int} (hSize : 0 < size) (trim : Bool) :
    ((Rendering.renderWith (Cache.compiler size) trim ⟨[]⟩ deepTree.print
      (Condition.usualRoom - 1)).run cache).1 =
      ⟨[⟨deepCondition, .ok (.evaluated true)⟩], .ok ['x']⟩ := by
  have hOutcome : ((Condition.outcomeWith (Cache.compiler size) ⟨[]⟩ deepCondition
      (Condition.usualRoom - 1 - 1)).run cache).1 = .ok (.evaluated true) :=
    h.fst_outcomeWith_of_mem hSize hMem compile_deepCondition ⟨[]⟩
  have hText : '{' ∉ ['x'] := by decide
  obtain ⟨behind, hRun⟩ :=
    Rendering.exists_run_renderWith (extract?_deepTree trim) hOutcome
  rw [hRun]
  show Rendering.mk
    (_ :: ((Rendering.renderWith (Cache.compiler size) trim ⟨[]⟩ ['x'] _).run behind).1.trace)
    ((Rendering.renderWith (Cache.compiler size) trim ⟨[]⟩ ['x'] _).run behind).1.result = _
  rw [Rendering.renderWith_of_extract?_none _ (Template.Block.extract?_of_notMem hText trim)]
  rfl

/-- The condition is compiled by itself before a rendering meets it. -/
def deepSteps : List Step := [.createEngine ['e'] [] none none, .compile deepCondition]

/-- A step does not always have the answer that it has with an empty cache, not even if all steps
are taken from one place. -/
theorem not_history_independent_always :
    ¬∀ (steps : List Step) (step : Step) (size : Int), (∀ source, step ≠ .compile source) →
      answer step Condition.usualRoom (initial.after (usually steps)) =
        answer step Condition.usualRoom ((initial.after (usually steps)).emptied size) := by
  intro h
  let s := initial.after (usually deepSteps)
  let e : Engine := ⟨⟨[]⟩, Settings.default.trim, Settings.default.debug⟩
  have hNone : Environment.ofBindings [] = .ok ⟨[]⟩ := rfl
  have hOther : ¬(Step.compile deepCondition).Makes ['e'] := id
  have hEngine : s.engines.lookup ['e'] = some e :=
    (lookup_engines_next hOther _ Condition.usualRoom).trans
      (lookup_engines_createEngine hNone ['e'] none none Condition.usualRoom initial)
  have hFound : ((usingCache fun c =>
      e.renderWith c (.text deepTree.print) [] Condition.usualRoom).run s).1 =
        .ok ⟨[⟨deepCondition, .ok (.evaluated true)⟩], .ok ['x']⟩ := by
    let made := initial.next (.createEngine ['e'] [] none none) Condition.usualRoom
    have hBehind : s = made.next (.compile deepCondition) Condition.usualRoom := rfl
    have hMade : 0 < made.settings.cacheSize := by decide
    have hSize : 0 < s.settings.cacheSize := by
      rw [hBehind, next_compile]
      exact hMade
    have hMem : deepCondition ∈ s.cache.keys := by
      rw [hBehind, next_compile]
      exact Cache.mem_keys_compile hMade compile_deepCondition
    exact congrArg Except.ok
      (renderWith_deepTree (isGenuine_after Cache.isGenuine_empty _) hMem hSize e.trim)
  have hFresh : e.render (.text deepTree.print) [] Condition.usualRoom =
      .ok ⟨[⟨deepCondition, .ok (.failed (.syntaxError .tooDeep))⟩], .ok []⟩ := by
    rw [Engine.render_text]
    exact congrArg Except.ok (render_deepTree e.trim)
  have hEngine' : (s.emptied 0).engines.lookup ['e'] = some e := hEngine
  have hSame := h deepSteps (.render ['e'] (.text deepTree.print) []) 0 fun _ hc => by cases hc
  rw [answer_render (isGenuine_emptied _ 0) hEngine' (hasRoomFor_emptied _ _ _ _), hFresh, answer,
    run_render_of_some hEngine] at hSame
  dsimp only at hSame
  rw [hFound] at hSame
  have hTexts := congrArg (Except.map Answer.text?) hSame
  cases hTexts

end Session

end SqlTemplate
