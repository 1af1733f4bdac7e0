import SqlTemplate.Proofs.Condition.Faithful

/-!
# What compiling does to the texts in a cache

A call finds its text in the cache and moves it to the end, or it compiles it afresh, puts it to the
end and drops the oldest texts that exceed the size, or it fails and leaves the cache as it is
(`Cache.keys_compile_of_mem`, `Cache.keys_compile_of_notMem`, `Cache.compile_of_error`). **No text
is ever in the cache twice** (`Cache.nodup_keys_after`), so a text that is found leaves the number
of texts as it is, and **calls at sizes that never exceed a bound keep the number of texts below
it** (`Cache.length_keys_after_le`).

An action may compile texts and do nothing else to the cache (`ByCompiling`). **It leaves the cache
as the calls would** (`ByCompiling.onlyCompiles`), **and it answers what it answers when each text
is compiled afresh**, if the cache is faithful for the texts that it asks for
(`ByCompiling.transparent`).
-/

namespace SqlTemplate

namespace Condition

/-! ### A text at the end of others -/

/-- Texts with one of them at the end, whether it was among them or not. -/
def withLast (texts : List Text) (source : Text) : List Text :=
  texts.filter (· != source) ++ [source]

section

variable {texts texts' : List Text} {source : Text}

theorem mem_withLast {text : Text} :
    text ∈ withLast texts source ↔ text = source ∨ text ∈ texts := by
  rw [withLast, List.mem_append, List.mem_filter, List.mem_singleton, bne_iff_ne]
  constructor
  · rintro (⟨h, -⟩ | h)
    · exact .inr h
    · exact .inl h
  · intro h
    by_cases hEq : text = source
    · exact .inr hEq
    · exact .inl ⟨h.resolve_left hEq, hEq⟩

theorem withLast_of_notMem (h : source ∉ texts) : withLast texts source = texts ++ [source] := by
  rw [withLast, List.filter_eq_self.mpr]
  intro text hText
  rw [bne_iff_ne]
  rintro rfl
  exact h hText

theorem nodup_withLast (h : texts.Nodup) (source : Text) : (withLast texts source).Nodup := by
  rw [withLast, List.nodup_append]
  refine ⟨h.sublist List.filter_sublist, List.pairwise_singleton _ source, ?_⟩
  intro text hText last hLast
  rw [List.mem_singleton.mp hLast]
  exact bne_iff_ne.mp (List.mem_filter.mp hText).2

/-- A text that was there before adds nothing. -/
theorem length_withLast_of_mem (h : texts.Nodup) (hMem : source ∈ texts) :
    (withLast texts source).length = texts.length := by
  have hPos : 0 < texts.length := List.length_pos_of_mem hMem
  rw [withLast, ← h.erase_eq_filter, List.length_append, List.length_erase_of_mem hMem,
    List.length_singleton]
  omega

theorem length_withLast_of_notMem (h : source ∉ texts) :
    (withLast texts source).length = texts.length + 1 := by
  rw [withLast_of_notMem h, List.length_append, List.length_singleton]

theorem withLast_suffix_withLast (h : texts <:+ texts') (source : Text) :
    withLast texts source <:+ withLast texts' source :=
  List.suffix_append_self_iff.mpr (h.filter _)

end

namespace Cache

variable {cache : Cache} {size : Int} {source : Text} {room : Nat} {c : Compiled}

theorem keys_touch (cache : Cache) (source : Text) (c : Compiled) :
    (cache.touch source c).keys = withLast cache.keys source := by
  rw [keys, touch, withLast, keys, List.map_append, List.filter_map]
  rfl

theorem keys_shrink (cache : Cache) (size : Nat) :
    (cache.shrink size).keys = cache.keys.drop (cache.keys.length - size) := by
  rw [keys, shrink, List.map_drop, keys, List.length_map]

theorem lookup_isSome_iff : (cache.lookup source).isSome ↔ source ∈ cache.keys := by
  rw [lookup, List.lookup_isSome_iff, keys, List.mem_map]
  constructor
  · rintro ⟨entry, hEntry, hEq⟩
    exact ⟨entry, hEntry, (beq_iff_eq.mp hEq).symm⟩
  · rintro ⟨entry, hEntry, rfl⟩
    exact ⟨entry, hEntry, beq_self_eq_true _⟩

/-- At a size above zero, what is in the cache is found. -/
theorem hits_iff (hSize : 0 < size) : cache.hits size source ↔ source ∈ cache.keys := by
  rw [hits, decide_eq_true hSize, Bool.true_and, lookup_isSome_iff]

/-! ### One call -/

/-- Without a size the cache is passed by. -/
theorem compile_of_nonpos (h : size ≤ 0) :
    cache.compile size source room = (Condition.compile source room, cache) := if_pos h

/-- A text that is found moves to the end. -/
theorem compile_of_mem (hSize : 0 < size) (hMem : source ∈ cache.keys) :
    ∃ c, cache.compile size source room = (.ok c, cache.touch source c) := by
  obtain ⟨c, hLookup⟩ := Option.isSome_iff_exists.mp (lookup_isSome_iff.mpr hMem)
  exact ⟨c, by rw [compile, if_neg (Int.not_le.mpr hSize), hLookup]⟩

theorem lookup_of_notMem (h : source ∉ cache.keys) : cache.lookup source = none := by
  rw [← Option.not_isSome_iff_eq_none, lookup_isSome_iff]
  exact h

/-- What is not in the cache is compiled afresh, at any size. -/
theorem fst_compile_of_notMem (h : source ∉ cache.keys) :
    (cache.compile size source room).1 = Condition.compile source room := by
  rw [Cache.compile, lookup_of_notMem h]
  split
  · rfl
  · dsimp only
    split
    next hCompile => exact hCompile.symm
    next hCompile => exact hCompile.symm

/-- At a size above zero, a call fails if and only if its text is not found and cannot be
compiled. -/
theorem isOk_fst_compile_iff (hSize : 0 < size) :
    (cache.compile size source room).1.isOk ↔
      source ∈ cache.keys ∨ (Condition.compile source room).isOk := by
  by_cases hMem : source ∈ cache.keys
  · obtain ⟨c, hFound⟩ := @compile_of_mem cache size source room hSize hMem
    rw [hFound]
    exact iff_of_true rfl (.inl hMem)
  · rw [fst_compile_of_notMem hMem, or_iff_right hMem]

/-- **A text in a genuine cache is found wherever it is asked for**, even where it is nested too
deeply to be compiled afresh. -/
theorem IsGenuine.fst_compile_of_mem (h : cache.IsGenuine) (hSize : 0 < size)
    (hMem : source ∈ cache.keys) {enough : Nat}
    (hCompile : Condition.compile source enough = .ok c) :
    (cache.compile size source room).1 = .ok c := by
  obtain ⟨c', hLookup⟩ := Option.isSome_iff_exists.mp (lookup_isSome_iff.mpr hMem)
  obtain ⟨enough', hCompile'⟩ := h source c' (mem_of_lookup hLookup)
  have hSame : Condition.compile source enough = .ok c' :=
    compile_eq_ok_of_eq_ok hCompile' (compile_ne_tooDeep hCompile)
  rw [Cache.compile, if_neg (Int.not_le.mpr hSize), hLookup]
  exact hSame.symm.trans hCompile

/-- So it is tested by what it was compiled to. -/
theorem IsGenuine.fst_outcomeWith_of_mem (h : cache.IsGenuine) (hSize : 0 < size)
    (hMem : source ∈ cache.keys) {enough : Nat} (hCompile : Condition.compile source enough = .ok c)
    (env : Environment) :
    ((outcomeWith (compiler size) env source room).run cache).1 =
      Outcome.ofValue (c.evaluate env (room - 1)) := by
  have hFound : (cache.compile size source (room - 1)).1 = .ok c :=
    h.fst_compile_of_mem hSize hMem hCompile
  rw [outcomeWith, StateT.run_bind]
  generalize hFirst : (compiler size source (room - 1)).run cache = first
  obtain ⟨compiled, behind⟩ := first
  cases (congrArg Prod.fst hFirst).symm.trans hFound
  rfl

/-- A text that is not found and can be compiled comes to the end, and the oldest ones leave. -/
theorem compile_of_notMem (hSize : 0 < size) (hMem : source ∉ cache.keys)
    (hCompile : Condition.compile source room = .ok c) :
    cache.compile size source room = (.ok c, (cache.touch source c).shrink size.toNat) := by
  rw [compile, if_neg (Int.not_le.mpr hSize), lookup_of_notMem hMem, hCompile]

theorem keys_compile_of_mem (hSize : 0 < size) (hMem : source ∈ cache.keys) :
    (cache.compile size source room).2.keys = withLast cache.keys source := by
  obtain ⟨c, hCompile⟩ := compile_of_mem hSize hMem
  rw [hCompile, keys_touch]

theorem keys_compile_of_notMem (hSize : 0 < size) (hMem : source ∉ cache.keys)
    (hCompile : Condition.compile source room = .ok c) :
    (cache.compile size source room).2.keys =
      (cache.keys ++ [source]).drop (cache.keys.length + 1 - size.toNat) := by
  rw [compile_of_notMem hSize hMem hCompile, keys_shrink, keys_touch, withLast_of_notMem hMem,
    List.length_append, List.length_singleton]

/-- What can be compiled is in the cache then. -/
theorem mem_keys_compile (hSize : 0 < size) (hCompile : Condition.compile source room = .ok c) :
    source ∈ (cache.compile size source room).2.keys := by
  by_cases hMem : source ∈ cache.keys
  · rw [keys_compile_of_mem hSize hMem]
    exact mem_withLast.mpr (.inl rfl)
  · have hKept : cache.keys.length + 1 - size.toNat ≤ cache.keys.length := by omega
    rw [keys_compile_of_notMem hSize hMem hCompile, List.drop_append_of_le_length hKept]
    exact List.mem_append_right _ (List.mem_singleton_self source)

/-- **A call that fails leaves the cache as it is.** -/
theorem compile_of_error {e : SyntaxError} (h : (cache.compile size source room).1 = .error e) :
    (cache.compile size source room).2 = cache := by
  rw [compile] at h ⊢
  split
  · rfl
  next hSize =>
    rw [if_neg hSize] at h
    split at h
    · cases h
    next hLookup =>
      split at h
      · cases h
      next hError => rfl

/-- What a call does to the texts in a cache: nothing, or its text comes to the end and the oldest
ones leave if it is new and more than the size are there. -/
theorem keys_compile_cases (size : Int) (source : Text) (room : Nat) (cache : Cache) :
    (cache.compile size source room).2 = cache ∨
    (0 < size ∧ source ∈ cache.keys ∧
      (cache.compile size source room).2.keys = withLast cache.keys source) ∨
    (0 < size ∧ source ∉ cache.keys ∧ (cache.compile size source room).2.keys =
      (cache.keys ++ [source]).drop (cache.keys.length + 1 - size.toNat)) := by
  by_cases hSize : 0 < size
  · by_cases hMem : source ∈ cache.keys
    · exact .inr (.inl ⟨hSize, hMem, keys_compile_of_mem hSize hMem⟩)
    · cases hCompile : Condition.compile source room with
      | ok c => exact .inr (.inr ⟨hSize, hMem, keys_compile_of_notMem hSize hMem hCompile⟩)
      | error e =>
        refine .inl ?_
        rw [compile, if_neg (Int.not_le.mpr hSize), lookup_of_notMem hMem, hCompile]
  · exact .inl (by rw [compile_of_nonpos (Int.not_lt.mp hSize)])

/-- A call puts no text into the cache twice. -/
theorem nodup_keys_compile (h : cache.keys.Nodup) (size : Int) (source : Text) (room : Nat) :
    (cache.compile size source room).2.keys.Nodup := by
  rcases keys_compile_cases size source room cache with hSame | ⟨-, -, hKeys⟩ | ⟨-, hMem, hKeys⟩
  · rwa [hSame]
  · rw [hKeys]
    exact nodup_withLast h source
  · rw [hKeys, ← withLast_of_notMem hMem]
    exact (nodup_withLast h source).sublist (List.drop_sublist _ _)

/-- The number of texts behind a call that finds its text is the one before it. -/
theorem length_keys_compile_of_mem (h : cache.keys.Nodup) (hSize : 0 < size)
    (hMem : source ∈ cache.keys) :
    (cache.compile size source room).2.keys.length = cache.keys.length := by
  rw [keys_compile_of_mem hSize hMem, length_withLast_of_mem h hMem]

/-- Behind a call that compiles its text afresh there is one text more, up to the size. -/
theorem length_keys_compile_of_notMem (hSize : 0 < size) (hMem : source ∉ cache.keys)
    (hCompile : Condition.compile source room = .ok c) :
    (cache.compile size source room).2.keys.length = min size.toNat (cache.keys.length + 1) := by
  rw [keys_compile_of_notMem hSize hMem hCompile, List.length_drop, List.length_append,
    List.length_singleton]
  omega

/-- A call at a size below a bound keeps the number of texts below it. -/
theorem length_keys_compile_le (h : cache.keys.Nodup) {bound : Nat}
    (hBound : cache.keys.length ≤ bound) (hSize : size ≤ bound) (source : Text) (room : Nat) :
    (cache.compile size source room).2.keys.length ≤ bound := by
  rcases keys_compile_cases size source room cache with hSame | ⟨-, hMem, hKeys⟩ | ⟨hPos, -, hKeys⟩
  · rwa [hSame]
  · rwa [hKeys, length_withLast_of_mem h hMem]
  · rw [hKeys, List.length_drop, List.length_append, List.length_singleton]
    omega

/-! ### Calls one after another -/

/-- The cache behind compiling texts one after another, each where there is some room. -/
def after (cache : Cache) (size : Int) (calls : List (Text × Nat)) : Cache :=
  calls.foldl (fun cache call => (cache.compile size call.1 call.2).2) cache

theorem after_append (cache : Cache) (size : Int) (calls later : List (Text × Nat)) :
    cache.after size (calls ++ later) = (cache.after size calls).after size later :=
  List.foldl_append

theorem IsGenuine.after (h : cache.IsGenuine) (size : Int) (calls : List (Text × Nat)) :
    (cache.after size calls).IsGenuine := by
  induction calls generalizing cache with
  | nil => exact h
  | cons call calls ih => exact ih (h.compile size call.1 call.2)

/-- **However often texts are compiled, none is in the cache twice.** -/
theorem nodup_keys_after (h : cache.keys.Nodup) (size : Int) (calls : List (Text × Nat)) :
    (cache.after size calls).keys.Nodup := by
  induction calls generalizing cache with
  | nil => exact h
  | cons call calls ih => exact ih (nodup_keys_compile h size call.1 call.2)

theorem length_keys_after_le (h : cache.keys.Nodup) {bound : Nat}
    (hBound : cache.keys.length ≤ bound) (hSize : size ≤ bound) (calls : List (Text × Nat)) :
    (cache.after size calls).keys.length ≤ bound := by
  induction calls generalizing cache with
  | nil => exact hBound
  | cons call calls ih =>
    exact ih (nodup_keys_compile h size call.1 call.2)
      (length_keys_compile_le h hBound hSize call.1 call.2)

end Cache

/-- Whether all that an action does to the cache is to compile texts at a size. -/
def OnlyCompiles {α : Type} (size : Int) (action : StateM Cache α) : Prop :=
  ∀ cache, ∃ calls, (action.run cache).2 = cache.after size calls

namespace OnlyCompiles

variable {α β : Type} {size : Int}

theorem pure (a : α) : OnlyCompiles size (Pure.pure a) := fun _ => ⟨[], rfl⟩

/-- The calls of two actions one after another are appended. -/
theorem bind {x : StateM Cache α} {next : α → StateM Cache β} (hx : OnlyCompiles size x)
    (hNext : ∀ a, OnlyCompiles size (next a)) : OnlyCompiles size (x >>= next) := by
  intro cache
  obtain ⟨calls, hCalls⟩ := hx cache
  obtain ⟨later, hLater⟩ := hNext (x.run cache).1 (x.run cache).2
  refine ⟨calls ++ later, ?_⟩
  rw [Cache.after_append, ← hCalls, ← hLater]
  rfl

theorem compiler (source : Text) (room : Nat) :
    OnlyCompiles size (Cache.compiler size source room) :=
  fun _ => ⟨[(source, room)], rfl⟩

end OnlyCompiles

/-- Whether an action gets at the cache only by compiling texts, at a size and where there is some
room, and has an answer when each text is compiled afresh. Then it asks for some texts and no
others. -/
inductive ByCompiling (size : Int) (room : Nat) :
    (Text → Prop) → {α : Type} → StateM Cache α → Id α → Prop where
  /-- Nothing is compiled. -/
  | pure {asked : Text → Prop} {α : Type} (a : α) :
      ByCompiling size room asked (Pure.pure a) (Pure.pure a)
  /-- One text is compiled. -/
  | compiler {asked : Text → Prop} {source : Text} : asked source →
      ByCompiling size room asked (Cache.compiler size source room) (compile source room)
  /-- One action follows another, whatever that one answers: a cache that is not faithful may give
  an answer that compiling afresh does not, and then any text may be asked for. -/
  | bind {asked : Text → Prop} {α β : Type} {x : StateM Cache α} {a : Id α}
      {next : α → StateM Cache β} {afresh : α → Id β} (first : ByCompiling size room asked x a)
      (later : ∀ b, ByCompiling size room (fun source => b = a → asked source) (next b)
        (afresh b)) :
      ByCompiling size room asked (x >>= next) (a >>= afresh)

namespace ByCompiling

variable {size : Int} {room : Nat} {asked : Text → Prop}

/-- A condition is evaluated as a test by compiling it. -/
theorem outcomeWith (env : Environment) {source : Text} (h : asked source) :
    ByCompiling size (room - 1) asked (Condition.outcomeWith (Cache.compiler size) env source room)
      (outcome env source room) := by
  refine bind (compiler h) fun compiled => ?_
  cases compiled with
  | ok c => exact pure _
  | error e => exact pure _

variable {α : Type} {action : StateM Cache α} {answer : Id α}

/-- An action that only compiles is transparent. -/
theorem transparent (h : ByCompiling size room asked action answer) :
    Transparent room asked action answer := by
  induction h with
  | pure a => exact .pure a
  | compiler hAsked => exact .compiler hAsked size
  | @bind asked _ _ _ a _ _ _ _ ihFirst ihLater =>
    have hAsked : (fun source => a = a → asked source) = asked := by
      simp only [forall_const]
    exact .bind ihFirst (hAsked ▸ ihLater a)

/-- An action that only compiles leaves the cache as its calls would. -/
theorem onlyCompiles (h : ByCompiling size room asked action answer) :
    OnlyCompiles size action := by
  induction h with
  | pure a => exact .pure a
  | compiler => exact .compiler _ room
  | bind first later ihFirst ihLater => exact .bind ihFirst ihLater

end ByCompiling

end Condition

end SqlTemplate
