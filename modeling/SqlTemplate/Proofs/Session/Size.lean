import SqlTemplate.Proofs.Results
import SqlTemplate.Proofs.Session.History

/-!
# The size of a session's cache

Whatever a step does, it leaves the cache of a session as some calls at the size that is set would,
or empties it (`Session.cache_next`). So no text is ever in the cache twice
(`Session.nodup_keys_after`), and **the number of texts never exceeds the largest size that has been
set** (`Session.length_keys_after_le`).

When the size is lowered, the cache keeps what it holds until a condition is compiled afresh.
**Right behind a compiled condition the size is kept just if the condition was not found, or if no
more than the size was there before** (`Session.keeps_size_iff`).
-/

namespace SqlTemplate

open Condition (Cache)

namespace Session

/-! ### Steps -/

theorem nodup_keys_next {s : Session} (h : s.cache.keys.Nodup) (step : Step) (room : Nat) :
    (s.next step room).cache.keys.Nodup := by
  rcases cache_next step room s with hEmpty | ⟨calls, hCalls⟩
  · rw [hEmpty]
    exact List.Pairwise.nil
  · rw [hCalls]
    exact Cache.nodup_keys_after h _ calls

theorem length_keys_next_le {s : Session} (h : s.cache.keys.Nodup) {bound : Nat}
    (hBound : s.cache.keys.length ≤ bound) (hSize : s.settings.cacheSize ≤ bound) (step : Step)
    (room : Nat) : (s.next step room).cache.keys.length ≤ bound := by
  rcases cache_next step room s with hEmpty | ⟨calls, hCalls⟩
  · rw [hEmpty]
    exact Nat.zero_le bound
  · rw [hCalls]
    exact Cache.length_keys_after_le h hBound hSize calls

/-! ### Runs -/

theorem nodup_keys_initial : initial.cache.keys.Nodup := List.Pairwise.nil

/-- **No text is in the cache twice**, whatever steps are taken. -/
theorem nodup_keys_after {s : Session} (h : s.cache.keys.Nodup) (steps : List (Step × Nat)) :
    (s.after steps).cache.keys.Nodup := by
  induction steps generalizing s with
  | nil => exact h
  | cons step rest ih => exact ih (nodup_keys_next h step.1 step.2)

/-- **A bound on all sizes that are set on the way bounds the number of texts in the cache.** -/
theorem length_keys_after_le {s : Session} (h : s.cache.keys.Nodup) {bound : Nat}
    (hBound : s.cache.keys.length ≤ bound) {steps : List (Step × Nat)}
    (hSizes : ∀ earlier, earlier <+: steps → (s.after earlier).settings.cacheSize ≤ bound) :
    (s.after steps).cache.keys.length ≤ bound := by
  induction steps generalizing s with
  | nil => exact hBound
  | cons step rest ih =>
    have hFirst : s.settings.cacheSize ≤ bound := hSizes [] List.nil_prefix
    refine ih (nodup_keys_next h step.1 step.2)
      (length_keys_next_le h hBound hFirst step.1 step.2) ?_
    intro earlier hEarlier
    exact hSizes (step :: earlier) (List.cons_prefix_cons.mpr ⟨rfl, hEarlier⟩)

/-- The answer to compiling a condition tells whether it was found. -/
theorem answer_compile (source : Text) (room : Nat) (s : Session) :
    answer (.compile source) room s =
      match (s.cache.compile s.settings.cacheSize source room).1 with
      | .ok _ => .ok (.compiled (s.cache.hits s.settings.cacheSize source))
      | .error e => .error (.syntaxError e) := by
  have hRun : answer (.compile source) room s =
      ((match (s.cache.compile s.settings.cacheSize source room).1 with
        | .ok _ => Pure.pure (.ok (.compiled (s.cache.hits s.settings.cacheSize source)))
        | .error e => Pure.pure (.error (.syntaxError e)) :
          StateM Session (Except Failure Answer)).run
        ((usingCache fun c => c source room).run s).2).1 := rfl
  rw [hRun]
  cases (s.cache.compile s.settings.cacheSize source room).1 with
  | ok c => rfl
  | error e => rfl

theorem eq_hits_of_answer_compile {source : Text} {room : Nat} {s : Session} {hit : Bool}
    (h : answer (.compile source) room s = .ok (.compiled hit)) :
    hit = s.cache.hits s.settings.cacheSize source ∧
      ∃ c, (s.cache.compile s.settings.cacheSize source room).1 = .ok c := by
  rw [answer_compile] at h
  split at h
  next c hCompile =>
    cases h
    exact ⟨rfl, c, hCompile⟩
  next => cases h

/-- **The size that is set is kept, right behind a compiled condition, just if the condition was
not found or no more than the size was there before.** In particular it is kept if it has never been
larger than it is now. -/
theorem keeps_size_iff {steps : List (Step × Nat)} {source : Text} {room : Nat} {hit : Bool}
    (hSize : 0 < (initial.after steps).settings.cacheSize)
    (hAnswer : answer (.compile source) room (initial.after steps) = .ok (.compiled hit)) :
    let s := initial.after steps
    let behind := s.next (.compile source) room
    (behind.cache.keys.length ≤ s.settings.cacheSize ↔
      hit = false ∨ s.cache.keys.length ≤ s.settings.cacheSize) ∧
    ((∀ earlier, earlier <+: steps →
      (initial.after earlier).settings.cacheSize ≤ s.settings.cacheSize) →
        behind.cache.keys.length ≤ s.settings.cacheSize) := by
  intro s behind
  have hSize : 0 < s.settings.cacheSize := hSize
  have hNodup : s.cache.keys.Nodup := nodup_keys_after nodup_keys_initial steps
  have hCache : behind.cache = (s.cache.compile s.settings.cacheSize source room).2 :=
    congrArg cache (next_compile source s room)
  obtain ⟨hHit, c, hResult⟩ := eq_hits_of_answer_compile hAnswer
  refine ⟨?_, fun hSizes => ?_⟩
  · rw [hCache, hHit]
    by_cases hMem : source ∈ s.cache.keys
    · rw [Cache.length_keys_compile_of_mem hNodup hSize hMem, (Cache.hits_iff hSize).mpr hMem]
      simp
    · have hCompile : Condition.compile source room = .ok c :=
        (Cache.fst_compile_of_notMem hMem).symm.trans hResult
      have hMiss : s.cache.hits s.settings.cacheSize source = false := by
        rw [← Bool.not_eq_true, Cache.hits_iff hSize]
        exact hMem
      refine iff_of_true ?_ (.inl hMiss)
      rw [Cache.length_keys_compile_of_notMem hSize hMem hCompile]
      omega
  · obtain ⟨bound, hBound⟩ := Int.eq_ofNat_of_zero_le (Int.le_of_lt hSize)
    rw [hBound] at hSizes ⊢
    have hBefore : s.cache.keys.length ≤ bound :=
      length_keys_after_le nodup_keys_initial (Nat.zero_le bound) hSizes
    exact Int.ofNat_le.mpr (length_keys_next_le hNodup hBefore (hSizes steps List.prefix_rfl) _ _)

/-- Two conditions are compiled, and then the size is lowered to one. -/
def lowering : List (Step × Nat) :=
  usually [.setCacheSize 2, .compile ['a'], .compile ['b'], .setCacheSize 1]

/-- What the answer to compiling is, where the cache and its size can be evaluated. -/
theorem answer_compile_of_isOk {source : Text} {room : Nat} {s : Session}
    (h : (s.cache.compile s.settings.cacheSize source room).1.isOk) :
    answer (.compile source) room s =
      .ok (.compiled (s.cache.hits s.settings.cacheSize source)) := by
  obtain ⟨c, hCompile⟩ := exists_eq_ok_iff_isOk.mpr h
  rw [answer_compile, hCompile]

theorem answer_compile_found :
    answer (.compile ['a']) Condition.usualRoom (initial.after lowering) =
      .ok (.compiled true) := by
  have hHit : (initial.after lowering).cache.hits
      (initial.after lowering).settings.cacheSize ['a'] = true := by
    decide +kernel
  rw [answer_compile_of_isOk (by decide +kernel), hHit]

/-- A condition that is not found makes room down to the size that has been lowered. -/
theorem keeps_size_iff_lowering :
    0 < (initial.after lowering).settings.cacheSize ∧
    (initial.after lowering).cache.keys = [['a'], ['b']] ∧
    answer (.compile ['c']) Condition.usualRoom (initial.after lowering) = .ok (.compiled false) ∧
    ((initial.after lowering).next (.compile ['c']) Condition.usualRoom).cache.keys.length ≤
      (initial.after lowering).settings.cacheSize := by
  have hSize : 0 < (initial.after lowering).settings.cacheSize := by decide +kernel
  have hHit : (initial.after lowering).cache.hits
      (initial.after lowering).settings.cacheSize ['c'] = false := by
    decide +kernel
  have hAnswer : answer (.compile ['c']) Condition.usualRoom (initial.after lowering) =
      .ok (.compiled false) := by
    rw [answer_compile_of_isOk (by decide +kernel), hHit]
  exact ⟨hSize, by decide +kernel, hAnswer, (keeps_size_iff hSize hAnswer).1.mpr (.inl rfl)⟩

/-- A condition that is found leaves the cache larger than the size that has been lowered. -/
theorem not_keeps_size_always :
    ¬∀ (steps : List (Step × Nat)) (source : Text) (room : Nat) (hit : Bool),
      0 < (initial.after steps).settings.cacheSize →
      answer (.compile source) room (initial.after steps) = .ok (.compiled hit) →
      ((initial.after steps).next (.compile source) room).cache.keys.length ≤
        (initial.after steps).settings.cacheSize := by
  intro h
  have hKept := h lowering ['a'] Condition.usualRoom true (by decide +kernel) answer_compile_found
  exact absurd hKept (by decide +kernel)

end Session

end SqlTemplate
