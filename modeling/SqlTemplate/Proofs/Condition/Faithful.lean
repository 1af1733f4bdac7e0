import SqlTemplate.Condition.Cache
import SqlTemplate.Proofs.Condition.Room

/-!
# A cache that can be relied on

A cache is genuine if each of its entries is what its text is compiled to somewhere. Where there is
less room, compiling the text afresh may fail all the same: a text that was compiled where there was
more room is found without being read again. A cache is faithful for texts that are asked for, where
there is some room, if each of them that is in the cache is what it is compiled to there. **So a
genuine cache is faithful unless it holds a text that is asked for and nested too deeply**
(`Cache.IsGenuine.isFaithful`).

Compiling by way of a faithful cache gives what compiling afresh gives, whether the text is found or
not, whatever the size is, and leaves a faithful cache (`Transparent.compiler`). **So do actions one
after another** that are transparent (`Transparent.bind`).
-/

namespace SqlTemplate

namespace Condition

namespace Cache

/-- Whether everything in a cache is what its text is compiled to where there is room enough. -/
def IsGenuine (cache : Cache) : Prop :=
  ∀ source c, (source, c) ∈ cache.entries → ∃ room, Condition.compile source room = .ok c

/-- Whether each text in a cache that is asked for stands for what it is compiled to where there is
some room. -/
def IsFaithful (room : Nat) (asked : Text → Prop) (cache : Cache) : Prop :=
  ∀ source c, (source, c) ∈ cache.entries → asked source → Condition.compile source room = .ok c

theorem isGenuine_empty : empty.IsGenuine := fun _ _ h => absurd h List.not_mem_nil

theorem isFaithful_empty (room : Nat) (asked : Text → Prop) : empty.IsFaithful room asked :=
  fun _ _ h => absurd h List.not_mem_nil

variable {cache : Cache} {source source' : Text} {c c' : Compiled} {room : Nat}

theorem mem_of_lookup (h : cache.lookup source = some c) : (source, c) ∈ cache.entries := by
  obtain ⟨before, after, hEntries, -⟩ := List.lookup_eq_some_iff.mp h
  rw [hEntries]
  exact List.mem_append_right before List.mem_cons_self

theorem mem_of_mem_touch (h : (source', c') ∈ (cache.touch source c).entries) :
    (source', c') ∈ cache.entries ∨ source' = source ∧ c' = c := by
  rcases List.mem_append.mp h with hOld | hNew
  · exact .inl (List.mem_filter.mp hOld).1
  · cases List.mem_singleton.mp hNew
    exact .inr ⟨rfl, rfl⟩

/-- An entry behind compiling a text was there before or is what the text is compiled to. -/
theorem mem_of_mem_compile {size : Int}
    (h : (source', c') ∈ (cache.compile size source room).2.entries) :
    (source', c') ∈ cache.entries ∨
      source' = source ∧ Condition.compile source room = .ok c' := by
  unfold Cache.compile at h
  split at h
  · exact .inl h
  · split at h
    next c hLookup =>
      rcases mem_of_mem_touch h with hOld | ⟨rfl, rfl⟩
      · exact .inl hOld
      · exact .inl (mem_of_lookup hLookup)
    next =>
      split at h
      next c hCompile =>
        rcases mem_of_mem_touch (List.mem_of_mem_drop h) with hOld | ⟨rfl, rfl⟩
        · exact .inl hOld
        · exact .inr ⟨rfl, hCompile⟩
      next => exact .inl h

/-- Compiling leaves a genuine cache, wherever it is done. -/
theorem IsGenuine.compile (h : cache.IsGenuine) (size : Int) (source : Text) (room : Nat) :
    (cache.compile size source room).2.IsGenuine := by
  intro source' c' hEntry
  rcases mem_of_mem_compile hEntry with hOld | ⟨rfl, hCompile⟩
  · exact h source' c' hOld
  · exact ⟨room, hCompile⟩

/-- **A genuine cache is faithful for the texts that are asked for**, as long as it holds none of
them that is nested too deeply where they are. -/
theorem IsGenuine.isFaithful (h : cache.IsGenuine) {asked : Text → Prop}
    (hLimit : ∀ source ∈ cache.keys, asked source →
      Condition.compile source room ≠ .error .tooDeep) : cache.IsFaithful room asked := by
  intro source c hEntry hAsked
  obtain ⟨enough, hCompile⟩ := h source c hEntry
  exact compile_eq_ok_of_eq_ok hCompile (hLimit source (List.mem_map_of_mem hEntry) hAsked)

/-- Compiling a text that is asked for by way of a faithful cache gives what compiling it afresh
gives, on each of the ways that it can take, and keeps the cache faithful. -/
theorem IsFaithful.compile {asked : Text → Prop} (h : cache.IsFaithful room asked)
    (hAsked : asked source) (size : Int) :
    (cache.compile size source room).1 = Condition.compile source room ∧
      (cache.compile size source room).2.IsFaithful room asked := by
  constructor
  · unfold Cache.compile
    split
    · rfl
    · split
      next c hLookup => exact (h source c (mem_of_lookup hLookup) hAsked).symm
      next =>
        split
        next c hCompile => exact hCompile.symm
        next error hCompile => exact hCompile.symm
  · intro source' c' hEntry hAsked'
    rcases mem_of_mem_compile hEntry with hOld | ⟨rfl, hCompile⟩
    · exact h source' c' hOld hAsked'
    · exact hCompile

end Cache

/-- Whether an action on the cache has an answer and leaves a faithful cache, from whichever
faithful cache it starts. -/
def Transparent {α : Type} (room : Nat) (asked : Text → Prop) (action : StateM Cache α)
    (answer : α) : Prop :=
  ∀ cache : Cache, cache.IsFaithful room asked →
    (action.run cache).1 = answer ∧ (action.run cache).2.IsFaithful room asked

namespace Transparent

variable {α β : Type} {room : Nat} {asked : Text → Prop}

theorem pure (a : α) : Transparent room asked (Pure.pure a) a := fun _ h => ⟨rfl, h⟩

/-- An action goes on with the answer of the one before. -/
theorem bind {x : StateM Cache α} {a : α} {next : α → StateM Cache β} {b : β}
    (hx : Transparent room asked x a) (hNext : Transparent room asked (next a) b) :
    Transparent room asked (x >>= next) b := by
  intro cache hCache
  obtain ⟨hAnswer, hAfter⟩ := hx cache hCache
  have := hNext (x.run cache).2 hAfter
  rw [← hAnswer] at this
  exact this

/-- Compiling a text that is asked for is transparent. -/
theorem compiler {source : Text} (h : asked source) (size : Int) :
    Transparent room asked (Cache.compiler size source room) (compile source room) :=
  fun _ hCache => hCache.compile h size

end Transparent

end Condition

end SqlTemplate
