import Mathlib.Data.List.Induction
import SqlTemplate.Proofs.Condition.Calls
import SqlTemplate.Proofs.Results

/-!
# The texts that a cache remembers

Some of the calls that are made one after another fail. The others (`Cache.answered`) rank their
texts: each stands once, and they stand in the order of their most recent calls (`IsRanking`). One
more call moves its text to the end of the ranking, or leaves the ranking as it is if it fails. **At a
fixed size the cache holds the end of the ranking, up to the size**
(`Cache.keys_after_suffix_ranking`): a text that has left the cache comes back in the place in which
it would be if it had never left.
-/

namespace SqlTemplate

namespace Condition

variable {calls ranked : List Text} {source : Text} {size : Int} {room : Nat}

/-- How many calls lie behind the most recent call of a text. -/
def callsSince (calls : List Text) (source : Text) : Nat := calls.reverse.idxOf source

theorem callsSince_concat (calls : List Text) (last source : Text) :
    callsSince (calls ++ [last]) source =
      if source = last then 0 else callsSince calls source + 1 := by
  rw [callsSince, List.reverse_append, List.reverse_singleton, List.singleton_append,
    List.idxOf_cons]
  by_cases h : source = last
  · rw [if_pos h, h, beq_self_eq_true]
    rfl
  · rw [if_neg h, beq_false_of_ne (Ne.symm h)]
    rfl

/-- Whether texts are those of some calls, each of them once and the one whose most recent call is
the latest at the end. -/
structure IsRanking (calls ranked : List Text) : Prop where
  /-- No text is ranked twice. -/
  nodup : ranked.Nodup
  /-- The texts are those that were called. -/
  mem_iff : ∀ source, source ∈ ranked ↔ source ∈ calls
  /-- They stand in the order of their most recent calls. -/
  ordered : ranked.Pairwise fun earlier later => callsSince calls later < callsSince calls earlier

namespace IsRanking

theorem nil : IsRanking [] [] := ⟨List.Pairwise.nil, fun _ => Iff.rfl, List.Pairwise.nil⟩

/-- A text that is called moves to the end. -/
theorem concat (h : IsRanking calls ranked) (source : Text) :
    IsRanking (calls ++ [source]) (withLast ranked source) where
  nodup := nodup_withLast h.nodup source
  mem_iff text := by rw [mem_withLast, h.mem_iff, List.mem_append, List.mem_singleton, or_comm]
  ordered := by
    have hOther {text : Text} (hText : text ∈ ranked.filter (· != source)) : text ≠ source :=
      bne_iff_ne.mp (List.mem_filter.mp hText).2
    rw [withLast, List.pairwise_append]
    refine ⟨?_, List.pairwise_singleton _ source, ?_⟩
    · -- All others grow older by one call.
      refine (h.ordered.filter _).imp_of_mem fun {earlier later} hEarlier hLater hLt => ?_
      rw [callsSince_concat, callsSince_concat, if_neg (hOther hEarlier), if_neg (hOther hLater)]
      exact Nat.add_lt_add_right hLt 1
    · intro text hText last hLast
      rw [List.mem_singleton.mp hLast, callsSince_concat, callsSince_concat, if_pos rfl,
        if_neg (hOther hText)]
      exact Nat.succ_pos _

end IsRanking

namespace Cache

variable {cache : Cache}

/-- Whether the texts in a cache are the end of a ranking, up to a size. -/
structure HoldsEnd (cache : Cache) (size : Nat) (ranked : List Text) : Prop where
  /-- The texts are the last ones. -/
  suffix : cache.keys <:+ ranked
  /-- As many are there as the size allows. -/
  length_eq : cache.keys.length = min size ranked.length

namespace HoldsEnd

/-- A call that finds its text keeps the end of the ranking. -/
theorem compile_of_mem (h : cache.HoldsEnd size.toNat ranked) (hRanked : ranked.Nodup)
    (hSize : 0 < size) (hMem : source ∈ cache.keys) :
    (cache.compile size source room).2.HoldsEnd size.toNat (withLast ranked source) where
  suffix := by
    rw [keys_compile_of_mem hSize hMem]
    exact withLast_suffix_withLast h.suffix source
  length_eq := by
    have hKeys : cache.keys.Nodup := hRanked.sublist h.suffix.sublist
    rw [length_keys_compile_of_mem hKeys hSize hMem,
      length_withLast_of_mem hRanked (h.suffix.mem hMem), h.length_eq]

/-- So does a call that compiles its text afresh: if the text is ranked all the same, it had left
the cache, which is full then. -/
theorem compile_of_notMem {c : Compiled} (h : cache.HoldsEnd size.toNat ranked)
    (hRanked : ranked.Nodup) (hSize : 0 < size) (hMem : source ∉ cache.keys)
    (hCompile : Condition.compile source room = .ok c) :
    (cache.compile size source room).2.HoldsEnd size.toNat (withLast ranked source) where
  suffix := by
    rw [keys_compile_of_notMem hSize hMem hCompile, ← withLast_of_notMem hMem]
    exact (List.drop_suffix _ _).trans (withLast_suffix_withLast h.suffix source)
  length_eq := by
    have hLength := h.length_eq
    rw [length_keys_compile_of_notMem hSize hMem hCompile]
    by_cases hOld : source ∈ ranked
    · have hLeft : cache.keys.length < ranked.length := by
        refine Nat.lt_of_not_le fun hLe => hMem ?_
        rwa [h.suffix.eq_of_length_le hLe]
      rw [length_withLast_of_mem hRanked hOld]
      omega
    · rw [length_withLast_of_notMem hOld]
      omega

end HoldsEnd

/-! ### Calls that do not fail -/

/-- The texts of the calls that do not fail, of calls one after another, each where there is some
room. -/
def answered (cache : Cache) (size : Int) : List (Text × Nat) → List Text
  | [] => []
  | (source, room) :: calls =>
    let later := (cache.compile size source room).2.answered size calls
    if (cache.compile size source room).1.isOk then source :: later else later

theorem answered_append (cache : Cache) (size : Int) (calls later : List (Text × Nat)) :
    cache.answered size (calls ++ later) =
      cache.answered size calls ++ (cache.after size calls).answered size later := by
  induction calls generalizing cache with
  | nil => rfl
  | cons call calls ih =>
    obtain ⟨source, room⟩ := call
    rw [List.cons_append, answered, answered, ih]
    split <;> rfl

theorem answered_singleton (cache : Cache) (size : Int) (source : Text) (room : Nat) :
    cache.answered size [(source, room)] =
      if (cache.compile size source room).1.isOk then [source] else [] := rfl

/-- In a cache that is faithful where all calls are made, just the calls of texts that can be
compiled there do not fail. -/
theorem IsFaithful.answered (h : cache.IsFaithful room fun _ => True) (size : Int)
    {calls : List (Text × Nat)} (hRoom : ∀ call ∈ calls, call.2 = room) :
    cache.answered size calls =
        (calls.map Prod.fst).filter (fun source => (Condition.compile source room).isOk) ∧
      (cache.after size calls).IsFaithful room fun _ => True := by
  induction calls generalizing cache with
  | nil => exact ⟨rfl, h⟩
  | cons call calls ih =>
    obtain ⟨source, room'⟩ := call
    obtain ⟨rfl, hCalls⟩ := List.forall_mem_cons.mp hRoom
    obtain ⟨hFirst, hBehind⟩ :
        (cache.compile size source room').1 = Condition.compile source room' ∧
          (cache.compile size source room').2.IsFaithful room' fun _ => True :=
      h.compile trivial size
    obtain ⟨hLater, hAfter⟩ := ih hBehind hCalls
    refine ⟨?_, hAfter⟩
    rw [Cache.answered, hFirst, hLater, List.map_cons, List.filter_cons]

/-- The calls that do not fail rank their texts, and the cache holds the end of the ranking. The
induction takes the last call off: whatever it does to the cache it does to the end of the
ranking. -/
theorem exists_ranking_after (hSize : 0 < size) (calls : List (Text × Nat)) :
    ∃ ranked, IsRanking (empty.answered size calls) ranked ∧
      (empty.after size calls).HoldsEnd size.toNat ranked := by
  induction calls using List.reverseRecOn with
  | nil => exact ⟨[], .nil, List.suffix_refl [], (Nat.min_zero _).symm⟩
  | append_singleton calls call ih =>
    obtain ⟨source, room⟩ := call
    obtain ⟨ranked, hRanking, hHolds⟩ := ih
    have hLast : empty.after size (calls ++ [(source, room)]) =
        ((empty.after size calls).compile size source room).2 :=
      after_append empty size calls [(source, room)]
    rw [hLast, answered_append, answered_singleton]
    cases hResult : ((empty.after size calls).compile size source room).1 with
    | ok c =>
      refine ⟨withLast ranked source, hRanking.concat source, ?_⟩
      by_cases hMem : source ∈ (empty.after size calls).keys
      · exact hHolds.compile_of_mem hRanking.nodup hSize hMem
      · rw [fst_compile_of_notMem hMem] at hResult
        exact hHolds.compile_of_notMem hRanking.nodup hSize hMem hResult
    | error e =>
      rw [compile_of_error hResult]
      exact ⟨ranked, (List.append_nil (empty.answered size calls)).symm ▸ hRanking, hHolds⟩

/-- What is in the cache has had a call that did not fail. -/
theorem keys_subset_answered (hSize : 0 < size) (calls : List (Text × Nat)) :
    (empty.after size calls).keys ⊆ empty.answered size calls := by
  obtain ⟨ranked, hRanking, hHolds⟩ := exists_ranking_after hSize calls
  exact fun source hMem => (hRanking.mem_iff source).mp (hHolds.suffix.mem hMem)

theorem mem_answered_singleton (hSize : 0 < size) {last : Text} :
    source ∈ cache.answered size [(last, room)] ↔
      source = last ∧ (last ∈ cache.keys ∨ (Condition.compile last room).isOk) := by
  rw [answered_singleton, List.mem_ite_nil_right, List.mem_singleton, isOk_fst_compile_iff hSize,
    and_comm]

/-- A text has a call that does not fail just if it has a call where it can be compiled: the first
one that does not fail has not found it. -/
theorem mem_answered_iff (hSize : 0 < size) (calls : List (Text × Nat)) (source : Text) :
    source ∈ empty.answered size calls ↔
      ∃ room, (source, room) ∈ calls ∧ (Condition.compile source room).isOk := by
  induction calls using List.reverseRecOn with
  | nil => exact iff_of_false List.not_mem_nil fun ⟨_, h, _⟩ => List.not_mem_nil h
  | append_singleton calls call ih =>
    obtain ⟨last, room⟩ := call
    rw [answered_append, List.mem_append, ih, mem_answered_singleton hSize]
    constructor
    · rintro (⟨room', hCall, hCompile⟩ | ⟨rfl, hMem | hCompile⟩)
      · exact ⟨room', List.mem_append_left _ hCall, hCompile⟩
      · obtain ⟨room', hCall, hCompile⟩ := ih.mp (keys_subset_answered hSize calls hMem)
        exact ⟨room', List.mem_append_left _ hCall, hCompile⟩
      · exact ⟨room, List.mem_append_right _ (List.mem_singleton_self _), hCompile⟩
    · rintro ⟨room', hCall, hCompile⟩
      rcases List.mem_append.mp hCall with hCall | hCall
      · exact .inl ⟨room', hCall, hCompile⟩
      · cases List.mem_singleton.mp hCall
        exact .inr ⟨rfl, .inr hCompile⟩

/-- **At a fixed size the cache holds the texts that were compiled most recently.** After any calls
from the empty cache, each where there is some room, its texts, from the least to the most recently
used one, are the last ones of the ranking, as many as the size allows. The texts that are ranked
are those that could be compiled where one of their calls was made. A further call fails if and only
if its text is not found and cannot be compiled, and then it leaves the cache as it is. If all calls
are made from one place, just those do not fail whose text can be compiled there. -/
theorem keys_after_suffix_ranking (hSize : 1 ≤ size) (calls : List (Text × Nat)) :
    let cache := empty.after size calls
    (∃ ranked, IsRanking (empty.answered size calls) ranked ∧ cache.keys <:+ ranked ∧
      cache.keys.length = min size.toNat ranked.length) ∧
    (∀ source, source ∈ empty.answered size calls ↔
      ∃ room, (source, room) ∈ calls ∧ (Condition.compile source room).isOk) ∧
    (∀ source room,
      ((cache.compile size source room).1.isOk ↔
        source ∈ cache.keys ∨ (Condition.compile source room).isOk) ∧
      ∀ e, (cache.compile size source room).1 = .error e →
        (cache.compile size source room).2 = cache) ∧
    ∀ room, (∀ call ∈ calls, call.2 = room) →
      empty.answered size calls =
        (calls.map Prod.fst).filter (fun source => (Condition.compile source room).isOk) ∧
      ∀ source, (cache.compile size source room).1 = Condition.compile source room := by
  intro cache
  obtain ⟨ranked, hRanking, hHolds⟩ := exists_ranking_after hSize calls
  refine ⟨⟨ranked, hRanking, hHolds.suffix, hHolds.length_eq⟩, mem_answered_iff hSize calls,
    fun source room => ⟨isOk_fst_compile_iff hSize, fun e hError => compile_of_error hError⟩,
    fun room hRoom => ?_⟩
  obtain ⟨hAnswered, hFaithful⟩ := (isFaithful_empty room fun _ => True).answered size hRoom
  exact ⟨hAnswered, fun source => (hFaithful.compile trivial size).1⟩

/-- Calls by which a text leaves the cache and comes back, fails, and is found. -/
def comingBack : List (Text × Nat) :=
  [(['x'], usualRoom), (['y'], usualRoom), (['z'], usualRoom), ([')'], usualRoom),
    (['x'], usualRoom), (['z'], 0), (['y'], 0)]

/-- A text leaves the cache and comes back, a text is found where it could not be compiled, and
calls fail. -/
theorem keys_after_suffix_ranking_comingBack :
    (1 : Int) ≤ 2 ∧
    (empty.after 2 comingBack).keys = [['x'], ['z']] ∧
    (∃ ranked, IsRanking (empty.answered 2 comingBack) ranked ∧ [['x'], ['z']] <:+ ranked ∧
      2 = min 2 ranked.length) ∧
    ((empty.after 2 comingBack).compile 2 [')'] usualRoom).2.keys = [['x'], ['z']] := by
  have hKeys : (empty.after 2 comingBack).keys = [['x'], ['z']] := by
    decide +kernel
  obtain ⟨⟨ranked, hRanking, hSuffix, hLength⟩, -, hCalls, -⟩ :=
    keys_after_suffix_ranking (show (1 : Int) ≤ 2 by decide) comingBack
  rw [hKeys] at hSuffix hLength
  refine ⟨by decide, hKeys, ⟨ranked, hRanking, hSuffix, hLength⟩, ?_⟩
  obtain ⟨hOk, hUnchanged⟩ := hCalls [')'] usualRoom
  obtain ⟨e, hError⟩ :
      ∃ e, ((empty.after 2 comingBack).compile 2 [')'] usualRoom).1 = .error e := by
    rw [exists_eq_error_iff, exists_eq_ok_iff_isOk, hOk, hKeys]
    decide +kernel
  rw [hUnchanged e hError, hKeys]

end Cache

end Condition

end SqlTemplate
