import SqlTemplate.Condition.Compiled

/-!
# A memory of compiled conditions

The cache holds compiled conditions under their texts, from the least to the most recently
used, up to a size. A condition that is found moves to the end; a new one goes to the end, and
the oldest ones leave until the size is kept. A condition that cannot be read changes nothing,
and with no size at all the cache is passed by.
-/

namespace SqlTemplate

namespace Condition

/-- Compiled conditions under their texts, the most recently used one last. -/
structure Cache where
  /-- The texts and what they were compiled to. -/
  entries : List (Text × Compiled)
  deriving Repr

namespace Cache

/-- The cache that holds nothing. -/
def empty : Cache := ⟨[]⟩

/-- The texts in the cache, the most recently used one last. -/
def keys (cache : Cache) : List Text := cache.entries.map (·.1)

/-- What a text was compiled to. -/
def lookup (cache : Cache) (source : Text) : Option Compiled := cache.entries.lookup source

/-- The cache with an entry at its end and no other entry of that text. -/
def touch (cache : Cache) (source : Text) (c : Compiled) : Cache :=
  ⟨cache.entries.filter (·.1 != source) ++ [(source, c)]⟩

/-- The cache without its oldest entries, as many as exceed a size. -/
def shrink (cache : Cache) (size : Nat) : Cache :=
  ⟨cache.entries.drop (cache.entries.length - size)⟩

/-- Whether compiling a text at a size would find it in the cache. -/
def hits (cache : Cache) (size : Int) (source : Text) : Bool :=
  0 < size && (cache.lookup source).isSome

/-- Compiles a condition by way of the cache, whose size may not exceed `size`. -/
def compile (size : Int) (source : Text) (room : Nat) (cache : Cache) :
    Except SyntaxError Compiled × Cache :=
  if size ≤ 0 then (Condition.compile source room, cache)
  else
    match cache.lookup source with
    | some c => (.ok c, cache.touch source c)
    | none =>
      match Condition.compile source room with
      | .ok c => (.ok c, (cache.touch source c).shrink size.toNat)
      | .error e => (.error e, cache)

/-- Compiling by way of the cache, as a step that changes it. -/
def compiler (size : Int) : Compiler (StateM Cache) :=
  fun source room => modifyGet (compile size source room)

end Cache

end Condition

end SqlTemplate
