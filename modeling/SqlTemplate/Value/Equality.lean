import SqlTemplate.Value.Basic

/-!
# Equality of values

Values of one kind are equal if their contents are, numbers by their exact values, where a truth
value counts as 0 or 1. Lists and tuples are compared item by item, sets and dictionaries
without regard to order. Inside a collection a NaN equals itself, though outside it equals
nothing. A signaling NaN that is compared stops the comparison; whether it is reached depends
on the order in which items are compared, so that order is part of the definition: lists differ
at once if their lengths do, tuples are read up to the first difference.
-/

namespace SqlTemplate

namespace Value

/-- Equality of values that are no collections of one kind. -/
def atomEquals (a b : Value) : Except Signal Bool :=
  match a.numeric?, b.numeric? with
  | some m, some n => m.equals n
  | _, _ =>
    match a, b with
    | null, null => .ok true
    | bytes x, bytes y => .ok (x == y)
    | date x, date y => .ok (x == y)
    | datetime x, datetime y => .ok (x.sameInstant y)
    | _, _ =>
      match a.text?, b.text? with
      | some s, some t => .ok (s == t)
      | _, _ => .ok false

/-- The label of a NaN. -/
def nanLabel? : Value → Option Nat
  | number (.float (.nan label)) => some label
  | number (.decimal (.nan _ _ _ label)) => some label
  | _ => none

/-- Whether two items of collections agree: a NaN with itself, all else by `equal`. -/
def itemEquals (a b : Value) (equal : Except Signal Bool) : Except Signal Bool :=
  match a.nanLabel?, b.nanLabel? with
  | some l, some m => if l = m then .ok true else equal
  | _, _ => equal

/-- The first entry whose key passes a test. -/
def findEntry (test : Value → Except Signal Bool) :
    List (Value × Value) → Except Signal (Option Value)
  | [] => .ok none
  | (k, v) :: rest => do if ← test k then return some v else findEntry test rest

mutual

/-- Whether two values are equal. -/
def equals : Value → Value → Except Signal Bool
  | list xs, list ys => if xs.length = ys.length then itemsEqual xs ys else .ok false
  | tuple xs, tuple ys => itemsEqual xs ys
  | set _ xs, set _ ys => if xs.length = ys.length then itemsIn xs ys else .ok false
  | dict xs, dict ys => if xs.length = ys.length then entriesIn xs ys else .ok false
  | a, b => atomEquals a b

/-- Whether the items of two sequences agree in order. -/
def itemsEqual : List Value → List Value → Except Signal Bool
  | [], [] => .ok true
  | x :: xs, y :: ys => do
    if ← itemEquals x y (equals x y) then itemsEqual xs ys else return false
  | _, _ => .ok false

/-- Whether each item of the first collection agrees with one of the second. -/
def itemsIn : List Value → List Value → Except Signal Bool
  | [], _ => .ok true
  | x :: xs, ys => do
    if ← ys.anyM fun y => itemEquals x y (equals x y) then itemsIn xs ys else return false

/-- Whether each key of the first dictionary is one of the second, with a value that agrees. -/
def entriesIn : List (Value × Value) → List (Value × Value) → Except Signal Bool
  | [], _ => .ok true
  | (k, v) :: xs, ys => do
    match ← findEntry (fun k' => itemEquals k k' (equals k k')) ys with
    | none => return false
    | some w => if ← itemEquals v w (equals v w) then entriesIn xs ys else return false

end

/-- Whether two values are the same key of a dictionary. -/
def sameKey (a b : Value) : Bool :=
  match itemEquals a b (equals a b) with
  | .ok b => b
  | .error _ => false

/-- Puts an entry into a dictionary: a key that is there keeps its place and its form and takes
the new value, another goes to the end. -/
def insertEntry (entries : List (Value × Value)) (key value : Value) : List (Value × Value) :=
  match entries with
  | [] => [(key, value)]
  | (k, v) :: rest =>
    if sameKey k key then (k, value) :: rest else (k, v) :: insertEntry rest key value

/-- The dictionary made by putting entries into it one after another. -/
def entriesOf (pairs : List (Value × Value)) : List (Value × Value) :=
  pairs.foldl (fun entries (k, v) => insertEntry entries k v) []

end Value

end SqlTemplate
