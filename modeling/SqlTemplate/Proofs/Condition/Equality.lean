import SqlTemplate.Proofs.Condition.Comparison
import SqlTemplate.Proofs.Value.Equivalence

/-!
# Equality in either order

Loose equality asks first which kinds its operands are, and does it once for each side. **It comes
to the same result or the same error when the operands are exchanged** (`looseEquals_comm`),
whatever kinds they are and however deep they are nested, unless a signaling NaN is in them.
-/

namespace SqlTemplate

namespace Condition

open Value (Every IsProper)

variable {left right : Value}

/-- **Two values are loosely equal in either order, or it cannot be told in either**, for the same
reason. -/
theorem looseEquals_comm (hLeft : left.Every IsProper) (hRight : right.Every IsProper) :
    looseEquals left right = looseEquals right left := by
  cases hTruth : comparesTruth left || comparesTruth right with
  | true =>
    rw [looseEquals_of_comparesTruth hTruth, Bool.beq_comm,
      looseEquals_of_comparesTruth (Bool.or_comm _ _ ▸ hTruth)]
  | false =>
    by_cases hNumberText : ∃ n s, left = .number n ∧ right.text? = some s
    · obtain ⟨n, s, rfl, hText⟩ := hNumberText
      rw [looseEquals_numberText n hText, looseEquals_textNumber hText n]
    by_cases hTextNumber : ∃ n s, right = .number n ∧ left.text? = some s
    · obtain ⟨n, s, rfl, hText⟩ := hTextNumber
      rw [looseEquals_numberText n hText, looseEquals_textNumber hText n]
    · rw [looseEquals_values hTruth (fun n s h h' => hNumberText ⟨n, s, h, h'⟩)
          fun s n h h' => hTextNumber ⟨n, s, h', h⟩,
        looseEquals_values (Bool.or_comm _ _ ▸ hTruth) (fun n s h h' => hTextNumber ⟨n, s, h, h'⟩)
          fun s n h h' => hNumberText ⟨n, s, h', h⟩, Value.equals_comm hLeft hRight]

/-- A list with a NaN, a set and a dictionary, the last two put together entry by entry. -/
def nested (frozen : Bool) (items entries : List (Value × Value)) : Value :=
  .list [.number (.float (.nan 1)), .set frozen ((Value.entriesOf items).map Prod.fst),
    .dict (Value.entriesOf entries)]

/-- A nested value with a tuple for a key. -/
def nestedValue : Value :=
  nested false [(.int 1, .null), (.text ['a'], .null)]
    [(.tuple [.null], .sql ['x']), (.int 0, .number (.decimal (.finite false 25 (-1))))]

/-- The same value in another order and in values of other kinds. -/
def rearrangedValue : Value :=
  nested true [(.sql ['a'], .null), (.bool true, .null), (.int 1, .null)]
    [(.bool false, .number (.decimal (.finite false 250 (-2)))), (.tuple [.null], .text ['x'])]

theorem looseEquals_comm_nestedValue :
    nestedValue.Every IsProper ∧ rearrangedValue.Every IsProper ∧
      looseEquals nestedValue rearrangedValue = .ok true ∧
      looseEquals rearrangedValue nestedValue = .ok true := by
  have hNumber {n : Number} (h : n.isSignaling = false) : (Value.number n).Every IsProper :=
    Value.every_isProper_of_parts rfl fun m hm => by cases hm; exact h
  have hOther {v : Value} (h : v.parts = []) (hNumber : ∀ n, v ≠ .number n) : v.Every IsProper :=
    Value.every_isProper_of_parts h fun n hn => absurd hn (hNumber n)
  have hTuple : (Value.tuple [.null]).Every IsProper :=
    Value.every_isProper_tuple (List.forall_mem_singleton.mpr (hOther rfl nofun))
  have hNested (frozen : Bool) {items entries : List (Value × Value)}
      (hItems : ∀ pair ∈ items, pair.1.Every IsProper ∧ pair.2.Every IsProper)
      (hEntries : ∀ pair ∈ entries, pair.1.Every IsProper ∧ pair.2.Every IsProper) :
      (nested frozen items entries).Every IsProper := by
    refine Value.every_isProper_list (List.forall_mem_cons.mpr ⟨hNumber rfl, ?_⟩)
    refine List.forall_mem_cons.mpr ⟨?_, List.forall_mem_singleton.mpr ?_⟩
    · exact Value.every_isProper_set (Value.every_isProper_entriesOf hItems) frozen
    · exact Value.every_isProper_entriesOf hEntries
  have hValue : nestedValue.Every IsProper := by
    refine hNested false ?_ ?_ <;> simp only [List.forall_mem_cons]
    · exact ⟨⟨hNumber rfl, hOther rfl nofun⟩, ⟨hOther rfl nofun, hOther rfl nofun⟩,
        List.forall_mem_nil _⟩
    · exact ⟨⟨hTuple, hOther rfl nofun⟩, ⟨hNumber rfl, hNumber rfl⟩, List.forall_mem_nil _⟩
  have hRearranged : rearrangedValue.Every IsProper := by
    refine hNested true ?_ ?_ <;> simp only [List.forall_mem_cons]
    · exact ⟨⟨hOther rfl nofun, hOther rfl nofun⟩, ⟨hOther rfl nofun, hOther rfl nofun⟩,
        ⟨hNumber rfl, hOther rfl nofun⟩, List.forall_mem_nil _⟩
    · exact ⟨⟨hOther rfl nofun, hNumber rfl⟩, ⟨hTuple, hOther rfl nofun⟩, List.forall_mem_nil _⟩
  have hEqual : looseEquals nestedValue rearrangedValue = .ok true :=
    toOption_eq_some_iff.mp (by decide +kernel)
  exact ⟨hValue, hRearranged, hEqual, (looseEquals_comm hRearranged hValue).trans hEqual⟩

end Condition

end SqlTemplate
