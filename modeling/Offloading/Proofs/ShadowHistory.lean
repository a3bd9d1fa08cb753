import Mathlib.Data.Finset.Card
import Mathlib.Data.List.Induction
import Mathlib.Order.Interval.Finset.Nat
import Offloading.Proofs.AddressMap
import Offloading.Shadow
import Offloading.Word
/-!
# The history of a shadow table

At any time the table holds the pointers that were recorded and that no later call has replaced, forgotten
or erased. A visit finds those with a slot in its range, which lie next to one another, from the highest
slot down, and erasing takes away these and no others.
-/

namespace Offloading

namespace AddressMap

variable {β : Type} [Addressed β] {m : AddressMap β} {lower upper : Nat}

/-- There are as many items in a range as there are addresses with an item. -/
theorem length_range : (m.range lower upper).length =
    ((Finset.Ico lower upper).filter fun a => (m.get? a).isSome).card := by
  have distinct : ((m.range lower upper).map address).Nodup :=
    List.pairwise_map.2 (descending_range.imp fun lt => Nat.ne_of_gt lt)
  have addresses : ((m.range lower upper).map address).toFinset =
      (Finset.Ico lower upper).filter fun a => (m.get? a).isSome := by
    ext a
    rw [List.mem_toFinset, List.mem_map, Finset.mem_filter, Finset.mem_Ico, Option.isSome_iff_exists]
    constructor
    · rintro ⟨x, hx, rfl⟩
      obtain ⟨hx, inside⟩ := mem_range.1 hx
      exact ⟨inside, x, get?_eq_some_iff.2 ⟨hx, rfl⟩⟩
    · rintro ⟨inside, x, found⟩
      obtain ⟨hx, rfl⟩ := get?_eq_some_iff.1 found
      exact ⟨x, mem_range.2 ⟨hx, inside⟩, rfl⟩
  rw [← addresses, List.toFinset_card_of_nodup distinct, List.length_map]

end AddressMap

/-- A call of a shadow table. -/
inductive ShadowCall where
  | record (s : ShadowPointer)
  | forget (hostSlot : Nat)
  | visit (lower upper : Nat) (erase : Bool)

namespace ShadowCall

/-- The call puts a pointer at the slot or takes away the one that is there. -/
def Concerns (slot : Nat) : ShadowCall → Prop
  | record s => s.hostSlot = slot
  | forget hostSlot => hostSlot = slot
  | visit lower upper erase => erase = true ∧ lower ≤ slot ∧ slot < upper

/-- The pointer was recorded, and no later call concerns its slot. -/
def Stands (calls : List ShadowCall) (s : ShadowPointer) : Prop :=
  ∃ earlier later, calls = earlier ++ record s :: later ∧ ∀ c ∈ later, ¬ c.Concerns s.hostSlot

variable {calls : List ShadowCall} {c : ShadowCall} {s : ShadowPointer}

theorem not_stands_nil : ¬ Stands [] s := by
  rintro ⟨earlier, later, calls, -⟩
  exact absurd calls.symm (List.append_ne_nil_of_right_ne_nil _ (List.cons_ne_nil _ _))

theorem stands_concat :
    Stands (calls ++ [c]) s ↔ c = record s ∨ Stands calls s ∧ ¬ c.Concerns s.hostSlot := by
  constructor
  · rintro ⟨earlier, later, same, quiet⟩
    induction later using List.reverseRecOn with
    | nil => exact .inl (List.singleton_inj.1 (List.append_inj' same rfl).2)
    | append_singleton later d _ =>
        rw [← List.cons_append, ← List.append_assoc] at same
        obtain ⟨rfl, last⟩ := List.append_inj' same rfl
        cases last
        simp only [List.forall_mem_append, List.forall_mem_singleton] at quiet
        exact .inr ⟨⟨earlier, later, rfl, quiet.1⟩, quiet.2⟩
  · rintro (rfl | ⟨⟨earlier, later, rfl, quiet⟩, now⟩)
    · exact ⟨calls, [], rfl, fun _ none => absurd none List.not_mem_nil⟩
    · refine ⟨earlier, later ++ [c], by rw [List.append_assoc, List.cons_append], ?_⟩
      rw [List.forall_mem_append, List.forall_mem_singleton]
      exact ⟨quiet, now⟩

end ShadowCall

namespace ShadowTable

open ShadowCall

variable {t : ShadowTable} {s : ShadowPointer} {calls : List ShadowCall} {c : ShadowCall}

/-- The table after a call. -/
def perform (t : ShadowTable) : ShadowCall → ShadowTable
  | .record s => (t.record s).2
  | .forget hostSlot => (t.forget hostSlot).2
  | .visit lower upper erase => (t.visit lower upper erase).2

/-- The table after several calls, from the empty one on. -/
def after (calls : List ShadowCall) : ShadowTable := calls.foldl perform ∅

theorem after_concat : after (calls ++ [c]) = (after calls).perform c := by
  rw [after, List.foldl_append]
  rfl

theorem mem_visit {lower upper : Nat} {erase : Bool} : s ∈ (t.visit lower upper erase).2 ↔
    s ∈ t ∧ ¬ (erase = true ∧ lower ≤ s.hostSlot ∧ s.hostSlot < upper) := by
  cases erase with
  | false => exact ⟨fun hs => ⟨hs, fun ⟨no, _⟩ => Bool.false_ne_true no⟩, fun h => h.1⟩
  | true =>
      have inside : (lower ≤ s.hostSlot ∧ s.hostSlot < upper) ↔
          true = true ∧ lower ≤ s.hostSlot ∧ s.hostSlot < upper := ⟨fun h => ⟨rfl, h⟩, fun h => h.2⟩
      exact AddressMap.mem_eraseRange.trans (and_congr_right fun _ => not_congr inside)

/-- A call leaves the pointers that it does not concern, and one that it records. -/
theorem mem_perform : s ∈ t.perform c ↔ c = .record s ∨ s ∈ t ∧ ¬ c.Concerns s.hostSlot := by
  cases c with
  | record r =>
      refine AddressMap.mem_insert.trans (or_congr ⟨fun h => h ▸ rfl, fun h => ?_⟩ ?_)
      · cases h
        rfl
      · exact and_congr_right fun _ => ne_comm
  | forget hostSlot =>
      refine AddressMap.mem_erase.trans ⟨fun ⟨hs, other⟩ => .inr ⟨hs, Ne.symm other⟩, ?_⟩
      rintro (no | ⟨hs, other⟩)
      · cases no
      · exact ⟨hs, Ne.symm other⟩
  | visit lower upper erase =>
      refine mem_visit.trans ⟨.inr, ?_⟩
      rintro (no | left)
      · cases no
      · exact left

/-- The table holds what stands. -/
theorem mem_after : s ∈ after calls ↔ Stands calls s := by
  induction calls using List.reverseRecOn with
  | nil => exact iff_of_false AddressMap.not_mem_empty not_stands_nil
  | append_singleton calls c ih => rw [after_concat, mem_perform, stands_concat, ih]

theorem get?_after {slot : Nat} : (after calls).get? slot = some s ↔ s.hostSlot = slot ∧ Stands calls s := by
  rw [AddressMap.get?_eq_some_iff, mem_after, and_comm]
  rfl

theorem get?_visit {lower upper slot : Nat} {erase : Bool} : (t.visit lower upper erase).2.get? slot =
    if erase = true ∧ lower ≤ slot ∧ slot < upper then none else t.get? slot := by
  cases erase with
  | false => exact (if_neg fun ⟨no, _⟩ => Bool.false_ne_true no).symm
  | true =>
      simp only [true_and]
      exact AddressMap.get?_eraseRange

theorem visit_visit {lower upper lower' upper' : Nat} {erase erase' : Bool}
    (apart : ∀ slot, lower ≤ slot → slot < upper → ¬ (lower' ≤ slot ∧ slot < upper')) :
    ((t.visit lower upper erase).2.visit lower' upper' erase').1 = (t.visit lower' upper' erase').1 := by
  cases erase with
  | false => rfl
  | true => exact AddressMap.range_eraseRange apart

/-- After any calls of an empty table: a slot holds the pointer that was recorded there and that no later
call has replaced, forgotten or erased. Recording gives back the pointer that stood at the slot and
replaces it alone, and forgetting takes away the one at the slot. A visit, whatever its bounds are, meets
each pointer with a slot in `[lower, upper)` once, from the highest slot down, and as many as there are
such slots; they lie next to one another in the table. It takes away exactly these if it erases, and
nothing if it does not. So what a visit of another range meets does not depend on whether it comes before
or after. -/
theorem after_stands (calls : List ShadowCall) : ∃ t, after calls = t ∧
    (∀ slot s, t.get? slot = some s ↔ s.hostSlot = slot ∧ Stands calls s) ∧
    (∀ s, (∀ old, (t.record s).1 = some old ↔ old.hostSlot = s.hostSlot ∧ Stands calls old) ∧
      ∀ slot, (t.record s).2.get? slot = if slot = s.hostSlot then some s else t.get? slot) ∧
    (∀ hostSlot, (∀ old, (t.forget hostSlot).1 = some old ↔ old.hostSlot = hostSlot ∧ Stands calls old) ∧
      ∀ slot, (t.forget hostSlot).2.get? slot = if slot = hostSlot then none else t.get? slot) ∧
    (∀ lower upper erase, ∃ visited u, t.visit lower upper erase = (visited, u) ∧
      (∀ s, s ∈ visited ↔ Stands calls s ∧ lower ≤ s.hostSlot ∧ s.hostSlot < upper) ∧
      visited.Pairwise (fun s s' => s'.hostSlot < s.hostSlot) ∧
      visited = (t.toList.dropWhile fun s => decide (upper ≤ s.hostSlot)).takeWhile
        (fun s => decide (lower ≤ s.hostSlot)) ∧
      visited.length = ((Finset.Ico lower upper).filter fun slot => (t.get? slot).isSome).card ∧
      ∀ slot, u.get? slot =
        if erase = true ∧ lower ≤ slot ∧ slot < upper then none else t.get? slot) ∧
    ∀ lower upper erase lower' upper' erase',
      (∀ slot, lower ≤ slot → slot < upper → ¬ (lower' ≤ slot ∧ slot < upper')) →
        ((t.visit lower upper erase).2.visit lower' upper' erase').1 = (t.visit lower' upper' erase').1 := by
  refine ⟨_, rfl, fun slot s => get?_after, fun s => ⟨fun old => get?_after, fun slot => AddressMap.get?_insert⟩,
    fun hostSlot => ⟨fun old => get?_after, fun slot => AddressMap.get?_erase⟩,
    fun lower upper erase => ⟨_, _, rfl, fun s => ?_, AddressMap.descending_range, AddressMap.range_eq,
      AddressMap.length_range, fun slot => get?_visit⟩,
    fun lower upper erase lower' upper' erase' => visit_visit⟩
  exact AddressMap.mem_range.trans (and_congr_left fun _ => mem_after)

/-- Two pointers at neighbouring slots, one of them recorded twice. -/
def neighbours : List ShadowCall :=
  [.record ⟨0x10, 1, 0xd010, 2⟩, .record ⟨0x18, 3, 0xd018, 4⟩, .record ⟨0x10, 5, 0xd010, 6⟩]

/-- Erasing the one leaves the other one to be visited. -/
theorem after_stands_neighbours :
    (∀ slot, 0x10 ≤ slot → slot < 0x18 → ¬ (0x18 ≤ slot ∧ slot < Word.greatest)) ∧
      ((after neighbours).visit 0x10 0x18 true).1 = [⟨0x10, 5, 0xd010, 6⟩] ∧
      (((after neighbours).visit 0x10 0x18 true).2.visit 0x18 Word.greatest false).1 =
        [⟨0x18, 3, 0xd018, 4⟩] := by
  have apart : ∀ slot, 0x10 ≤ slot → slot < 0x18 → ¬ (0x18 ≤ slot ∧ slot < Word.greatest) := by
    omega
  obtain ⟨t, rfl, -, -, -, -, disjoint⟩ := after_stands neighbours
  exact ⟨apart, by decide, (disjoint _ _ true _ _ false apart).trans (by decide)⟩

end ShadowTable

end Offloading
