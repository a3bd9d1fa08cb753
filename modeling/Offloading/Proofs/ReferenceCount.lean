import Offloading.ReferenceCount
/-!
# Steps of a reference count

A finite count changes by one with each step, except that zero is not decreased; an infinite one never
changes. So a count is what its steps add up to for as long as the sum stays where counts are finite.
-/

namespace Offloading

/-- Something that is done to a count. -/
inductive CountStep where
  /-- Takes one more reference. -/
  | take
  /-- Gives one reference back. -/
  | giveBack
  deriving DecidableEq, Repr

namespace CountStep

/-- How many references the step adds. -/
def amount : CountStep → Int
  | take => 1
  | giveBack => -1

/-- How many references several steps add. -/
def total : List CountStep → Int
  | [] => 0
  | s :: rest => s.amount + total rest

variable {steps : List CountStep}

/-- The total counts the steps of either kind. -/
theorem total_eq (steps : List CountStep) :
    total steps = (steps.count take : Int) - steps.count giveBack := by
  induction steps with
  | nil => rfl
  | cons s rest ih =>
      cases s with
      | take =>
          rw [total, ih, amount, List.count_cons_self, List.count_cons_of_ne (by decide)]
          omega
      | giveBack =>
          rw [total, ih, amount, List.count_cons_self, List.count_cons_of_ne (by decide)]
          omega

end CountStep

open CountStep

namespace ReferenceCount

variable {c : ReferenceCount} {s : CountStep} {steps : List CountStep}

/-- The count after a step. -/
def step (c : ReferenceCount) : CountStep → ReferenceCount
  | .take => c.increment
  | .giveBack => c.decrement

/-- The count after several steps. -/
def after (c : ReferenceCount) (steps : List CountStep) : ReferenceCount := steps.foldl step c

/-- At every point of the steps, their sum with the count is one of a finite count. -/
def StaysFinite (c : ReferenceCount) (steps : List CountStep) : Prop :=
  ∀ n ≤ steps.length, 0 ≤ (c.value : Int) + total (steps.take n) ∧
    (c.value : Int) + total (steps.take n) ≤ (infinite.value / 2 : Nat)

instance : Decidable (c.StaysFinite steps) :=
  inferInstanceAs (Decidable (∀ n ≤ steps.length, _))

/-! ## One step -/

theorem isInfinite_iff : c.isInfinite = true ↔ infinite.value / 2 < c.value := decide_eq_true_iff

theorem isInfinite_eq_false_iff : c.isInfinite = false ↔ c.value ≤ infinite.value / 2 := by
  rw [← Bool.not_eq_true, isInfinite_iff, Nat.not_lt]

theorem increment_of_infinite (h : c.isInfinite = true) : c.increment = c := if_pos h

theorem decrement_of_infinite (h : c.isInfinite = true) : c.decrement = c := if_pos h

/-- One more reference than a finite count has never meets the greatest value. -/
theorem value_increment (h : c.value ≤ infinite.value / 2) : c.increment.value = c.value + 1 := by
  have room : infinite.value / 2 < greatest := by decide
  rw [increment, isInfinite_eq_false_iff.2 h, if_neg Bool.false_ne_true]
  exact Nat.min_eq_left (by omega)

theorem value_decrement (h : c.value ≤ infinite.value / 2) : c.decrement.value = c.value - 1 := by
  rw [decrement, isInfinite_eq_false_iff.2 h, if_neg Bool.false_ne_true]

theorem isLast_eq (h : c.value ≤ infinite.value / 2) : c.isLast = decide (c.value ≤ 1) := by
  rw [isLast, isInfinite_eq_false_iff.2 h, Bool.not_false, Bool.true_and]

theorem increment_pos (h : 0 < c.value) : 0 < c.increment.value := by
  cases inf : c.isInfinite with
  | true =>
      rw [increment_of_infinite inf]
      exact h
  | false =>
      rw [value_increment (isInfinite_eq_false_iff.1 inf)]
      exact Nat.succ_pos _

/-- After one more reference was taken, there are several. -/
theorem increment_ne_one (h : 0 < c.value) : c.increment.value ≠ 1 := by
  cases inf : c.isInfinite with
  | true =>
      have above := isInfinite_iff.1 inf
      have room : 1 ≤ infinite.value / 2 := by decide
      rw [increment_of_infinite inf]
      omega
  | false =>
      rw [value_increment (isInfinite_eq_false_iff.1 inf)]
      omega

theorem isLast_increment (h : 0 < c.value) : c.increment.isLast = false := by
  have several := increment_ne_one h
  have some := increment_pos h
  rw [isLast, Bool.and_eq_false_iff, decide_eq_false_iff_not]
  exact .inr (by omega)

theorem isInfinite_decrement (h : c.isInfinite = false) : c.decrement.isInfinite = false := by
  rw [isInfinite_eq_false_iff] at h ⊢
  rw [value_decrement h]
  omega

/-- Exactly the last reference leaves nothing, and zero stays zero. -/
theorem isLast_iff : c.isLast = true ↔ c.isInfinite = false ∧ c.decrement.value = 0 := by
  rw [isLast, Bool.and_eq_true, Bool.not_eq_true', decide_eq_true_iff]
  refine and_congr_right fun finite => ?_
  rw [value_decrement (isInfinite_eq_false_iff.1 finite)]
  omega

theorem decrement_pos (h : 0 < c.value) (several : c.isLast = false) : 0 < c.decrement.value := by
  cases inf : c.isInfinite with
  | true =>
      rw [decrement_of_infinite inf]
      exact h
  | false =>
      refine Nat.pos_of_ne_zero fun gone => ?_
      rw [isLast_iff.2 ⟨inf, gone⟩] at several
      cases several

/-- Giving back the reference that was taken leaves the count, unless the count became infinite. -/
theorem decrement_increment (h : c.increment.isInfinite = true → c.isInfinite = true) :
    c.increment.decrement = c := by
  cases inf : c.isInfinite with
  | true => rw [increment_of_infinite inf, decrement_of_infinite inf]
  | false =>
      have finite : c.increment.isInfinite = false := by
        rw [← Bool.not_eq_true]
        exact fun more => Bool.false_ne_true (inf ▸ h more)
      have value : c.increment.decrement.value = c.value := by
        rw [value_decrement (isInfinite_eq_false_iff.1 finite),
          value_increment (isInfinite_eq_false_iff.1 inf), Nat.add_sub_cancel]
      exact congrArg mk value

theorem value_ofInt (i : Int) : ((ofInt i).value : Int) = max 0 (min i greatest) := by
  simp only [ofInt]
  omega

theorem step_of_infinite (h : c.isInfinite = true) (s : CountStep) : c.step s = c := by
  cases s with
  | take => exact increment_of_infinite h
  | giveBack => exact decrement_of_infinite h

theorem value_step (h : c.isInfinite = false) (s : CountStep) :
    ((c.step s).value : Int) = max 0 (c.value + s.amount) := by
  rw [isInfinite_eq_false_iff] at h
  cases s with
  | take =>
      have value : (c.step .take).value = c.value + 1 := value_increment h
      rw [value, amount]
      omega
  | giveBack =>
      have value : (c.step .giveBack).value = c.value - 1 := value_decrement h
      rw [value, amount]
      omega

theorem value_step_le (h : c.value ≤ greatest) (s : CountStep) : (c.step s).value ≤ greatest := by
  cases inf : c.isInfinite with
  | true =>
      rw [step_of_infinite inf]
      exact h
  | false =>
      have value := value_step inf s
      have finite := isInfinite_eq_false_iff.1 inf
      have room : infinite.value / 2 < greatest := by decide
      cases s with
      | take =>
          rw [amount] at value
          omega
      | giveBack =>
          rw [amount] at value
          omega

/-! ## Several steps -/

theorem after_of_infinite (h : c.isInfinite = true) (steps : List CountStep) : c.after steps = c := by
  induction steps with
  | nil => rfl
  | cons s rest ih =>
      change (c.step s).after rest = c
      rw [step_of_infinite h, ih]

theorem value_after_le (h : c.value ≤ greatest) (steps : List CountStep) :
    (c.after steps).value ≤ greatest := by
  induction steps generalizing c with
  | nil => exact h
  | cons s rest ih => exact ih (value_step_le h s)

/-- The first step of a run that stays finite changes the count by its amount, and the rest of the run
stays finite, too. -/
theorem StaysFinite.step (h : c.StaysFinite (s :: steps)) :
    ((c.step s).value : Int) = c.value + s.amount ∧ (c.step s).StaysFinite steps := by
  have start := h 0 (Nat.zero_le _)
  have first := h 1 (Nat.succ_le_succ (Nat.zero_le _))
  simp only [List.take_zero, List.take_succ_cons, total] at start first
  have finite : c.isInfinite = false := by
    rw [isInfinite_eq_false_iff]
    omega
  have value : ((c.step s).value : Int) = c.value + s.amount := by
    rw [value_step finite]
    omega
  refine ⟨value, fun n hn => ?_⟩
  have later := h (n + 1) (Nat.succ_le_succ hn)
  rw [List.take_succ_cons, total] at later
  omega

/-- A count is exact as long as it stays finite. -/
theorem StaysFinite.value_after (h : c.StaysFinite steps) :
    ((c.after steps).value : Int) = c.value + total steps := by
  induction steps generalizing c with
  | nil => exact (Int.add_zero _).symm
  | cons s rest ih =>
      obtain ⟨value, later⟩ := h.step
      change (((c.step s).after rest).value : Int) = _
      rw [ih later, value, total, Int.add_assoc]

/-- From any start, negative numbers counting as zero, and after any steps: the count is no more than the
greatest value, and the next step changes it by exactly one, unless it is infinite or would fall below
zero. Once it is above half of the infinite count, nothing changes it. It is the sum of the start and the
steps if that sum never left the range of finite counts; then as many steps of either kind lead back to
the start. It is the last reference exactly if it is finite and giving one back leaves zero. -/
theorem after_exact (start : Int) (steps : List CountStep) :
    ((ofInt start).value : Int) = max 0 (min start greatest) ∧
    ∃ c, (ofInt start).after steps = c ∧
      c.value ≤ greatest ∧
      (∀ s, ((c.step s).value : Int) =
        if c.isInfinite = true then (c.value : Int) else max 0 (c.value + s.amount)) ∧
      (infinite.value / 2 < c.value → ∀ more, c.after more = c) ∧
      ((ofInt start).StaysFinite steps →
        (c.value : Int) = (ofInt start).value + total steps ∧
        (steps.count .take = steps.count .giveBack → c = ofInt start)) ∧
      (c.isLast = true ↔ c.isInfinite = false ∧ (c.step .giveBack).value = 0) := by
  have fits : (ofInt start).value ≤ greatest := Nat.min_le_right _ _
  refine ⟨value_ofInt start, _, rfl, value_after_le fits steps, fun s => ?_,
    fun above => after_of_infinite (isInfinite_iff.2 above), fun finite => ?_, isLast_iff⟩
  · cases inf : ((ofInt start).after steps).isInfinite with
    | true => rw [step_of_infinite inf, if_pos rfl]
    | false => rw [value_step inf, if_neg Bool.false_ne_true]
  · have value := finite.value_after
    refine ⟨value, fun balanced => ?_⟩
    rw [total_eq, balanced, Int.sub_self, Int.add_zero, Int.natCast_inj] at value
    exact congrArg mk value

/-- At the greatest finite count, a reference that is given back and taken again leaves the count as it
was, while one more makes it infinite. -/
theorem after_exact_threshold :
    (ofInt 0x1fffffffffffffff).StaysFinite [.giveBack, .take] ∧
      (ofInt 0x1fffffffffffffff).after [.giveBack, .take] = ofInt 0x1fffffffffffffff ∧
      infinite.value / 2 < ((ofInt 0x1fffffffffffffff).after [.take]).value ∧
      ((ofInt 0x1fffffffffffffff).after [.take]).after [.giveBack] =
        (ofInt 0x1fffffffffffffff).after [.take] := by
  have finite : (ofInt 0x1fffffffffffffff).StaysFinite [.giveBack, .take] := by decide
  have above : infinite.value / 2 < ((ofInt 0x1fffffffffffffff).after [.take]).value := by decide
  obtain ⟨-, c, rfl, -, -, -, exact, -⟩ := after_exact 0x1fffffffffffffff [.giveBack, .take]
  obtain ⟨-, c, rfl, -, -, lasting, -, -⟩ := after_exact 0x1fffffffffffffff [.take]
  exact ⟨finite, (exact finite).2 (by decide), above, lasting above [.giveBack]⟩

end ReferenceCount

end Offloading
