import Offloading.Metrics
/-!
# Phase times

Each run of a phase adds one to the number of the phase's runs and its duration to the time that they took. Their
mean divides the time by the low half of the number, so it is exact as long as the number fits into that half. From
there on some numbers have no mean, and for the others the mean is at least twice what it should be.
-/

namespace Offloading

open Word (narrowModulus)

/-! ## The mean of a timing -/

namespace PhaseTiming

variable {t : PhaseTiming} {mean : Nat}

/-- The time that the runs took, shared out evenly over them and rounded down; zero without runs. -/
def exactMean (t : PhaseTiming) : Nat := if t.calls = 0 then 0 else t.total / t.calls

theorem exactMean_eq_div (t : PhaseTiming) : t.exactMean = t.total / t.calls := by
  by_cases calls : t.calls = 0
  · rw [exactMean, if_pos calls, calls, Nat.div_zero]
  · rw [exactMean, if_neg calls]

theorem mean?_of_no_calls (h : t.calls = 0) : t.mean? = some 0 := if_pos h

theorem mean?_of_low_eq_zero (calls : t.calls ≠ 0) (low : t.calls % narrowModulus = 0) : t.mean? = none := by
  rw [mean?, if_neg calls, low]
  rfl

theorem mean?_of_low_ne_zero (low : t.calls % narrowModulus ≠ 0) :
    t.mean? = some (t.total / (t.calls % narrowModulus)) := by
  have calls : t.calls ≠ 0 := fun zero => low (by rw [zero, Nat.zero_mod])
  rw [mean?, if_neg calls]
  split
  · rename_i zero
    exact absurd zero low
  · rfl

/-- There is no mean exactly where there are runs and their number has no low half. -/
theorem mean?_eq_none_iff : t.mean? = none ↔ t.calls ≠ 0 ∧ narrowModulus ∣ t.calls := by
  by_cases low : t.calls % narrowModulus = 0
  · by_cases calls : t.calls = 0
    · rw [mean?_of_no_calls calls]
      exact iff_of_false nofun fun h => h.1 calls
    · exact iff_of_true (mean?_of_low_eq_zero calls low) ⟨calls, Nat.dvd_of_mod_eq_zero low⟩
  · rw [mean?_of_low_ne_zero low]
    exact iff_of_false nofun fun h => low (Nat.mod_eq_zero_of_dvd h.2)

/-- The mean of a number of runs that fits into the low half is exact. -/
theorem mean?_of_calls_lt (h : t.calls < narrowModulus) : t.mean? = some t.exactMean := by
  by_cases calls : t.calls = 0
  · rw [mean?_of_no_calls calls, exactMean, if_pos calls]
  · have low : t.calls % narrowModulus = t.calls := Nat.mod_eq_of_lt h
    rw [mean?_of_low_ne_zero (low.symm ▸ calls), low, exactMean, if_neg calls]

theorem calls_ne_zero (wide : narrowModulus ≤ t.calls) : t.calls ≠ 0 :=
  Nat.ne_of_gt (Nat.lt_of_lt_of_le (by decide) wide)

/-- The low half of a number that does not fit into it is at most half of the number. -/
theorem low_mul_two_le (wide : narrowModulus ≤ t.calls) : t.calls % narrowModulus * 2 ≤ t.calls := by
  rw [narrowModulus] at wide ⊢
  omega

theorem two_mul_exactMean_le (wide : narrowModulus ≤ t.calls) (h : t.mean? = some mean) :
    2 * t.exactMean ≤ mean := by
  by_cases low : t.calls % narrowModulus = 0
  · rw [mean?_of_low_eq_zero (calls_ne_zero wide) low] at h
    cases h
  · rw [mean?_of_low_ne_zero low, Option.some.injEq] at h
    have positive : 0 < t.calls % narrowModulus * 2 := Nat.mul_pos (Nat.pos_of_ne_zero low) Nat.two_pos
    calc 2 * t.exactMean
      _ = 2 * (t.total / t.calls) := by rw [exactMean_eq_div]
      _ ≤ 2 * (t.total / (t.calls % narrowModulus * 2)) :=
          Nat.mul_le_mul_left 2 (Nat.div_le_div_left (low_mul_two_le wide) positive)
      _ = 2 * (t.total / (t.calls % narrowModulus) / 2) := by rw [Nat.div_div_eq_div_mul]
      _ ≤ t.total / (t.calls % narrowModulus) := Nat.mul_div_le _ 2
      _ = mean := h

/-- A mean that is at least twice the exact one can only be exact if it is zero: the time is then less than what it
is divided by. -/
theorem mean?_eq_exactMean_iff :
    t.mean? = some t.exactMean ↔ t.calls < narrowModulus ∨ t.total < t.calls % narrowModulus := by
  constructor
  · intro exact
    refine (Nat.lt_or_ge t.calls narrowModulus).imp id fun wide => ?_
    have double := two_mul_exactMean_le wide exact
    have zero : t.exactMean = 0 := by omega
    by_cases low : t.calls % narrowModulus = 0
    · rw [mean?_of_low_eq_zero (calls_ne_zero wide) low] at exact
      cases exact
    · rw [mean?_of_low_ne_zero low, zero, Option.some.injEq, Nat.div_eq_zero_iff] at exact
      exact exact.resolve_left low
  · rintro (narrow | short)
    · exact mean?_of_calls_lt narrow
    · have low : t.calls % narrowModulus ≠ 0 := Nat.ne_of_gt (Nat.zero_lt_of_lt short)
      have below : t.total < t.calls := Nat.lt_of_lt_of_le short (Nat.mod_le _ _)
      rw [mean?_of_low_ne_zero low, exactMean_eq_div, Nat.div_eq_of_lt short, Nat.div_eq_of_lt below]

end PhaseTiming

/-! ## What is counted -/

/-- Something that the metrics count. -/
inductive MetricsEvent where
  /-- A phase was run and took this many nanoseconds. -/
  | ran (p : Phase) (nanos : Nat)
  /-- A kernel was launched, with this many sections in its address table. -/
  | launched (tableEntries : Nat)
  deriving DecidableEq, Repr

namespace MetricsEvent

variable {p : Phase} {nanos : Nat} {e : MetricsEvent} {events : List MetricsEvent}

/-- How long a run of the phase took, if that is what happened. -/
def duration? (p : Phase) : MetricsEvent → Option Nat
  | ran q nanos => if q = p then some nanos else none
  | launched _ => none

/-- How long each run of the phase took. -/
def durations (p : Phase) (events : List MetricsEvent) : List Nat := events.filterMap (duration? p)

/-- How long runs took together. -/
def totalTime : List Nat → Nat
  | [] => 0
  | nanos :: rest => nanos + totalTime rest

theorem durations_cons_of_none (h : e.duration? p = none) : durations p (e :: events) = durations p events :=
  List.filterMap_cons_none h

theorem durations_cons_of_some (h : e.duration? p = some nanos) :
    durations p (e :: events) = nanos :: durations p events :=
  List.filterMap_cons_some h

theorem durations_replicate (p : Phase) (nanos n : Nat) :
    durations p (List.replicate n (ran p nanos)) = List.replicate n nanos := by
  have took : duration? p (ran p nanos) = some nanos := if_pos rfl
  induction n with
  | zero => rfl
  | succ n ih => rw [List.replicate_succ, durations_cons_of_some took, ih, List.replicate_succ]

theorem totalTime_replicate (nanos n : Nat) : totalTime (List.replicate n nanos) = n * nanos := by
  induction n with
  | zero => exact (Nat.zero_mul nanos).symm
  | succ n ih => rw [List.replicate_succ, totalTime, ih, Nat.succ_mul, Nat.add_comm]

end MetricsEvent

namespace Metrics

open MetricsEvent PhaseTiming

variable {m : Metrics} {p : Phase}

/-- The metrics when something has happened. -/
def count (m : Metrics) : MetricsEvent → Metrics
  | .ran p nanos => m.record p nanos
  | .launched tableEntries => m.recordLaunch tableEntries

/-- The metrics when several things have happened. -/
def after (m : Metrics) (events : List MetricsEvent) : Metrics := events.foldl count m

theorem timing_record (m : Metrics) (q p : Phase) (nanos : Nat) :
    (m.record q nanos).timing p = if q = p then (m.timing p).record nanos else m.timing p := by
  cases q <;> cases p <;> rfl

theorem timing_recordLaunch (m : Metrics) (tableEntries : Nat) (p : Phase) :
    (m.recordLaunch tableEntries).timing p = m.timing p := by
  cases p <;> rfl

/-- A run of the phase is counted in its timing, and nothing else is. -/
theorem timing_count (m : Metrics) (e : MetricsEvent) (p : Phase) :
    (m.count e).timing p = ((e.duration? p).map (m.timing p).record).getD (m.timing p) := by
  cases e with
  | ran q nanos =>
      rw [count, timing_record, duration?]
      split
      · rfl
      · rfl
  | launched tableEntries => exact timing_recordLaunch m tableEntries p

/-- A timing holds how many runs of its phase there were, and how long they took together. -/
theorem timing_after (m : Metrics) (events : List MetricsEvent) (p : Phase) :
    (m.after events).timing p =
      ⟨(m.timing p).calls + (durations p events).length, (m.timing p).total + totalTime (durations p events)⟩ := by
  induction events generalizing m with
  | nil => rfl
  | cons e rest ih =>
      change ((m.count e).after rest).timing p = _
      rw [ih, timing_count]
      cases h : e.duration? p with
      | none =>
          rw [durations_cons_of_none h]
          rfl
      | some nanos =>
          rw [durations_cons_of_some h, List.length_cons, totalTime, Nat.add_comm _ 1, ← Nat.add_assoc,
            ← Nat.add_assoc]
          rfl

theorem timing_after_start (events : List MetricsEvent) (p : Phase) :
    (after {} events).timing p = ⟨(durations p events).length, totalTime (durations p events)⟩ := by
  have start : ({} : Metrics).timing p = ⟨0, 0⟩ := by
    cases p <;> rfl
  rw [timing_after, start, Nat.zero_add, Nat.zero_add]

/-- Whatever has happened, a phase's timing holds the number of its runs and the time that they took. Their mean is
the time divided by the number, rounded down and zero without runs, exactly if the number fits into 32 bits or the
time is less than the number's low half. There is no mean exactly for the positive multiples of two to the 32. Any
other mean of a number that does not fit is at least twice the exact one. -/
theorem mean_exact_iff (events : List MetricsEvent) (p : Phase) :
    ∃ t, (after {} events).timing p = t ∧
      t.calls = (durations p events).length ∧ t.total = totalTime (durations p events) ∧
      (t.mean? = some t.exactMean ↔ t.calls < narrowModulus ∨ t.total < t.calls % narrowModulus) ∧
      (t.mean? = none ↔ t.calls ≠ 0 ∧ narrowModulus ∣ t.calls) ∧
      (narrowModulus ≤ t.calls → ∀ mean, t.mean? = some mean → 2 * t.exactMean ≤ mean) :=
  ⟨_, timing_after_start events p, rfl, rfl, mean?_eq_exactMean_iff, mean?_eq_none_iff,
    fun wide _ => two_mul_exactMean_le wide⟩

/-- Two to the 32 kernels of one nanosecond each have no mean, and one kernel more makes it at least two
nanoseconds. -/
theorem mean_exact_iff_wideCounts :
    ((after {} (List.replicate 0x100000000 (.ran .kernel 1))).timing .kernel).mean? = none ∧
      ((after {} (List.replicate 0x100000001 (.ran .kernel 1))).timing .kernel).mean? ≠ some 1 := by
  obtain ⟨t, rfl, calls, -, -, none_iff, -⟩ := mean_exact_iff (List.replicate 0x100000000 (.ran .kernel 1)) .kernel
  obtain ⟨t', rfl, calls', total', -, -, longer⟩ :=
    mean_exact_iff (List.replicate 0x100000001 (.ran .kernel 1)) .kernel
  rw [durations_replicate, List.length_replicate] at calls calls'
  rw [durations_replicate, totalTime_replicate] at total'
  refine ⟨none_iff.2 (by rw [calls]; decide), fun one => ?_⟩
  have double := longer (by rw [calls']; decide) 1 one
  rw [exactMean_eq_div, calls', total'] at double
  exact absurd double (by decide)

end Metrics

end Offloading
