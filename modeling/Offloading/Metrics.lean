import Offloading.Text.Ratio
import Offloading.Word
/-!
# Metrics

How often each phase of the platform was run and how long it took, and what was launched. Durations
are whole nanoseconds.
-/

namespace Offloading

/-- A phase of the platform that is timed. -/
inductive Phase where
  /-- Mapping the arguments of a region. -/
  | dataBegin
  /-- Releasing the arguments of a region. -/
  | dataEnd
  /-- Refreshing mapped sections. -/
  | dataUpdate
  /-- A region with its kernel, as a whole. -/
  | target
  /-- A kernel. -/
  | kernel
  /-- Patching pointers. -/
  | pointerUpdate
  deriving DecidableEq, Repr

namespace Phase

/-- All phases, in the order of reports. -/
def all : List Phase := [dataBegin, dataEnd, dataUpdate, target, kernel, pointerUpdate]

/-- The phase's name in reports. -/
def name : Phase → String
  | dataBegin => "data_begin"
  | dataEnd => "data_end"
  | dataUpdate => "data_update"
  | target => "target"
  | kernel => "kernel"
  | pointerUpdate => "pointer_update"

/-- The phase of this name. -/
def ofName? (s : String) : Option Phase := all.find? fun p => p.name == s

end Phase

/-- The timing of one phase. -/
structure PhaseTiming where
  /-- How often the phase was run. -/
  calls : Nat := 0
  /-- How long all the runs took. -/
  total : Nat := 0
  deriving DecidableEq, Repr, Inhabited

namespace PhaseTiming

/-- Adds one run. -/
def record (t : PhaseTiming) (nanos : Nat) : PhaseTiming := ⟨t.calls + 1, t.total + nanos⟩

/-- The average duration of a run, rounded down; zero without runs. The divisor is the low half of
the number of runs, and there is no average where that is zero. -/
def mean? (t : PhaseTiming) : Option Nat :=
  if t.calls = 0 then some 0
  else
    match t.calls % Word.narrowModulus with
    | 0 => none
    | divisor => some (t.total / divisor)

/-- A duration in milliseconds, with three decimals. -/
def milliseconds (nanos : Nat) : String :=
  let seconds := Float.ofNat (nanos / 1000000000) + Float.ofNat (nanos % 1000000000) / 1000000000.0
  Text.fixedFloat (seconds * 1000.0) 3

end PhaseTiming

/-- What the platform has done. -/
structure Metrics where
  /-- Mapping the arguments of regions. -/
  dataBegin : PhaseTiming := {}
  /-- Releasing the arguments of regions. -/
  dataEnd : PhaseTiming := {}
  /-- Refreshing mapped sections. -/
  dataUpdate : PhaseTiming := {}
  /-- Regions with their kernels. -/
  target : PhaseTiming := {}
  /-- Kernels. -/
  kernel : PhaseTiming := {}
  /-- Patching pointers. -/
  pointerUpdate : PhaseTiming := {}
  /-- Kernels launched. -/
  kernelsLaunched : Nat := 0
  /-- Sections in all the address tables handed to kernels. -/
  tableEntries : Nat := 0
  deriving DecidableEq, Repr, Inhabited

namespace Metrics

/-- The timing of a phase. -/
def timing (m : Metrics) : Phase → PhaseTiming
  | .dataBegin => m.dataBegin
  | .dataEnd => m.dataEnd
  | .dataUpdate => m.dataUpdate
  | .target => m.target
  | .kernel => m.kernel
  | .pointerUpdate => m.pointerUpdate

/-- Adds one run of a phase. -/
def record (m : Metrics) (p : Phase) (nanos : Nat) : Metrics :=
  match p with
  | .dataBegin => { m with dataBegin := m.dataBegin.record nanos }
  | .dataEnd => { m with dataEnd := m.dataEnd.record nanos }
  | .dataUpdate => { m with dataUpdate := m.dataUpdate.record nanos }
  | .target => { m with target := m.target.record nanos }
  | .kernel => { m with kernel := m.kernel.record nanos }
  | .pointerUpdate => { m with pointerUpdate := m.pointerUpdate.record nanos }

/-- Counts a launch and the sections in its address table. -/
def recordLaunch (m : Metrics) (tableEntries : Nat) : Metrics :=
  { m with
    kernelsLaunched := m.kernelsLaunched + 1
    tableEntries := m.tableEntries + tableEntries }

/-- The phases that were run, each with its timing. -/
def timed (m : Metrics) : List (Phase × PhaseTiming) :=
  (Phase.all.map fun p => (p, m.timing p)).filter fun (_, t) => 0 < t.calls

/-- One line for people. -/
def summary (m : Metrics) : String :=
  let phases := match m.timed with
    | [] => "no phases timed"
    | timed => ", ".intercalate <| timed.map fun (p, t) =>
        p.name ++ " " ++ toString t.calls ++ "x " ++ PhaseTiming.milliseconds t.total ++ "ms"
  "Offload: " ++ toString m.kernelsLaunched ++ " kernels, " ++ toString m.tableEntries
    ++ " table entries; " ++ phases

end Metrics

end Offloading
