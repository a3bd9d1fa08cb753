import Offloading.Json.Value
import Offloading.Text.Column
import Offloading.Workload
/-!
# Reports

What a workload has done, as text for people and as JSON, and several runs of one workload side by
side.
-/

namespace Offloading.CommandLine

open Text (leftIn rightIn)

/-- The width of a heading's frame, in characters. -/
def headingWidth : Nat := 54

/-- A heading in a frame, `indent` characters behind its left side, and an empty line. -/
def heading (indent : Nat) (title : String) : List String :=
  let bar := "".pushn '═' headingWidth
  ["╔" ++ bar ++ "╗", "║" ++ leftIn headingWidth ("".pushn ' ' indent ++ title) ++ "║",
    "╚" ++ bar ++ "╝", ""]

/-- Lines as text. -/
def unlines (lines : List String) : String := String.join (lines.map (· ++ "\n"))

/-- The line of a phase, if its runs have a mean. -/
def phaseLine? (p : Phase) (t : PhaseTiming) : Option String :=
  t.mean?.map fun mean =>
    "   " ++ leftIn 15 p.name ++ " " ++ rightIn 6 (toString t.calls) ++ " calls "
      ++ rightIn 10 (PhaseTiming.milliseconds t.total) ++ "ms total "
      ++ rightIn 8 (PhaseTiming.milliseconds mean) ++ "ms mean"

/-- The line of each phase that was run. -/
def phaseLines (m : Metrics) : List (Option String) := m.timed.map fun (p, t) => phaseLine? p t

/-- The report of a workload for people. It breaks off at the first phase whose runs have no mean; the
error is what it says until there. -/
def reportText (w : Workload) (r : Workload.Report) : Except String String :=
  let opening :=
    heading 12 "offload-sim · Workload Runner"
      ++ ["  Workload:",
        "   Strategy:   " ++ r.label,
        "   Structs:    " ++ toString w.structs,
        "   Payload:    " ++ toString w.payload ++ " bytes",
        "   Iterations: " ++ toString w.iterations,
        "",
        "  Phases:"]
  let phases := phaseLines r.metrics
  let closing :=
    ["",
      "  " ++ r.metrics.summary,
      "  Device: " ++ r.transfers.summary,
      "  Wall:   " ++ PhaseTiming.milliseconds r.elapsed ++ "ms",
      "  Result: " ++ (if r.verified then "verified" else "MISMATCH"),
      ""]
  if phases.all Option.isSome then .ok (unlines (opening ++ phases.filterMap id ++ closing))
  else .error (unlines (opening ++ (phases.takeWhile Option.isSome).filterMap id))

/-- The timing of a phase as JSON. -/
def timingJson (t : PhaseTiming) : Json.Value :=
  .object [("calls", .natural t.calls),
    ("total", .object [("nanos", .natural (t.total % 1000000000)),
      ("secs", .natural (t.total / 1000000000))])]

/-- Metrics as JSON, with the members in alphabetical order. -/
def metricsJson (m : Metrics) : Json.Value :=
  .object [("address_table_entries", .natural m.tableEntries),
    ("data_begin", timingJson m.dataBegin),
    ("data_end", timingJson m.dataEnd),
    ("data_update", timingJson m.dataUpdate),
    ("kernel", timingJson m.kernel),
    ("kernels_launched", .natural m.kernelsLaunched),
    ("pointer_update", timingJson m.pointerUpdate),
    ("target", timingJson m.target)]

/-- Transfer statistics as JSON, with the members in alphabetical order. -/
def transfersJson (s : TransferStats) : Json.Value :=
  .object [("allocations", .natural s.allocations),
    ("batched_chunks", .natural s.batchedChunks),
    ("batched_submissions", .natural s.batches),
    ("d2h_bytes", .natural s.retrievedBytes),
    ("d2h_transfers", .natural s.retrievals),
    ("deallocations", .natural s.deallocations),
    ("h2d_bytes", .natural s.submittedBytes),
    ("h2d_transfers", .natural s.submissions),
    ("launches", .natural s.launches)]

/-- The report of a workload as JSON, with the members in alphabetical order. -/
def reportJson (r : Workload.Report) : Json.Value :=
  .object [("elapsed_ms", .number (Text.fixed r.elapsed 1000000 1)),
    ("metrics", metricsJson r.metrics),
    ("strategy", .string r.label),
    ("transfers", transfersJson r.transfers),
    ("verified", .boolean r.verified)]

/-- The columns of a comparison. -/
def comparisonLine (label wall pointers single batches tables result : String) : String :=
  "  " ++ leftIn 18 label ++ " " ++ rightIn 10 wall ++ " " ++ rightIn 10 pointers ++ " "
    ++ rightIn 9 single ++ " " ++ rightIn 9 batches ++ " " ++ rightIn 10 tables ++ "  " ++ result

/-- The line of a run in a comparison. -/
def runLine (r : Workload.Report) : String :=
  comparisonLine r.label (PhaseTiming.milliseconds r.elapsed)
    (PhaseTiming.milliseconds r.metrics.pointerUpdate.total) (toString r.transfers.submissions)
    (toString r.transfers.batches) (toString r.metrics.tableEntries)
    (if r.verified then "ok" else "MISMATCH")

/-- The line of a run that failed in a comparison. -/
def failureLine (s : Strategy) (e : WorkloadError) : String :=
  "  " ++ leftIn 18 s.name ++ " FAILED: " ++ ": ".intercalate e.chain

/-- The first of the runs that took the least time. -/
def fastest? : List Workload.Report → Option Workload.Report
  | [] => none
  | r :: rest =>
    match fastest? rest with
    | none => some r
    | some other => some (if other.elapsed < r.elapsed then other else r)

/-- The comparison of several runs. -/
def comparisonText (w : Workload) (runs : List (Strategy × Except WorkloadError Workload.Report)) :
    String :=
  let line : Strategy × Except WorkloadError Workload.Report → String
    | (_, .ok r) => runLine r
    | (s, .error e) => failureLine s e
  let closing := match fastest? (runs.filterMap fun (_, run) => run.toOption) with
    | some r => "  Fastest: " ++ r.label ++ " (" ++ PhaseTiming.milliseconds r.elapsed ++ "ms)"
    | none => "  No successful runs."
  unlines <|
    heading 11 "offload-sim · Strategy Comparison"
      ++ ["  " ++ toString w.structs ++ " structs × " ++ toString w.payload ++ " bytes, "
          ++ toString w.iterations ++ " iterations",
        "",
        comparisonLine "strategy" "wall ms" "ptr ms" "h2d" "batches" "tables" "result"]
      ++ runs.map line
      ++ ["", closing]

end Offloading.CommandLine
