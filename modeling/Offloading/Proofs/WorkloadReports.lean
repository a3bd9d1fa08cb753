import Offloading.CommandLine
import Offloading.Proofs.CallCounts
import Offloading.Proofs.WorkloadRuns
/-!
# Reports of workloads

A workload that is run counts each of its regions. Its report for people has a line for each phase that was run, with
the mean of the runs, and breaks off at a phase without a mean. Phases that were run a multiple of two to the 32 times
have none, and a workload may well have so many regions.
-/

namespace Offloading

open Word (narrowModulus)

/-! ## Regions that are counted -/

section except

variable {ε ε' α β : Type} {x : Except ε α} {a : α}

private theorem bind_eq_ok {f : α → Except ε β} {b : β} :
    x >>= f = .ok b ↔ ∃ a, x = .ok a ∧ f a = .ok b := by
  cases x with
  | error e => exact iff_of_false nofun fun ⟨_, h, _⟩ => nomatch h
  | ok a =>
      constructor
      · exact fun h => ⟨a, rfl, h⟩
      · rintro ⟨_, ⟨⟩, h⟩
        exact h

private theorem mapError_eq_ok {f : ε → ε'} : x.mapError f = .ok a ↔ x = .ok a := by
  cases x with
  | error e => exact iff_of_false nofun nofun
  | ok _ => rw [Except.mapError, Except.ok.injEq, Except.ok.injEq]

end except

namespace Workload

variable {w : Workload} {b : Buffers} {c : Config} {s s' : CallState} {index : Nat} {report : Report}

theorem counts_runRegion (ran : runRegion s index = .ok s') : s.platform.Counts (some .target) s'.platform := by
  have counts : s.platform.Counts _ (exec (Platform.target (-1) kernelAddr .single) s).2.platform :=
    Platform.countedAs_target s
  rcases called : exec (Platform.target (-1) kernelAddr .single) s with ⟨e | _, s₁⟩
  all_goals
    have run : (Platform.target (-1) kernelAddr .single).run.run s = _ := called
    rw [runRegion, run] at ran
    cases ran
  rwa [called] at counts

/-- Regions that follow each other are counted one by one. -/
theorem calls_runRegions (timed : s.platform.settings.config.profiling = true) {indices : List Nat}
    (ran : indices.foldlM runRegion s = .ok s') :
    (s'.platform.metrics.timing .target).calls =
      (s.platform.metrics.timing .target).calls + indices.length := by
  induction indices generalizing s with
  | nil =>
      cases ran
      rfl
  | cons index rest ih =>
      rw [List.foldlM_cons] at ran
      obtain ⟨s₁, first, ran⟩ := bind_eq_ok.1 ran
      have counts := counts_runRegion first
      have one : s₁.platform.metrics.timing .target = (s.platform.metrics.timing .target).record 0 := by
        rw [counts.timing .target rfl, if_pos ⟨timed, rfl⟩]
      calc (s'.platform.metrics.timing .target).calls
        _ = (s₁.platform.metrics.timing .target).calls + rest.length := ih (counts.settings ▸ timed) ran
        _ = (s.platform.metrics.timing .target).calls + 1 + rest.length := by rw [one, PhaseTiming.record]
        _ = (s.platform.metrics.timing .target).calls + (index :: rest).length := by
          rw [List.length_cons, Nat.add_assoc, Nat.add_comm 1]

/-- What a workload reports is read off the platform after its last region. -/
theorem runIn_eq_ok_iff : w.runIn b c = .ok report ↔
    ∃ pl, w.platform b c = .ok pl ∧
    ∃ s, (List.range w.iterations).foldlM runRegion { platform := pl, arguments := w.arguments b } = .ok s ∧
    ∃ l, (exec (Platform.deviceIndex (-1) >>= Platform.link) s.platform).1 = .ok l ∧
      report =
        { strategy := s.platform.settings.strategy
          addressTable := c.addressTable
          verified := (List.range w.structs).all (w.isUpdated b s.platform.host) && l.device.mappings.isEmpty
          metrics := s.platform.metrics
          transfers := l.device.transfers } := by
  simp only [runIn, bind_eq_ok, mapError_eq_ok, pure, Except.pure, Except.ok.injEq, @eq_comm _ _ report]
  rfl

/-- With phases timed, a workload that is run counts as many regions as it has. -/
theorem calls_runIn (timed : c.profiling = true) (ran : w.runIn b c = .ok report) :
    (report.metrics.timing .target).calls = w.iterations := by
  obtain ⟨pl, built, s, regions, l, -, rfl⟩ := runIn_eq_ok_iff.1 ran
  obtain ⟨fresh, created, same⟩ := bind_eq_ok.1 built
  obtain ⟨strategy, -, -, rfl⟩ := Platform.ofAccelerators_eq_ok created
  cases same
  have calls := calls_runRegions timed regions
  rw [List.length_range] at calls
  exact calls.trans (Nat.zero_add _)

/-- A workload that can be run is run to its end. -/
theorem Runnable.returns {strategy : Strategy} (runnable : w.Runnable b c) (named : c.strategy = .ok strategy) :
    ∃ report, w.runIn b c = .ok report := by
  obtain ⟨s, ran, -, calm, -⟩ := runnable.regions strategy w.iterations (Nat.le_refl _)
  obtain ⟨l, hl, -⟩ := calm.link
  obtain ⟨_, found, rfl⟩ := Round.attains_deviceIndex (calm.settings ▸ runnable.default) calm.listed
  have used : Returns (Platform.deviceIndex (-1) >>= Platform.link) s.platform l s.platform :=
    returns_bind.2 ⟨0, _, found, Platform.exec_link hl⟩
  exact ⟨_, runIn_eq_ok_iff.2 ⟨_, platform_eq_ok runnable.alignment runnable.noList named, s, ran, l,
    congrArg Prod.fst used, rfl⟩⟩

end Workload

/-! ## Reports -/

namespace Metrics

variable {m : Metrics} {p : Phase} {t : PhaseTiming}

theorem mem_timed : (p, t) ∈ m.timed ↔ t = m.timing p ∧ 0 < t.calls := by
  have listed : p ∈ Phase.all := by
    cases p <;> decide
  simp only [timed, List.mem_filter, List.mem_map, Prod.mk.injEq, decide_eq_true_eq]
  constructor
  · rintro ⟨⟨_, -, rfl, rfl⟩, ran⟩
    exact ⟨rfl, ran⟩
  · rintro ⟨rfl, ran⟩
    exact ⟨⟨p, listed, rfl, rfl⟩, ran⟩

end Metrics

namespace CommandLine

open Metrics PhaseTiming

variable {w : Workload} {r : Workload.Report} {c : Config} {json : Bool}

/-- Some phase was run and its runs have no mean. -/
def Immeasurable (m : Metrics) : Prop := ∃ p, (m.timing p).calls ≠ 0 ∧ narrowModulus ∣ (m.timing p).calls

/-- Each phase has a line unless one of them has no mean. -/
theorem phaseLines_all_iff (m : Metrics) :
    (phaseLines m).all Option.isSome = true ↔ ¬ Immeasurable m := by
  rw [phaseLines, List.all_map, List.all_eq_true]
  constructor
  · rintro all ⟨p, ran, wide⟩
    have line := all (p, m.timing p) (mem_timed.2 ⟨rfl, Nat.pos_of_ne_zero ran⟩)
    change (phaseLine? p (m.timing p)).isSome = true at line
    rw [phaseLine?, mean?_eq_none_iff.2 ⟨ran, wide⟩] at line
    cases line
  · rintro measurable ⟨p, t⟩ listed
    obtain ⟨rfl, -⟩ := mem_timed.1 listed
    change (phaseLine? p (m.timing p)).isSome = true
    cases mean : (m.timing p).mean? with
    | some nanos =>
        rw [phaseLine?, mean]
        rfl
    | none => exact absurd ⟨p, mean?_eq_none_iff.1 mean⟩ measurable

theorem reportText_isOk_iff : (∃ text, reportText w r = .ok text) ↔ ¬ Immeasurable r.metrics := by
  rw [← phaseLines_all_iff, reportText]
  cases (phaseLines r.metrics).all Option.isSome with
  | true => exact iff_of_true ⟨_, rfl⟩ rfl
  | false => exact iff_of_false nofun Bool.false_ne_true

theorem conclude_brokenOff_iff {report : Except String String} :
    (conclude r report).code = Outcome.brokenOffCode ↔ ¬ ∃ text, report = .ok text := by
  cases report with
  | error output => exact iff_of_true rfl nofun
  | ok output =>
      refine iff_of_false ?_ fun none => none ⟨output, rfl⟩
      rw [conclude]
      split
      · nofun
      · nofun

/-- A workload that has run is reported for people to the end unless one of its phases has no mean. -/
theorem simulate_brokenOff_iff : (simulate c w json).code = Outcome.brokenOffCode ↔
    json = false ∧ c.validate = .ok () ∧ ∃ r, w.run c = .ok r ∧ Immeasurable r.metrics := by
  rw [simulate]
  cases valid : c.validate with
  | error e => exact iff_of_false nofun fun h => nomatch h.2.1
  | ok _ =>
      cases ran : w.run c with
      | error e => exact iff_of_false nofun fun h => nomatch h.2.2
      | ok r =>
          dsimp only
          rw [conclude_brokenOff_iff]
          cases json with
          | true => exact iff_of_false (fun none => none ⟨_, rfl⟩) nofun
          | false =>
              rw [if_neg Bool.false_ne_true, reportText_isOk_iff, Classical.not_not]
              exact ⟨fun bad => ⟨rfl, rfl, r, rfl, bad⟩, fun ⟨_, _, _, same, bad⟩ => by cases same; exact bad⟩

/-- A workload of a multiple of two to the 32 regions is run to its end, but its report breaks off. -/
theorem simulate_breaksOff {strategy : Strategy} (runnable : w.Runnable w.buffers c)
    (named : c.strategy = .ok strategy) (timed : c.profiling = true) (some : w.iterations ≠ 0)
    (wide : narrowModulus ∣ w.iterations) : (simulate c w false).code = Outcome.brokenOffCode := by
  obtain ⟨report, ran⟩ := runnable.returns named
  have calls := Workload.calls_runIn timed ran
  have valid := Workload.validate_eq_ok runnable.alignment runnable.noList named
  exact simulate_brokenOff_iff.2 ⟨rfl, valid, report, ran, .target, calls ▸ some, calls ▸ wide⟩

/-- Two to the 32 regions without structs fit on the device. -/
theorem respond_breaksOff (readFile : String → Except String String) :
    (respond readFile ["simulate", "--structs", "0", "--iterations", "4294967296"]).code =
      Outcome.brokenOffCode := by
  have request : Request.ofArguments ["simulate", "--structs", "0", "--iterations", "4294967296"] =
      .ok (.run none (.simulate none false ⟨0, 1024, 0x100000000⟩ false)) := by
    decide +kernel
  have runnable : Workload.Runnable ⟨0, 1024, 0x100000000⟩ (Workload.buffers ⟨0, 1024, 0x100000000⟩) {} :=
    ⟨Workload.suitable_buffers (by decide), rfl, rfl, by decide, by decide, by decide⟩
  rw [respond, request]
  simp only [Request.respond, loadConfig, Command.execute]
  exact simulate_breaksOff runnable rfl rfl (by decide) (by decide)

end CommandLine

end Offloading
