import Offloading.Proofs.WorkloadLeaving
/-!
# The regions of a workload

A region of a workload runs to its end. It leaves the device as it found it, but for the place of the next
block, and every array on the host has been in one more region. What it costs depends on the workload and
the settings alone.
-/

namespace Offloading.Workload

namespace Round

open RegionM

variable {r : Round} {kernels : List Kernel} {v : RegionView} {state : RegionState} {t : TransferStats}
  {d : DeviceView} {host : HostMemory}

/-- The round after this one. -/
def next (r : Round) : Round := { r with base := r.top, before := r.before + 1 }

/-- What a region costs. -/
def cost (r : Round) (t : TransferStats) : TransferStats := r.leaving 0 (r.launching t)

/-- What a region starts from. -/
theorem Done.leaving (done : r.Done t d) (held : r.stack.Held (2 * r.count) r.hostText host) :
    r.Leaving r.count (r.launching t) d host where
  listed := done.listed
  stored := done.stored
  patched := done.patched
  held j hj := (held j hj).trans (text_congr (fun _ _ => rfl) (fun _ hs => (if_pos hs).symm) j hj)
  transfers := by simp [done.transfers, Round.leaving]

/-- What is left when all sections are released is what the next region starts from. -/
theorem Leaving.blank (left : r.Leaving 0 t d host) : r.next.Blank d where
  listed := ⟨left.listed.wellFormed, fun m => (left.listed.mem_iff m).trans
    ⟨fun ⟨_, lt, _⟩ => absurd lt (Nat.not_lt_zero _), fun ⟨_, lt, _⟩ => absurd lt (Nat.not_lt_zero _)⟩⟩
  stored :=
    { wellFormed := left.stored.wellFormed
      next := left.stored.next
      used := left.stored.used.trans (Nat.zero_mul _)
      capacity := left.stored.capacity
      mem := fun j lt => absurd lt (Nat.not_lt_zero j)
      lengths := fun j lt => absurd lt (Nat.not_lt_zero j) }
  unpatched x hx := by
    obtain ⟨-, s, lt, -⟩ := (left.patched x).1 hx
    exact Nat.not_lt_zero s lt

theorem Leaving.held_next (left : r.Leaving 0 t d host) :
    r.next.stack.Held (2 * r.next.count) r.next.hostText host := by
  intro j hj
  refine (left.held j hj).trans (text_congr (fun _ _ => rfl) (fun _ _ => ?_) j hj)
  exact if_neg (Nat.not_lt_zero _)

/-- A region that nothing keeps from its work enters, runs its kernel and leaves. -/
theorem attains_run (fits : r.Fits) (h : state.Shows r.registered r.args v) (queue : v.queue = {})
    (none : v.scratch = []) (blank : r.Blank v.device)
    (held : r.stack.Held (2 * r.count) r.hostText v.host) :
    Attains (Region.run r.settings Accelerator.kernelBase .single) state () fun state =>
      ∃ d host, state.Shows r.registered r.args
          { v with
            device := d
            host
            launched := v.launched + 1
            tableEntries := v.tableEntries + r.tableEntries } ∧
        d.transfers = r.cost v.device.transfers ∧ r.next.Blank d ∧
        r.next.stack.Held (2 * r.next.count) r.next.hostText host := by
  let after (d : DeviceView) (scratch : List Nat) : RegionView :=
    { v with
      device := d
      scratch
      launched := v.launched + 1
      tableEntries := v.tableEntries + r.tableEntries }
  refine Region.attains_run (Q := fun state => ∃ table d, state.Shows r.registered r.args (after d r.scratch) ∧
      r.Translates table ∧ r.Loaded table r.count (r.staging (r.entering v.device.transfers)).recordLaunch d)
    (R := fun state => ∃ d, state.Shows r.registered r.args (after d []) ∧ r.Done v.device.transfers d)
    (attains_enter fits held h queue blank) ?_ ?_ ?_
  · rintro state ⟨d, h, entered⟩
    obtain ⟨table, d', translates, loaded, ran⟩ :=
      attains_stageAndLaunch (v := { v with device := d }) fits h none entered
    exact ran.mono fun state h => ⟨table, d', h, translates, loaded⟩
  · rintro state ⟨table, d, h, translates, loaded⟩
    obtain ⟨d', done, ran⟩ := attains_freeScratch (v := after d r.scratch) h rfl translates loaded
    exact ran.mono fun state h => ⟨d', h, done⟩
  · rintro state ⟨d, h, done⟩
    refine (attains_leave (v := after d []) fits h (done.leaving held)).mono ?_
    rintro state ⟨d', host, h, left⟩
    refine ⟨d', host, ?_, left.transfers, left.blank, left.held_next⟩
    rw [none]
    exact h

/-! ## Counting -/

/-- The address tables of a region. -/
def tables (r : Round) : Nat := if r.tabled then 1 else 0

/-- Entering a region allocates a block for each section, and does nothing else but sending. -/
structure Enters (r : Round) (t t' : TransferStats) : Prop where
  retrievals : t'.retrievals = t.retrievals
  retrievedBytes : t'.retrievedBytes = t.retrievedBytes
  allocations : t'.allocations = t.allocations + 2 * r.count
  deallocations : t'.deallocations = t.deallocations
  launches : t'.launches = t.launches
  submittedBytes : t'.submittedBytes =
    t.submittedBytes + r.count * (r.workload.pairBytes + if r.direct then Word.bytes else 0)

theorem enters_entering (t : TransferStats) : r.Enters t (r.entering t) := by
  unfold entering
  cases r.settings.strategy with
  | immediate => exact ⟨rfl, rfl, by rw [Nat.mul_comm]; rfl, rfl, rfl, rfl⟩
  | bulk =>
      by_cases none : r.count = 0
      · have same : r.batching t = { t with allocations := t.allocations + 2 * r.count } := by
          rw [batching, if_pos none]
        rw [same]
        exact ⟨rfl, rfl, rfl, rfl, rfl, by rw [none, Nat.zero_mul]; rfl⟩
      · cases direct : r.direct with
        | true =>
            have both : r.batching t = (TransferStats.recordBatch
                { t with allocations := t.allocations + 2 * r.count } (2 * r.count)
                (r.count * r.workload.pairBytes)).recordBatch r.count (r.count * Word.bytes) := by
              rw [batching, if_neg none, direct, if_pos rfl]
            rw [both]
            refine ⟨rfl, rfl, rfl, rfl, rfl, ?_⟩
            rw [direct, if_pos rfl, Nat.mul_add, ← Nat.add_assoc]
            rfl
        | false =>
            have one : r.batching t = TransferStats.recordBatch
                { t with allocations := t.allocations + 2 * r.count } (2 * r.count)
                (r.count * r.workload.pairBytes) := by
              rw [batching, if_neg none, direct, if_neg Bool.false_ne_true]
            rw [one]
            exact ⟨rfl, rfl, rfl, rfl, rfl, by rw [direct]; rfl⟩

/-- How bytes and patches were sent: each at once, or all in batches. -/
theorem submissions_entering (immediate : r.settings.strategy = .immediate) (t : TransferStats) :
    (r.entering t).submissions = t.submissions + r.count * if r.direct then 3 else 2 := by
  rw [entering, immediate]
  rfl

theorem batches_entering (bulk : r.settings.strategy = .bulk) (direct : r.direct = true)
    (some : 0 < r.count) (t : TransferStats) :
    (r.entering t).batches = t.batches + 2 ∧
      (r.entering t).batchedChunks = t.batchedChunks + 2 * r.count + r.count := by
  rw [entering, bulk]
  dsimp only
  rw [batching, if_neg (Nat.ne_of_gt some), direct, if_pos rfl]
  exact ⟨rfl, rfl⟩

/-- Without a table the kernel adds to the cost of sending and releasing nothing but its launch. -/
theorem cost_untabled (untabled : r.tabled = false) (t : TransferStats) :
    r.cost t = r.leaving 0 (r.entering t).recordLaunch := by
  have off : ¬ r.tabled = true := Bool.eq_false_iff.1 untabled
  rw [cost, launching, if_neg off, staging, if_neg off]

theorem cost_tabled (tabled : r.tabled = true) (t : TransferStats) : r.cost t =
    r.leaving 0 ((r.entering t).recordAllocation.recordSubmission
      r.tableBytes).recordLaunch.recordDeallocation := by
  rw [cost, launching, if_pos tabled, staging, if_pos tabled]

/-- From one count of transfers to the next a region was run. -/
structure Costs (r : Round) (t t' : TransferStats) : Prop where
  launches : t'.launches = t.launches + 1
  allocations : t'.allocations = t.allocations + (2 * r.count + r.tables)
  deallocations : t'.deallocations = t.deallocations + (2 * r.count + r.tables)
  retrievals : t'.retrievals = t.retrievals + 2 * r.count
  retrievedBytes : t'.retrievedBytes = t.retrievedBytes + r.count * r.workload.pairBytes
  submittedBytes : r.tabled = false →
    t'.submittedBytes = t.submittedBytes + r.count * (r.workload.pairBytes + Word.bytes)
  submissions : r.tabled = false → r.settings.strategy = .immediate →
    t'.submissions = t.submissions + 3 * r.count
  batches : r.tabled = false → r.settings.strategy = .bulk → 0 < r.count → t'.batches = t.batches + 2
  batchedChunks : r.tabled = false → r.settings.strategy = .bulk → 0 < r.count →
    t'.batchedChunks = t.batchedChunks + 3 * r.count

theorem costs_cost (fits : r.Fits) (t : TransferStats) : r.Costs t (r.cost t) := by
  obtain ⟨retrievals, retrievedBytes, allocations, deallocations, launches, submittedBytes⟩ :=
    r.enters_entering t
  cases tabled : r.tabled with
  | true =>
      have one : r.tables = 1 := if_pos tabled
      have off : ¬ r.tabled = false := by rw [tabled]; decide
      rw [cost_tabled tabled]
      refine ⟨congrArg (· + 1) launches, ?_, ?_, ?_, ?_, fun on => absurd on off, fun on => absurd on off,
        fun on => absurd on off, fun on => absurd on off⟩
      · change (r.entering t).allocations + 1 = _
        omega
      · change (r.entering t).deallocations + 1 + (r.count - 0) * 2 = _
        omega
      · change (r.entering t).retrievals + (r.count - 0) * 2 = _
        omega
      · change (r.entering t).retrievedBytes + (r.count - 0) * r.workload.pairBytes = _
        rw [retrievedBytes, Nat.sub_zero]
  | false =>
      have none : r.tables = 0 := if_neg (Bool.eq_false_iff.1 tabled)
      have direct : r.direct = true := by rw [fits.direct_eq, tabled]; rfl
      rw [cost_untabled tabled]
      refine ⟨congrArg (· + 1) launches, ?_, ?_, ?_, ?_, fun _ => ?_, fun _ immediate => ?_,
        fun _ bulk some => ?_, fun _ bulk some => ?_⟩
      · change (r.entering t).allocations = _
        omega
      · change (r.entering t).deallocations + (r.count - 0) * 2 = _
        omega
      · change (r.entering t).retrievals + (r.count - 0) * 2 = _
        omega
      · change (r.entering t).retrievedBytes + (r.count - 0) * r.workload.pairBytes = _
        rw [retrievedBytes, Nat.sub_zero]
      · rw [direct, if_pos rfl] at submittedBytes
        exact submittedBytes
      · have sent := submissions_entering immediate t
        rw [direct, if_pos rfl, Nat.mul_comm] at sent
        exact sent
      · exact (batches_entering bulk direct some t).1
      · have chunks := (batches_entering bulk direct some t).2
        change (r.entering t).batchedChunks = _
        omega

/-- What the regions before a round have cost. -/
structure Spent (r : Round) (t : TransferStats) : Prop where
  launches : t.launches = r.before
  allocations : t.allocations = r.before * (2 * r.count + r.tables)
  deallocations : t.deallocations = r.before * (2 * r.count + r.tables)
  retrievals : t.retrievals = r.before * (2 * r.count)
  retrievedBytes : t.retrievedBytes = r.before * (r.count * r.workload.pairBytes)
  submittedBytes : r.tabled = false →
    t.submittedBytes = r.before * (r.count * (r.workload.pairBytes + Word.bytes))
  submissions : r.tabled = false → r.settings.strategy = .immediate →
    t.submissions = r.before * (3 * r.count)
  batches : r.tabled = false → r.settings.strategy = .bulk → 0 < r.count → t.batches = r.before * 2
  batchedChunks : r.tabled = false → r.settings.strategy = .bulk → 0 < r.count →
    t.batchedChunks = r.before * (3 * r.count)

theorem Spent.next {t' : TransferStats} (spent : r.Spent t) (costs : r.Costs t t') : r.next.Spent t' := by
  have once : ∀ {x y c : Nat}, x = r.before * c → y = x + c → y = (r.before + 1) * c := by
    rintro x y c rfl rfl
    exact (Nat.succ_mul _ _).symm
  exact {
    launches := costs.launches.trans (congrArg (· + 1) spent.launches)
    allocations := once spent.allocations costs.allocations
    deallocations := once spent.deallocations costs.deallocations
    retrievals := once spent.retrievals costs.retrievals
    retrievedBytes := once spent.retrievedBytes costs.retrievedBytes
    submittedBytes := fun off => once (spent.submittedBytes off) (costs.submittedBytes off)
    submissions := fun off on => once (spent.submissions off on) (costs.submissions off on)
    batches := fun off on some => once (spent.batches off on some) (costs.batches off on some)
    batchedChunks := fun off on some =>
      once (spent.batchedChunks off on some) (costs.batchedChunks off on some) }

end Round

end Offloading.Workload
