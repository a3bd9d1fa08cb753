import Offloading.Proofs.WorkloadKernel
/-!
# Launching the kernel of a workload

The kernel gets the device copies of the structs, and behind them the address table where there is one. The
table has a block of its own, which is freed when the kernel has run.
-/

namespace Offloading

namespace Region.Staged

variable {staged : Staged}

/-- Nothing is added to the staged arguments. -/
def Unmoved (staged : Staged) : Prop := staged.offsets = List.replicate staged.arguments.length 0

theorem Unmoved.push (h : staged.Unmoved) (argument : Nat) : (staged.push argument 0).Unmoved := by
  unfold Unmoved at h ⊢
  rw [Staged.push, h, List.length_append, List.length_singleton, List.replicate_succ']

theorem Unmoved.lengths (h : staged.Unmoved) : staged.arguments.length = staged.offsets.length := by
  rw [h, List.length_replicate]

/-- So the kernel gets them as they are, as words. -/
theorem Unmoved.displaced (h : staged.Unmoved) :
    List.zipWith Word.displace staged.arguments staged.offsets =
      staged.arguments.map (· % Word.modulus) := by
  have each : ∀ values : List Nat, List.zipWith Word.displace values (List.replicate values.length 0) =
      values.map (· % Word.modulus) := by
    intro values
    induction values with
    | nil => rfl
    | cons value rest ih =>
        rw [List.length_cons, List.replicate_succ, List.zipWith_cons_cons, ih, Word.displace_zero,
          List.map_cons]
  rw [h, each]

theorem Unmoved.withTable (h : staged.Unmoved) (table : UploadedTable) (mask? : Option Nat) :
    (staged.withTable table mask?).Unmoved := by
  have pushed := (h.push table.target).push table.segments
  cases mask? with
  | none => exact pushed
  | some mask => exact pushed.push mask

/-- The address of the table is the first argument behind the others. -/
theorem arguments_withTable (table : UploadedTable) (mask? : Option Nat) :
    ∃ rest, (staged.withTable table mask?).arguments = staged.arguments ++ table.target :: rest := by
  cases mask? with
  | none => exact ⟨[table.segments], List.append_assoc _ _ _⟩
  | some mask =>
      refine ⟨[table.segments, mask], ?_⟩
      rw [withTable]
      simp [push]

end Region.Staged

namespace Workload.Round

open RegionM

variable {r : Round} {n : Nat} {kernels : List Kernel} {v : RegionView} {state : RegionState}
  {t : TransferStats} {d : DeviceView} {m : DeviceMemory}

/-! ## Passing the structs -/

/-- What is staged for the first `n` structs. -/
def stagedOf (r : Round) : Nat → Region.Staged
  | 0 => {}
  | n + 1 => ((r.stagedOf n).pass (r.stack.target (2 * n)) 0).skip

theorem arguments_stagedOf (n : Nat) :
    (r.stagedOf n).arguments = (List.range n).map fun s => r.stack.target (2 * s) := by
  induction n with
  | zero => rfl
  | succ n ih =>
      rw [List.range_succ, List.map_append, ← ih]
      rfl

theorem unmoved_stagedOf (n : Nat) : (r.stagedOf n).Unmoved := by
  induction n with
  | zero => rfl
  | succ n ih => exact ih.push (r.stack.target (2 * n))

theorem kind_struct {b : Buffers} {s : Nat} : (structArgument b s).kind = .plain := by
  simp [Argument.kind, MapType.isLambdaCapture, structArgument, MapType.has_ofFlags]

theorem baseOffset_struct (fits : r.Fits) {s : Nat} (hs : s < r.count) :
    (structArgument r.buffers s).baseOffset = 0 := by
  have last := Nat.le_trans (Buffers.structAddr_le (b := r.buffers) hs) fits.suitable.structs
  have word : Word.greatest < Word.modulus := by decide
  change Word.toInt (Word.sub (r.buffers.structAddr s) (r.buffers.structAddr s)) = 0
  rw [sub_self (by omega)]
  rfl

theorem kind_array {w : Workload} {b : Buffers} {s : Nat} :
    (w.arrayArgument b s).kind = .pointerAndObject := by
  simp [Argument.kind, MapType.isLambdaCapture, arrayArgument, MapType.has_withMemberOf, MapType.has_ofFlags]

theorem targetParam_struct {b : Buffers} {s : Nat} :
    (structArgument b s).mapType.has .targetParam = true := by
  simp [structArgument, MapType.has_ofFlags]

theorem targetParam_array {w : Workload} {b : Buffers} {s : Nat} :
    (w.arrayArgument b s).mapType.has .targetParam = false := by
  simp [arrayArgument, MapType.has_withMemberOf, MapType.has_ofFlags]

theorem translate_struct (fits : r.Fits) (listed : r.stack.Listed (2 * r.count) d.mappings) {s : Nat}
    (hs : s < r.count) :
    d.translate? (r.buffers.structAddr s) structBytes = some (r.stack.target (2 * s)) := by
  have below : 2 * s < 2 * r.count := by omega
  have part : r.stack.part (2 * s) = ⟨r.buffers.structAddr s, structBytes⟩ := part_struct
  have whole := listed.lookup fits.separate below (Nat.le_refl _) (fits.separate.first_lt below)
    (Nat.le_refl ((r.stack.part (2 * s)).first + (r.stack.part (2 * s)).size))
  rw [part] at whole
  rw [DeviceView.translate?, whole.1]
  exact congrArg some (translate_slot fits hs)

/-- Of each struct and its array the struct is passed. -/
theorem attains_stageArguments (fits : r.Fits) (h : state.Shows kernels r.args v)
    (listed : r.stack.Listed (2 * r.count) v.device.mappings) {n : Nat} (le : n ≤ r.count) :
    Attains (Region.stageArguments {} 0 (r.workload.argumentsOf r.buffers n)) state (r.stagedOf n)
      (RegionState.Shows kernels r.args v) := by
  induction n with
  | zero => exact Attains.pure h
  | succ n ih =>
      rw [argumentsOf_succ]
      refine Region.attains_stageArguments_append (ih (by omega)) fun state h => ?_
      refine (Region.attains_stageArgument_pass h targetParam_struct kind_struct
        (translate_struct fits listed (by omega))).bind fun state h => ?_
      rw [baseOffset_struct fits (by omega)]
      refine (Region.attains_stageArgument_skip h targetParam_array kind_array).bind fun state h => ?_
      exact Attains.pure h

/-! ## The address table -/

/-- Sections in the address table that the kernel gets. -/
def tableEntries (r : Round) : Nat := if r.tabled then 2 * r.count else 0

/-- Blocks that live until the kernel has run. -/
def scratch (r : Round) : List Nat := if r.tabled then [r.tableAddr] else []

/-- What the address table has cost. -/
def staging (r : Round) (t : TransferStats) : TransferStats :=
  if r.tabled then t.recordAllocation.recordSubmission r.tableBytes else t

/-- All is on the device that the kernel needs, which has been at the first `k` structs. -/
structure Loaded (r : Round) (table : AddressTable) (k : Nat) (t : TransferStats) (d : DeviceView) : Prop where
  listed : r.stack.Listed (2 * r.count) d.mappings
  running : r.Running table r.top (r.count * r.workload.pairBytes + r.tableBytes) k d.memory
  patched : r.Patched r.count d.shadows
  transfers : d.transfers = t

/-- The kernel gets what it has to get. -/
structure Planned (r : Round) (plan : Region.LaunchPlan) : Prop where
  lengths : plan.arguments.length = plan.offsets.length
  passed : r.Passed (List.zipWith Word.displace plan.arguments plan.offsets)
  tableEntries : plan.tableEntries = r.tableEntries

theorem tableBytes_eq (tabled : r.tabled = true) :
    r.tableBytes = (2 * r.count + 1) * AddressTable.recordBytes :=
  if_pos tabled

theorem top_eq (tabled : r.tabled = true) : r.top = r.tableAddr + DeviceMemory.stride r.tableBytes := by
  have wanted : r.settings.config.addressTable = true := tabled
  rw [top, if_pos wanted, tableAddr]

theorem Fits.tableAddr_lt (fits : r.Fits) (tabled : r.tabled = true) : r.tableAddr < Word.modulus := by
  have space := fits.addressable
  have room := DeviceMemory.lt_stride r.tableBytes
  rw [top_eq tabled] at space
  omega

/-- The table has a section for each struct and each array. -/
theorem Entered.size_table (fits : r.Fits) (entered : r.Entered t d) :
    (AddressTable.ofMappings d.mappings.toList).size = 2 * r.count := by
  have count := entered.listed.length_toList fits.separate
  rw [AddressTable.size, AddressTable.ofMappings, List.size_toArray, List.length_mergeSort, List.length_map,
    count]

theorem Entered.translates (fits : r.Fits) (entered : r.Entered t d) :
    r.Translates (AddressTable.ofMappings d.mappings.toList) where
  size := entered.size_table fits
  translate s hs := by
    have found := entered.listed.translate_first fits.separate (show 2 * s + 1 < 2 * r.count by omega)
    have part : r.stack.part (2 * s + 1) = ⟨r.buffers.elements s, r.workload.arrayBytes⟩ := part_array
    rwa [part] at found

/-- The structs come first, then the table where there is one. -/
theorem Fits.passed (fits : r.Fits) {rest : List Nat}
    (table : r.tabled = true → rest.head? = some r.tableAddr) :
    r.Passed (((r.stagedOf r.count).arguments ++ rest).map (· % Word.modulus)) where
  struct s hs := by
    have inside : (List.range r.count)[s]? = some s := List.getElem?_range hs
    rw [arguments_stagedOf, List.getElem?_map, List.getElem?_append_left (by simpa using hs),
      List.getElem?_map, inside]
    exact congrArg some (Nat.mod_eq_of_lt (fits.target_lt_modulus (by omega)))
  table tabled := by
    have length : (r.stagedOf r.count).arguments.length = r.count := by
      rw [arguments_stagedOf, List.length_map, List.length_range]
    rw [List.getElem?_map, List.getElem?_append_right (Nat.le_of_eq length), length, Nat.sub_self,
      ← List.head?_eq_getElem?, table tabled]
    exact congrArg some (Nat.mod_eq_of_lt (fits.tableAddr_lt tabled))

/-- Before the kernel runs no array was in it. -/
theorem runningText_zero : ∀ j < 2 * r.count, r.runningText 0 j = r.deviceText j :=
  text_congr (fun _ _ => rfl) fun _ _ => if_neg (Nat.not_lt_zero _)

/-- The table is stored behind all other blocks. -/
theorem Entered.store_table (tabled : r.tabled = true) (fits : r.Fits) (entered : r.Entered t d)
    {table : AddressTable} (size : table.size = 2 * r.count) :
    ∃ m m', d.memory.allocate table.encode.length = (some r.tableAddr, m) ∧
      m.write r.tableAddr table.encode = .ok m' ∧
      r.Running table r.top (r.count * r.workload.pairBytes + r.tableBytes) 0 m' := by
  have length : table.encode.length = r.tableBytes := by
    rw [AddressTable.length_encode, size, tableBytes_eq tabled]
  have positive : 0 < r.tableBytes := by
    rw [tableBytes_eq tabled]
    exact Nat.mul_pos (Nat.succ_pos _) (by decide)
  obtain ⟨m, placed, stored, block⟩ := entered.stored.allocate positive fits.room
  have other : ∀ j < 2 * r.count, r.stack.target j ≠ r.tableAddr :=
    fun j hj => SectionStack.target_ne (Nat.ne_of_lt hj)
  obtain ⟨m', written, stored', block'⟩ := stored.write_other block other
    (List.ne_nil_of_length_pos (length ▸ positive)) (by rw [length, List.length_replicate])
  have whole : (List.replicate r.tableBytes (0 : UInt8)).drop table.encode.length = [] := by
    rw [length]
    exact List.drop_eq_nil_of_le (Nat.le_of_eq List.length_replicate)
  rw [whole, List.append_nil] at block'
  rw [← tableAddr, ← top_eq tabled] at stored'
  exact ⟨m, m', length ▸ placed, written, stored'.congr runningText_zero, fun _ => block'⟩

theorem Fits.planned (fits : r.Fits) {staged : Region.Staged} {rest : List Nat} (unmoved : staged.Unmoved)
    (arguments : staged.arguments = (r.stagedOf r.count).arguments ++ rest)
    (table : r.tabled = true → rest.head? = some r.tableAddr) :
    r.Planned ⟨staged.arguments, staged.offsets, r.tableEntries⟩ where
  lengths := unmoved.lengths
  passed := by
    rw [unmoved.displaced, arguments]
    exact fits.passed table
  tableEntries := rfl

/-- The kernel gets the table behind the structs. -/
theorem attains_stage_tabled (tabled : r.tabled = true) (fits : r.Fits) (h : state.Shows kernels r.args v)
    (none : v.scratch = []) (entered : r.Entered t v.device) :
    ∃ plan d, r.Planned plan ∧
      r.Loaded (AddressTable.ofMappings v.device.mappings.toList) 0 (r.staging (r.entering t)) d ∧
      Attains (Region.stage r.settings) state plan
        (RegionState.Shows kernels r.args { v with device := d, scratch := r.scratch }) := by
  let table := AddressTable.ofMappings v.device.mappings.toList
  have size : table.size = 2 * r.count := entered.size_table fits
  have length : table.encode.length = r.tableBytes := by
    rw [AddressTable.length_encode, size, tableBytes_eq tabled]
  obtain ⟨m, m', placed, written, running⟩ := entered.store_table tabled fits size
  let d : DeviceView := { v.device with
    memory := m'
    transfers := v.device.transfers.recordAllocation.recordSubmission table.encode.length }
  have arranged : ∀ state : RegionState,
      state.Shows kernels r.args { v with device := d, scratch := v.scratch ++ [r.tableAddr] } →
      Attains (Region.stageArguments {} 0 r.args.arguments) state (r.stagedOf r.count)
        (RegionState.Shows kernels r.args { v with device := d, scratch := v.scratch ++ [r.tableAddr] }) :=
    fun state h => attains_stageArguments fits h entered.listed (Nat.le_refl _)
  have ran := Region.attains_stage_table h tabled fits.noList rfl placed written rfl arranged
  obtain ⟨rest, arguments⟩ := (r.stagedOf r.count).arguments_withTable ⟨r.tableAddr, table.size⟩
    r.settings.config.addressMask
  have planned := fits.planned ((unmoved_stagedOf r.count).withTable ⟨r.tableAddr, table.size⟩ _) arguments
    fun _ => rfl
  have sections : r.tableEntries = table.size := (if_pos tabled).trans size.symm
  have scratch : r.scratch = v.scratch ++ [r.tableAddr] := by rw [Round.scratch, if_pos tabled, none]; rfl
  rw [sections] at planned
  refine ⟨_, d, planned, ⟨entered.listed, running, entered.patched, ?_⟩, scratch ▸ ran⟩
  rw [staging, if_pos tabled, ← entered.transfers, ← length]

/-- Without a table it gets the structs alone. -/
theorem attains_stage_untabled (untabled : r.tabled = false) (fits : r.Fits)
    (h : state.Shows kernels r.args v) (none : v.scratch = []) (entered : r.Entered t v.device)
    (table : AddressTable) :
    ∃ plan d, r.Planned plan ∧ r.Loaded table 0 (r.staging (r.entering t)) d ∧
      Attains (Region.stage r.settings) state plan
        (RegionState.Shows kernels r.args { v with device := d, scratch := r.scratch }) := by
  have off : ¬ r.tabled = true := Bool.eq_false_iff.1 untabled
  have unwanted : ¬ r.settings.config.addressTable = true := off
  have bytes : r.tableBytes = 0 := if_neg unwanted
  have top : r.top = r.stack.target (2 * r.count) := by rw [Round.top, if_neg unwanted, Nat.add_zero]
  have arranged : ∀ state : RegionState, state.Shows kernels r.args v →
      Attains (Region.stageArguments {} 0 r.args.arguments) state (r.stagedOf r.count)
        (RegionState.Shows kernels r.args v) :=
    fun state h => attains_stageArguments fits h entered.listed (Nat.le_refl _)
  have ran := Region.attains_stage_plain h (fits.translatesOnDevice.trans untabled) arranged
  have planned := fits.planned (unmoved_stagedOf r.count) (List.append_nil _).symm fun on => absurd on off
  have sections : r.tableEntries = 0 := if_neg off
  have scratch : r.scratch = v.scratch := by rw [Round.scratch, if_neg off, none]
  rw [sections] at planned
  refine ⟨_, v.device, planned, ⟨entered.listed, ⟨?_, fun on => absurd on off⟩, entered.patched, ?_⟩,
    scratch ▸ ran⟩
  · rw [bytes, top]
    exact entered.stored.congr runningText_zero
  · rw [staging, if_neg off, entered.transfers]

theorem attains_stage (fits : r.Fits) (h : state.Shows kernels r.args v) (none : v.scratch = [])
    (entered : r.Entered t v.device) :
    ∃ plan table d, r.Planned plan ∧ r.Translates table ∧ r.Loaded table 0 (r.staging (r.entering t)) d ∧
      Attains (Region.stage r.settings) state plan
        (RegionState.Shows kernels r.args { v with device := d, scratch := r.scratch }) := by
  have translates := entered.translates fits
  cases tabled : r.tabled with
  | true =>
      obtain ⟨plan, d, planned, loaded, ran⟩ := attains_stage_tabled tabled fits h none entered
      exact ⟨plan, _, d, planned, translates, loaded, ran⟩
  | false =>
      obtain ⟨plan, d, planned, loaded, ran⟩ := attains_stage_untabled tabled fits h none entered _
      exact ⟨plan, _, d, planned, translates, loaded, ran⟩

/-! ## Running the kernel -/

/-- The kernels of the device, of which there is one. -/
def registered (r : Round) : List Kernel := [r.workload.kernel r.tabled]

/-- Each array is in the region once. -/
theorem attains_stageAndLaunch (fits : r.Fits) (h : state.Shows r.registered r.args v) (none : v.scratch = [])
    (entered : r.Entered t v.device) :
    ∃ table d, r.Translates table ∧ r.Loaded table r.count (r.staging (r.entering t)).recordLaunch d ∧
      Attains (Region.stageAndLaunch r.settings Accelerator.kernelBase .single) state ()
        (RegionState.Shows r.registered r.args
          { v with
            device := d
            scratch := r.scratch
            launched := v.launched + 1
            tableEntries := v.tableEntries + r.tableEntries }) := by
  obtain ⟨plan, table, d, planned, translates, loaded, staged⟩ := attains_stage fits h none entered
  let context : KernelContext := ⟨List.zipWith Word.displace plan.arguments plan.offsets, 1, 1, 0⟩
  have passed : r.Passed context.arguments := planned.passed
  obtain ⟨m, ran, running⟩ := run_kernel fits translates passed loaded.running
  have found : r.registered[Accelerator.kernelBase - Accelerator.kernelBase]? =
      some (r.workload.kernel r.tabled) := by
    rw [Nat.sub_self]
    rfl
  have launched := Region.attains_stageAndLaunch staged fun l shows =>
    Device.attains_launch shows planned.lengths found (Nat.le_refl _) rfl ran
  rw [planned.tableEntries] at launched
  let d' : DeviceView := { d with memory := m, transfers := d.transfers.recordLaunch }
  have after : r.Loaded table r.count (r.staging (r.entering t)).recordLaunch d' :=
    ⟨loaded.listed, running, loaded.patched, congrArg TransferStats.recordLaunch loaded.transfers⟩
  exact ⟨table, d', translates, after, launched⟩

/-! ## Freeing the table -/

/-- What the region has cost before it is left. -/
def launching (r : Round) (t : TransferStats) : TransferStats :=
  let t := (r.staging (r.entering t)).recordLaunch
  if r.tabled then t.recordDeallocation else t

/-- The kernel has run, and nothing is left on the device but the structs and their arrays. -/
structure Done (r : Round) (t : TransferStats) (d : DeviceView) : Prop where
  listed : r.stack.Listed (2 * r.count) d.mappings
  stored : r.stack.Stored (2 * r.count) r.finalText r.top (r.count * r.workload.pairBytes) d.memory
  patched : r.Patched r.count d.shadows
  transfers : d.transfers = r.launching t

theorem finalText_eq : ∀ j < 2 * r.count, r.finalText j = r.runningText r.count j :=
  text_congr (fun _ _ => rfl) fun _ hs => (if_pos hs).symm

theorem attains_freeScratch {table : AddressTable} (h : state.Shows kernels r.args v)
    (scratch : v.scratch = r.scratch) (translates : r.Translates table)
    (loaded : r.Loaded table r.count (r.staging (r.entering t)).recordLaunch v.device) :
    ∃ d, r.Done t d ∧ Attains Region.freeScratch state none
      (RegionState.Shows kernels r.args { v with device := d, scratch := [] }) := by
  have stored := loaded.running.stored.congr finalText_eq
  cases tabled : r.tabled with
  | true =>
      have length : table.encode.length = r.tableBytes := by
        rw [AddressTable.length_encode, translates.size, tableBytes_eq tabled]
      rw [Round.scratch, if_pos tabled] at scratch
      rw [← length] at stored
      obtain ⟨m, freed, stored'⟩ := stored.free (loaded.running.table tabled)
        fun j hj => SectionStack.target_ne (Nat.ne_of_lt hj)
      let d : DeviceView := { v.device with
        memory := m
        transfers := v.device.transfers.recordDeallocation }
      refine ⟨d, ⟨loaded.listed, stored', loaded.patched, ?_⟩,
        Region.attains_freeScratch_single h scratch freed⟩
      rw [launching, if_pos tabled, ← loaded.transfers]
  | false =>
      have off : ¬ r.tabled = true := Bool.eq_false_iff.1 tabled
      have bytes : r.tableBytes = 0 := if_neg off
      rw [Round.scratch, if_neg off] at scratch
      rw [bytes, Nat.add_zero] at stored
      refine ⟨v.device, ⟨loaded.listed, stored, loaded.patched, ?_⟩, ?_⟩
      · rw [launching, if_neg off, loaded.transfers]
      · rw [← scratch]
        exact Region.attains_freeScratch_nil h scratch

end Workload.Round

end Offloading
