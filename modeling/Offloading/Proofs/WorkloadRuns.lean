import Mathlib
import Offloading.Proofs.Calls
import Offloading.Proofs.Loading
import Offloading.Proofs.WorkloadRegions
/-!
# Running a workload

The first region prepares the device and loads the library of the kernel; every other one finds the platform
as the one before it has left it. After any number of regions the host has what it has to have, nothing is
mapped, and the counts are known.
-/

namespace Offloading

namespace Platform

open CallM

variable {α : Type} {pl : Platform} {s : CallState} {dev : Nat} {l : Link} {a : α}

theorem attains_onDevice {x : DeviceM α} {P : Link → Prop} {Q : Platform → Prop} (hl : pl.link? dev = some l)
    (hx : Attains x l a P) (hPQ : ∀ l', P l' → Q (pl.setLink dev l')) : Attains (onDevice dev x) pl a Q := by
  obtain ⟨l', ran, holds⟩ := hx
  exact ⟨_, returns_onDevice.2 ⟨l, l', hl, ran, rfl⟩, hPQ l' holds⟩

theorem attains_link_bind {β : Type} {b : β} {f : Link → PlatformM β} {P : Platform → Prop}
    (hl : pl.link? dev = some l) (hf : Attains (f l) pl b P) : Attains (link dev >>= f) pl b P := by
  obtain ⟨pl', ran, holds⟩ := hf
  exact ⟨pl', returns_link_bind.2 ⟨l, hl, ran⟩, holds⟩

end Platform

namespace CallM

variable {α β : Type} {s : CallState} {dev : Nat} {l : Link} {a : α} {b : β} {P : CallState → Prop}

theorem attains_onPlatform {x : PlatformM α} {Q : Platform → Prop} (hx : Attains x s.platform a Q)
    (hPQ : ∀ pl, Q pl → P { s with platform := pl }) : Attains (onPlatform x) s a P :=
  lifts_onPlatform.attains hx hPQ

theorem attains_link_bind {f : Link → CallM β} (hl : s.platform.link? dev = some l)
    (hf : Attains (f l) s b P) : Attains (onPlatform (Platform.link dev) >>= f) s b P := by
  obtain ⟨s', ran, holds⟩ := hf
  exact ⟨s', returns_bind.2 ⟨l, s, exec_link hl, ran⟩, holds⟩

theorem attains_inRegion {x : Settings → RegionM α} {Q : RegionState → Prop}
    (hl : s.platform.link? dev = some l) (hx : Attains (x s.platform.settings) (s.region l) a Q)
    (hPQ : ∀ r, Q r → P (s.resume dev r)) : Attains (inRegion dev x) s a P := by
  obtain ⟨r, ran, holds⟩ := hx
  exact ⟨_, returns_inRegion.2 ⟨l, r, hl, ran, rfl⟩, hPQ r holds⟩

end CallM

namespace Workload

variable {w : Workload} {b : Buffers} {settings : Settings} {pl : Platform}

/-! ## The library -/

/-- The library when it is loaded on the device. -/
def loadedLibrary : Library where
  id := 0
  table :=
    { hostSymbols := [⟨"increment", kernelAddr, 0⟩]
      images := [some [⟨"increment", 0, 0⟩]]
      targets := [some [⟨"increment", Accelerator.kernelBase, 0⟩]] }
  constructors := []

/-- The only library is loaded, and what is cached is its kernel. -/
structure Equipped (pl : Platform) : Prop where
  libraries : pl.libraries = [loadedLibrary]
  cached : ∀ slot, pl.entryCache.lookup kernelAddr = some slot → slot = ⟨0, 0⟩

theorem Equipped.setLink (h : Equipped pl) (dev : Nat) (l : Link) : Equipped (pl.setLink dev l) := by
  have same : (pl.setLink dev l).entries = pl.entries := Platform.entries_setLink
  simp only [Platform.entries, Prod.mk.injEq] at same
  obtain ⟨libraries, cache, -⟩ := same
  exact ⟨libraries.trans h.libraries, cache ▸ h.cached⟩

theorem Equipped.attains_entrySlot (h : Equipped pl) :
    Attains (Platform.entrySlot kernelAddr) pl ⟨0, 0⟩ fun pl' =>
      Equipped pl' ∧ ∃ cache, pl' = { pl with entryCache := cache } := by
  unfold Platform.entrySlot
  refine Attains.bind_get ?_
  cases cached : pl.entryCache.lookup kernelAddr with
  | some slot =>
      obtain rfl := h.cached slot cached
      exact Attains.pure ⟨h, pl.entryCache, rfl⟩
  | none =>
      have found : Platform.findEntry? kernelAddr pl.libraries = some ⟨0, 0⟩ := by
        rw [h.libraries]
        rfl
      rw [found]
      refine ⟨_, rfl, ⟨h.libraries, fun slot found => ?_⟩, _, rfl⟩
      rw [List.lookup_cons_self] at found
      exact (Option.some.inj found).symm

/-- The kernel is found, whether it is cached or not. -/
theorem Equipped.attains_resolveEntry (h : Equipped pl) :
    Attains (Platform.resolveEntry 0 kernelAddr) pl Accelerator.kernelBase fun pl' =>
      Equipped pl' ∧ ∃ cache, pl' = { pl with entryCache := cache } := by
  refine h.attains_entrySlot.bind fun pl' ⟨equipped, cache⟩ => Attains.bind_get ?_
  rw [equipped.libraries]
  exact Attains.pure ⟨equipped, cache⟩

/-! ## Between regions -/

namespace Round

variable {r : Round} {s : CallState}

/-- What can be seen of the platform between regions: the host has what it has to have, nothing is mapped,
and the counts are those of the regions so far. -/
structure Calm (r : Round) (pl : Platform) : Prop where
  settings : pl.settings = r.settings
  listed : pl.listed = 1
  held : r.stack.Held (2 * r.count) r.hostText pl.host
  launched : pl.metrics.kernelsLaunched = r.before
  tableEntries : pl.metrics.tableEntries = r.before * r.tableEntries
  link : ∃ l, pl.link? 0 = some l ∧ l.device.mappings.entries = ∅ ∧ r.Spent l.device.transfers

/-- The platform is ready for the next region. -/
structure Idle (r : Round) (pl : Platform) : Prop where
  settings : pl.settings = r.settings
  listed : pl.listed = 1
  equipped : Equipped pl
  held : r.stack.Held (2 * r.count) r.hostText pl.host
  launched : pl.metrics.kernelsLaunched = r.before
  tableEntries : pl.metrics.tableEntries = r.before * r.tableEntries
  link : ∃ l d, pl.link? 0 = some l ∧ l.Shows r.registered d ∧ r.Blank d ∧ r.Spent d.transfers

theorem Idle.calm (idle : r.Idle pl) : r.Calm pl where
  settings := idle.settings
  listed := idle.listed
  held := idle.held
  launched := idle.launched
  tableEntries := idle.tableEntries
  link := by
    obtain ⟨l, d, hl, shows, blank, spent⟩ := idle.link
    exact ⟨l, hl, shows.mappings ▸ blank.listed.entries_eq, shows.transfers ▸ spent⟩

theorem attains_deviceIndex (default : pl.settings.config.defaultDevice = 0) (listed : pl.listed = 1) :
    Attains (Platform.deviceIndex (-1)) pl 0 (pl = ·) := by
  unfold Platform.deviceIndex
  refine Attains.bind_get ?_
  rw [default, listed]
  exact Attains.pure rfl

/-- A device that is ready stays as it is. -/
theorem Idle.attains_ready (idle : r.Idle pl) (default : r.settings.config.defaultDevice = 0) :
    Attains (Platform.ready (-1)) pl 0 r.Idle := by
  obtain ⟨l, d, hl, shows, blank, spent⟩ := idle.link
  have same : r.Idle (pl.setLink 0 l) :=
    { settings := Platform.settings_setLink.trans idle.settings
      listed := Platform.listed_setLink.trans idle.listed
      equipped := idle.equipped.setLink 0 l
      held := Platform.host_setLink.symm ▸ idle.held
      launched := (congrArg Metrics.kernelsLaunched Platform.metrics_setLink).trans idle.launched
      tableEntries := (congrArg Metrics.tableEntries Platform.metrics_setLink).trans idle.tableEntries
      link := ⟨l, d, Platform.link?_setLink hl, shows, blank, spent⟩ }
  have prepared : Attains Device.prepare l () (l = ·) := by
    refine ⟨l, ?_, rfl⟩
    rw [Device.prepare, DeviceM.returns_device_bind, shows.prepared]
    rfl
  refine (attains_deviceIndex (idle.settings ▸ default) idle.listed).bind ?_
  rintro _ rfl
  refine Attains.bind (a := ()) (P := r.Idle) ?_ fun _ idle => Attains.pure idle
  refine (Platform.attains_onDevice (Q := (· = pl.setLink 0 l)) hl prepared ?_).bind ?_
  · rintro _ rfl
    rfl
  rintro _ rfl
  refine Platform.attains_link_bind (Platform.link?_setLink hl) ?_
  rw [shows.pending, if_neg Bool.false_ne_true]
  exact Attains.pure same

theorem Idle.attains_record (idle : r.Idle pl) : Attains (Platform.record .target) pl () r.Idle := by
  refine Attains.modify ?_
  split
  · exact ⟨idle.settings, idle.listed, ⟨idle.equipped.libraries, idle.equipped.cached⟩, idle.held,
      idle.launched, idle.tableEntries, idle.link⟩
  · exact idle

/-- A region that was run leaves the platform ready for the next one. -/
theorem Idle.attains_region (idle : r.Idle s.platform) (fits : r.Fits) (args : s.arguments = r.args) :
    Attains (CallM.inRegion 0 fun settings => Region.run settings Accelerator.kernelBase .single) s () fun s' =>
      s'.arguments = r.args ∧ r.next.Idle s'.platform := by
  obtain ⟨l, d, hl, shows, blank, spent⟩ := idle.link
  let v : RegionView :=
    { device := d
      host := s.platform.host
      launched := s.platform.metrics.kernelsLaunched
      tableEntries := s.platform.metrics.tableEntries }
  have start : (s.region l).Shows r.registered r.args v := ⟨shows, rfl, rfl, args, rfl, rfl, rfl⟩
  have ran := attains_run fits start rfl rfl blank idle.held
  rw [← idle.settings] at ran
  refine CallM.attains_inRegion hl ran ?_
  rintro state ⟨d', host, h, transfers, blank', held⟩
  have spent' : r.next.Spent d'.transfers := transfers ▸ spent.next (costs_cost fits d.transfers)
  refine ⟨h.arguments, ?_, ?_, ⟨?_, ?_⟩, ?_, ?_, ?_, ⟨state.activation.link, d', ?_, h.link, blank', spent'⟩⟩
  · exact Platform.settings_setLink.trans idle.settings
  · exact Platform.listed_setLink.trans idle.listed
  · exact (idle.equipped.setLink 0 state.activation.link).libraries
  · exact (idle.equipped.setLink 0 state.activation.link).cached
  · change r.next.stack.Held _ _ state.host
    rw [h.host]
    exact held
  · exact h.launched.trans (congrArg (· + 1) idle.launched)
  · refine h.tableEntries.trans ((congrArg (· + r.tableEntries) idle.tableEntries).trans ?_)
    exact (Nat.succ_mul _ _).symm
  · exact Platform.link?_setLink hl

/-- So does a call, if the platform can be made ready for it. -/
theorem attains_target (fits : r.Fits) (ready : Attains (Platform.ready (-1)) s.platform 0 r.Idle)
    (args : s.arguments = r.args) :
    Attains (Platform.target (-1) kernelAddr .single) s () fun s' =>
      s'.arguments = r.args ∧ r.next.Idle s'.platform := by
  refine (CallM.attains_onPlatform (P := fun s' => s'.arguments = r.args ∧ r.Idle s'.platform) ready
    fun _ idle => ⟨args, idle⟩).bind fun s ⟨args, idle⟩ => ?_
  refine Attains.bind (a := ()) (P := fun s' => s'.arguments = r.args ∧ r.next.Idle s'.platform) ?_
    fun s ⟨args, idle⟩ => CallM.attains_onPlatform idle.attains_record fun _ idle => ⟨args, idle⟩
  obtain ⟨l, d, hl, shows, -⟩ := idle.link
  refine CallM.attains_link_bind hl ?_
  rw [shows.id]
  refine (CallM.attains_onPlatform (P := fun s' => s'.arguments = r.args ∧ r.Idle s'.platform)
    idle.equipped.attains_resolveEntry ?_).bind fun s ⟨args, idle⟩ => idle.attains_region fits args
  rintro _ ⟨equipped, cache, rfl⟩
  exact ⟨args, idle.settings, idle.listed, equipped, idle.held, idle.launched, idle.tableEntries, idle.link⟩

end Round

/-! ## The first region -/

variable {config : Config} {strategy : Strategy}

/-- The accelerator of a workload. -/
def accelerator (w : Workload) (addressTable : Bool) : Accelerator :=
  (Accelerator.ofDevices 1 Accelerator.defaultCapacity).register (w.kernel addressTable)

/-- The platform before the first region. -/
def start (w : Workload) (b : Buffers) (settings : Settings) : Platform where
  settings := settings
  accelerators := [w.accelerator settings.config.addressTable]
  devices := [⟨0, { id := 0, unit := 0, pending := true }⟩]
  listed := 1
  libraries := [⟨0, .ofDescription library 1, []⟩]
  nextLibrary := 1
  host := w.initialHost b

/-- The platform when the first region finds its device ready. -/
def readied (w : Workload) (b : Buffers) (settings : Settings) : Platform :=
  { w.start b settings with
    accelerators :=
      [{ w.accelerator settings.config.addressTable with
          initialised := [true]
          calls := { initialise := 1, load := 1 } }]
    devices := [⟨0, { id := 0, unit := 0, prepared := some (.ok ()) }⟩]
    libraries := [loadedLibrary] }

theorem validate_eq_ok (alignment : config.structAlignment ∣ Word.bytes) (noList : config.addressOffset = none)
    (named : config.strategy = .ok strategy) : config.validate = .ok () := by
  have powers : ∀ n ≤ 8, n ∣ 8 → Config.isPowerOfTwo n = true := by decide
  rw [Config.validate, powers _ (Nat.le_of_dvd (by decide) alignment) alignment, noList, named]
  rfl

theorem platform_eq_ok (alignment : config.structAlignment ∣ Word.bytes) (noList : config.addressOffset = none)
    (named : config.strategy = .ok strategy) : w.platform b config = .ok (w.start b ⟨config, strategy⟩) := by
  unfold platform Platform.ofAccelerators
  rw [validate_eq_ok alignment noList named, named]
  rfl

/-- The device is prepared, and the kernel of the library is found on it. -/
theorem exec_ready_start (default : settings.config.defaultDevice = 0) :
    exec (Platform.ready (-1)) (w.start b settings) = (.ok 0, w.readied b settings) := by
  obtain ⟨⟨_, _, _, _, _, _, _⟩, _⟩ := settings
  cases default
  rfl

/-! ## All regions -/

/-- Bytes of the address table that each region gets, if there is one. -/
def tableBytes (w : Workload) (addressTable : Bool) : Nat :=
  if addressTable then (2 * w.structs + 1) * AddressTable.recordBytes else 0

/-- Device addresses that each region takes. -/
def regionStride (w : Workload) (addressTable : Bool) : Nat :=
  w.structs * w.pairStride + if addressTable then DeviceMemory.stride (w.tableBytes addressTable) else 0

/-- The region of a number. -/
def round (w : Workload) (b : Buffers) (settings : Settings) (n : Nat) : Round where
  workload := w
  buffers := b
  settings := settings
  base := Accelerator.memoryBase + n * w.regionStride settings.config.addressTable
  before := n

theorem base_round_zero (w : Workload) (b : Buffers) (settings : Settings) :
    (w.round b settings 0).base = Accelerator.memoryBase := by
  rw [round, Nat.zero_mul, Nat.add_zero]

theorem top_round (n : Nat) : (w.round b settings n).top = (w.round b settings (n + 1)).base := by
  rw [Round.top]
  change (w.stack b _).target (2 * w.structs) + _ = _
  rw [target_struct, Nat.add_assoc]
  change Accelerator.memoryBase + n * w.regionStride settings.config.addressTable +
    w.regionStride settings.config.addressTable = _
  rw [Nat.add_assoc, ← Nat.succ_mul]
  rfl

theorem next_round (n : Nat) : (w.round b settings n).next = w.round b settings (n + 1) := by
  rw [Round.next, top_round]
  rfl

/-- Before the first region nothing was done. -/
theorem spent_nothing : (w.round b settings 0).Spent {} where
  launches := rfl
  allocations := (Nat.zero_mul _).symm
  deallocations := (Nat.zero_mul _).symm
  retrievals := (Nat.zero_mul _).symm
  retrievedBytes := (Nat.zero_mul _).symm
  submittedBytes _ := (Nat.zero_mul _).symm
  submissions _ _ := (Nat.zero_mul _).symm
  batches _ _ _ := (Nat.zero_mul _).symm
  batchedChunks _ _ _ := (Nat.zero_mul _).symm

/-- A workload that can be run: the configuration is valid and names the only device, the buffers are suitable,
and the device has addresses for all regions and room for one. -/
structure Runnable (w : Workload) (b : Buffers) (config : Config) : Prop where
  suitable : b.Suitable w
  default : config.defaultDevice = 0
  noList : config.addressOffset = none
  alignment : config.structAlignment ∣ Word.bytes
  addressable : Accelerator.memoryBase + w.iterations * w.regionStride config.addressTable ≤ Word.modulus
  room : w.structs * w.pairBytes + w.tableBytes config.addressTable ≤ Accelerator.defaultCapacity

namespace Runnable

variable (runnable : w.Runnable b config)

include runnable

theorem fits {n : Nat} (lt : n < w.iterations) : (w.round b ⟨config, strategy⟩ n).Fits where
  suitable := runnable.suitable
  alignment := runnable.alignment
  noList := runnable.noList
  addressable := by
    rw [top_round]
    refine Nat.le_trans ?_ runnable.addressable
    exact Nat.add_le_add_left (Nat.mul_le_mul_right _ (Nat.succ_le_of_lt lt)) _
  room := runnable.room

theorem calm_start : (w.round b ⟨config, strategy⟩ 0).Calm (w.start b ⟨config, strategy⟩) where
  settings := rfl
  listed := rfl
  held := runnable.suitable.held_initialHost
  launched := rfl
  tableEntries := (Nat.zero_mul _).symm
  link := ⟨_, rfl, rfl, spent_nothing⟩

theorem idle_readied : (w.round b ⟨config, strategy⟩ 0).Idle (w.readied b ⟨config, strategy⟩) where
  settings := rfl
  listed := rfl
  equipped := ⟨rfl, fun _ none => nomatch none⟩
  held := runnable.suitable.held_initialHost
  launched := rfl
  tableEntries := (Nat.zero_mul _).symm
  link := by
    let d : DeviceView :=
      { mappings := {}
        shadows := ∅
        transfers := {}
        memory := { next := Accelerator.memoryBase, capacity := Accelerator.defaultCapacity } }
    have blank : (w.round b ⟨config, strategy⟩ 0).Blank d :=
      { listed := .of_empty rfl
        stored := ⟨DeviceMemory.wellFormed_empty _ _, (base_round_zero w b _).symm, rfl, rfl,
          fun _ lt => absurd lt (Nat.not_lt_zero _), fun _ lt => absurd lt (Nat.not_lt_zero _)⟩
        unpatched := fun _ => AddressMap.not_mem_empty }
    exact ⟨_, d, rfl, ⟨rfl, rfl, rfl, rfl, rfl, rfl, fun _ _ => rfl, rfl, Accelerator.memory?_ofNat 0⟩, blank,
      spent_nothing⟩

/-- Any number of regions can be run, and the platform is calm after them. -/
theorem regions (strategy : Strategy) (n : Nat) (le : n ≤ w.iterations) : ∃ s : CallState,
    (List.range n).foldlM runRegion { platform := w.start b ⟨config, strategy⟩, arguments := w.arguments b } =
      .ok s ∧ s.arguments = w.arguments b ∧ (w.round b ⟨config, strategy⟩ n).Calm s.platform ∧
      Attains (Platform.ready (-1)) s.platform 0 (w.round b ⟨config, strategy⟩ n).Idle := by
  induction n with
  | zero =>
      refine ⟨_, rfl, rfl, runnable.calm_start, ?_⟩
      exact ⟨_, exec_ready_start runnable.default, runnable.idle_readied⟩
  | succ n ih =>
      obtain ⟨s, ran, args, -, ready⟩ := ih (Nat.le_of_succ_le le)
      obtain ⟨s', called, args', idle⟩ := Round.attains_target (runnable.fits le) ready args
      rw [next_round] at idle
      have next : runRegion s n = .ok s' := by
        have run : (Platform.target (-1) kernelAddr .single).run.run s = (.ok (), s') := called
        rw [runRegion, run]
      refine ⟨s', ?_, args', idle.calm, idle.attains_ready runnable.default⟩
      rw [List.range_succ, List.foldlM_append, ran]
      change (List.foldlM runRegion s [n] : Except WorkloadError CallState) = _
      rw [List.foldlM_cons, next]
      rfl

end Runnable

/-! ## The report -/

theorem pairBytes_eq : w.pairBytes = 16 + 4 * w.elements := by
  rw [pairBytes, arrayBytes, Nat.mul_comm]
  rfl

/-- The host is as it has to be when all regions have run. -/
theorem Round.Calm.isUpdated (suitable : b.Suitable w)
    (calm : (w.round b settings w.iterations).Calm pl) {s : Nat} (hs : s < w.structs) :
    w.isUpdated b pl.host s = true := by
  have array := calm.held (2 * s + 1) (show 2 * s + 1 < 2 * w.structs by omega)
  have part : (w.round b settings w.iterations).stack.part (2 * s + 1) = ⟨b.elements s, w.arrayBytes⟩ :=
    part_array
  have text : (w.round b settings w.iterations).hostText (2 * s + 1) = w.contentAfter w.iterations s :=
    text_array
  rw [part, text] at array
  rw [Workload.isUpdated, suitable.readPointer calm.held hs, Bool.and_eq_true]
  exact ⟨beq_self_eq_true _, beq_iff_eq.2 array⟩

/-- The address tables that each kernel gets. -/
def tables (config : Config) : Nat := if config.addressTable then 1 else 0

/-- A report of a workload that has worked, with all its counts. -/
structure Report.Complete (w : Workload) (config : Config) (strategy : Strategy) (report : Report) : Prop where
  named : report.strategy = strategy
  addressTable : report.addressTable = config.addressTable
  verified : report.verified = true
  kernelsLaunched : report.metrics.kernelsLaunched = w.iterations
  launches : report.transfers.launches = w.iterations
  allocations : report.transfers.allocations = w.iterations * (2 * w.structs + tables config)
  deallocations : report.transfers.deallocations = w.iterations * (2 * w.structs + tables config)
  retrievals : report.transfers.retrievals = 2 * w.structs * w.iterations
  retrievedBytes : report.transfers.retrievedBytes = w.iterations * w.structs * (16 + 4 * w.elements)
  tableEntries : report.metrics.tableEntries = 2 * w.structs * w.iterations * tables config
  submittedBytes : config.addressTable = false →
    report.transfers.submittedBytes = w.iterations * w.structs * (24 + 4 * w.elements)
  submissions : config.addressTable = false → strategy = .immediate →
    report.transfers.submissions = 3 * w.structs * w.iterations
  batches : config.addressTable = false → strategy = .bulk → 0 < w.structs →
    report.transfers.batches = 2 * w.iterations
  batchedChunks : config.addressTable = false → strategy = .bulk → 0 < w.structs →
    report.transfers.batchedChunks = 3 * w.structs * w.iterations

/-- What is seen after the last region is what has to be reported. -/
theorem Round.Calm.complete (calm : (w.round b ⟨config, strategy⟩ w.iterations).Calm pl) {l : Link}
    (spent : (w.round b ⟨config, strategy⟩ w.iterations).Spent l.device.transfers)
    {verified : Bool} (ok : verified = true) :
    Report.Complete w config strategy
      { strategy := pl.settings.strategy
        addressTable := config.addressTable
        verified
        metrics := pl.metrics
        transfers := l.device.transfers } where
  named := congrArg Settings.strategy calm.settings
  addressTable := rfl
  verified := ok
  kernelsLaunched := calm.launched
  launches := spent.launches
  allocations := spent.allocations
  deallocations := spent.deallocations
  retrievals := spent.retrievals.trans (Nat.mul_comm _ _)
  retrievedBytes := by
    refine spent.retrievedBytes.trans ?_
    change w.iterations * (w.structs * w.pairBytes) = _
    rw [pairBytes_eq, ← Nat.mul_assoc]
  tableEntries := by
    refine calm.tableEntries.trans ?_
    change w.iterations * (if config.addressTable then 2 * w.structs else 0) = _
    rw [Workload.tables]
    cases config.addressTable with
    | true => rw [if_pos rfl, if_pos rfl, Nat.mul_one, Nat.mul_comm]
    | false => rw [if_neg Bool.false_ne_true, if_neg Bool.false_ne_true, Nat.mul_zero, Nat.mul_zero]
  submittedBytes untabled := by
    refine (spent.submittedBytes untabled).trans ?_
    change w.iterations * (w.structs * (w.pairBytes + Word.bytes)) = _
    rw [pairBytes_eq, ← Nat.mul_assoc, Nat.add_right_comm]
    rfl
  submissions untabled immediate := (spent.submissions untabled immediate).trans (Nat.mul_comm _ _)
  batches untabled bulk some := (spent.batches untabled bulk some).trans (Nat.mul_comm _ _)
  batchedChunks untabled bulk some := (spent.batchedChunks untabled bulk some).trans (Nat.mul_comm _ _)

/-- Whatever its shape, a workload that can be run verifies, and its counts are known: by both strategies, with
and without an address table. -/
theorem runIn_complete (runnable : w.Runnable b config) (named : config.strategy = .ok strategy) :
    ∃ report, w.runIn b config = .ok report ∧ report.Complete w config strategy := by
  obtain ⟨s, ran, -, calm, -⟩ := runnable.regions strategy w.iterations (Nat.le_refl _)
  obtain ⟨l, hl, unmapped, spent⟩ := calm.link
  have used : Returns (Platform.deviceIndex (-1) >>= Platform.link) s.platform l s.platform := by
    obtain ⟨_, found, rfl⟩ := Round.attains_deviceIndex (calm.settings ▸ runnable.default) calm.listed
    exact returns_bind.2 ⟨0, _, found, Platform.exec_link hl⟩
  have verified : ((List.range w.structs).all (w.isUpdated b s.platform.host) &&
      l.device.mappings.isEmpty) = true := by
    rw [Bool.and_eq_true, List.all_eq_true, MappingTable.isEmpty, unmapped]
    exact ⟨fun i hi => calm.isUpdated runnable.suitable (List.mem_range.1 hi), rfl⟩
  refine ⟨_, ?_, calm.complete spent verified⟩
  rw [runIn, platform_eq_ok runnable.alignment runnable.noList named]
  change (List.foldlM runRegion _ (List.range w.iterations) >>= _) = _
  rw [ran]
  have device : ((Platform.deviceIndex (-1) >>= Platform.link).run.run s.platform).1 = .ok l :=
    congrArg Prod.fst used
  change ((((Platform.deviceIndex (-1) >>= Platform.link).run.run s.platform).1.mapError
    WorkloadError.device) >>= _) = _
  rw [device]
  rfl

theorem run_complete_small : ∃ report, run ⟨2, 8, 3⟩ {} = .ok report ∧ report.verified = true ∧
    report.transfers.submissions = 18 ∧ report.transfers.submittedBytes = 192 := by
  have runnable : Runnable ⟨2, 8, 3⟩ (buffers ⟨2, 8, 3⟩) {} :=
    ⟨suitable_buffers (by decide), rfl, rfl, by decide, by decide, by decide⟩
  have named : Config.strategy {} = .ok .immediate := rfl
  obtain ⟨report, ran, complete⟩ := runIn_complete runnable named
  exact ⟨report, ran, complete.verified, complete.submissions rfl rfl, complete.submittedBytes rfl⟩

end Workload

end Offloading
