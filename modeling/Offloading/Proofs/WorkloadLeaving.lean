import Offloading.Proofs.WorkloadLaunch
/-!
# Leaving a region of a workload

The sections are released in the opposite order. Each array comes back as the kernel left it. So does each
struct, with its pointer put back where that was patched.
-/

namespace Offloading.Workload.Round

open RegionM

variable {r : Round} {j k n used : Nat} {kernels : List Kernel} {v : RegionView} {state : RegionState}
  {t : TransferStats} {d : DeviceView} {m : DeviceMemory} {host : HostMemory} {shadows : ShadowTable}

/-! ## Patched pointers -/

/-- No pointer lies in an array. -/
theorem Patched.outside_array (fits : r.Fits) (patched : r.Patched n shadows) (le : n ≤ r.count)
    (hk : k < r.count) : ∀ x ∈ shadows, ¬ (r.buffers.elements k ≤ x.hostSlot ∧
      x.hostSlot < r.buffers.elements k + r.workload.arrayBytes) := by
  intro x hx inside
  obtain ⟨-, s, hs, rfl⟩ := (patched x).1 hx
  have apart := fits.separate.apart (2 * s) (by omega) (2 * k + 1) (by omega) (by omega)
  have struct : r.stack.part (2 * s) = ⟨r.buffers.structAddr s, structBytes⟩ := part_struct
  have array : r.stack.part (2 * k + 1) = ⟨r.buffers.elements k, r.workload.arrayBytes⟩ := part_array
  have positive : 0 < structBytes := by decide
  rw [struct, array] at apart
  change r.buffers.elements k ≤ r.buffers.structAddr s ∧ r.buffers.structAddr s < _ at inside
  rcases apart with before | after
  · change r.buffers.structAddr s + structBytes ≤ r.buffers.elements k at before
    omega
  · change r.buffers.elements k + r.workload.arrayBytes ≤ r.buffers.structAddr s at after
    omega

/-- Releasing an array forgets no pointer. -/
theorem Patched.eraseRange_array (fits : r.Fits) (patched : r.Patched n shadows) (le : n ≤ r.count)
    (hk : k < r.count) : r.Patched n (AddressMap.eraseRange shadows (r.buffers.elements k)
      (r.buffers.elements k + r.workload.arrayBytes)) := by
  intro x
  rw [AddressMap.mem_eraseRange, ← patched x]
  exact ⟨And.left, fun hx => ⟨hx, patched.outside_array fits le hk x hx⟩⟩

/-- In a struct lies its own pointer and no other. -/
theorem slot_inside : r.buffers.structAddr k ≤ (r.shadow n).hostSlot ∧
    (r.shadow n).hostSlot < r.buffers.structAddr k + structBytes ↔ n = k := by
  change r.buffers.structAddr k ≤ r.buffers.structAddr n ∧ r.buffers.structAddr n < _ ↔ _
  have positive : 0 < structBytes := by decide
  constructor
  · rintro ⟨lower, upper⟩
    rcases Nat.lt_trichotomy n k with lt | same | gt
    · have := Buffers.structAddr_apart (b := r.buffers) lt
      omega
    · exact same
    · have := Buffers.structAddr_apart (b := r.buffers) gt
      omega
  · rintro rfl
    omega

theorem Patched.range_struct (direct : r.direct = true) (patched : r.Patched (k + 1) shadows) :
    AddressMap.range shadows (r.buffers.structAddr k) (r.buffers.structAddr k + structBytes) =
      [r.shadow k] := by
  refine AddressMap.range_eq_singleton ?_ fun x hx => ?_
  · exact AddressMap.mem_range.2 ⟨(patched _).2 ⟨direct, k, Nat.lt_succ_self k, rfl⟩, slot_inside.2 rfl⟩
  · obtain ⟨hx, inside⟩ := AddressMap.mem_range.1 hx
    obtain ⟨-, s, -, rfl⟩ := (patched x).1 hx
    rw [slot_inside.1 inside]

/-- Releasing a struct forgets its pointer. -/
theorem Patched.eraseRange_struct (patched : r.Patched (k + 1) shadows) :
    r.Patched k (AddressMap.eraseRange shadows (r.buffers.structAddr k)
      (r.buffers.structAddr k + structBytes)) := by
  intro x
  rw [AddressMap.mem_eraseRange, patched x]
  constructor
  · rintro ⟨⟨direct, s, hs, rfl⟩, outside⟩
    have other : s ≠ k := fun same => outside (slot_inside.2 same)
    exact ⟨direct, s, by omega, rfl⟩
  · rintro ⟨direct, s, hs, rfl⟩
    refine ⟨⟨direct, s, Nat.lt_succ_of_lt hs, rfl⟩, fun inside => ?_⟩
    exact Nat.ne_of_lt hs (slot_inside.1 inside)

/-! ## Releasing a section -/

/-- The last mapped section is copied back and loses its mapping and its block. -/
theorem attains_release {a : Argument} (fits : r.Fits) (hj : j < 2 * r.count)
    (ha : r.args.arguments[j]? = some a) (exchanged : a.Exchanged)
    (part : a.hostSection = r.stack.part j)
    (whole : Region.mappedSection r.settings (Region.isPadded r.args j a) a = (a.start, a.size))
    (h : state.Shows kernels r.args v) (listed : r.stack.Listed (j + 1) v.device.mappings)
    (stored : r.stack.Stored (j + 1) r.finalText r.top (used + (r.stack.part j).size) v.device.memory) :
    ∃ m, r.stack.Stored j r.finalText r.top used m ∧
      Attains (Region.unmapArgument r.settings j) state ()
        (RegionState.Shows kernels r.args (v.released r.direct (r.stack.mapping j) (r.finalText j) m)) := by
  have sep := fits.separate_of_le hj
  have last := Nat.lt_succ_self j
  have start : a.start = (r.stack.part j).first := congrArg HostSection.first part
  have size : a.size = (r.stack.part j).size := congrArg HostSection.size part
  obtain ⟨m, freed, stored'⟩ := stored.pop
  have found := (listed.lookup sep last (Nat.le_refl _) (sep.first_lt last) (Nat.le_refl (r.stack.part j).stop)).1
  have held := stored.read_all sep last
  have slot : (a.mapType.has .pointerAndObject && !a.mapType.isMember) = false := by
    have owns := exchanged.ownsSlot
    rwa [Argument.ownsSlot, exchanged.isMapped, Bool.true_and] at owns
  refine ⟨m, stored', Region.attains_unmapArgument exchanged.fromDevice exchanged.delete
    exchanged.isPlainMember ?_ ?_ rfl start.symm ?_ ?_ freed h ha exchanged.isMapped exchanged.nested whole slot⟩
  · rw [size]
    exact Nat.ne_of_gt (sep.nonempty j last)
  · rw [start, size]
    exact found
  · rw [start, size]
    rfl
  · rw [start, size, sep.translate_first last]
    exact held

/-! ## Leaving -/

/-- What the sections hold on the host while the first `k` structs and their arrays are still mapped. -/
def leavingText (r : Round) (k : Nat) : Nat → List UInt8 :=
  r.workload.text r.buffers.elements fun s => if s < k then r.before else r.before + 1

/-- What the structs from number `k` on and their arrays have cost on their way back. -/
def leaving (r : Round) (k : Nat) (t : TransferStats) : TransferStats :=
  { t with
    retrievals := t.retrievals + (r.count - k) * 2
    retrievedBytes := t.retrievedBytes + (r.count - k) * r.workload.pairBytes
    deallocations := t.deallocations + (r.count - k) * 2 }

/-- The first `k` structs and their arrays are still mapped, and all others are back. -/
structure Leaving (r : Round) (k : Nat) (t : TransferStats) (d : DeviceView) (host : HostMemory) : Prop where
  listed : r.stack.Listed (2 * k) d.mappings
  stored : r.stack.Stored (2 * k) r.finalText r.top (k * r.workload.pairBytes) d.memory
  patched : r.Patched k d.shadows
  held : r.stack.Held (2 * r.count) (r.leavingText k) host
  transfers : d.transfers = r.leaving k t

/-- Half of the work for a struct: its array is back. -/
structure HalfLeft (r : Round) (k : Nat) (t : TransferStats) (d : DeviceView) (host : HostMemory) : Prop where
  listed : r.stack.Listed (2 * k + 1) d.mappings
  stored : r.stack.Stored (2 * k + 1) r.finalText r.top (k * r.workload.pairBytes + structBytes) d.memory
  patched : r.Patched (k + 1) d.shadows
  held : r.stack.Held (2 * r.count) (r.leavingText k) host
  transfers : d.transfers = ((r.leaving (k + 1) t).recordRetrieval r.workload.arrayBytes).recordDeallocation

theorem leaving_succ (hk : k < r.count) (t : TransferStats) : r.leaving k t =
    ((((r.leaving (k + 1) t).recordRetrieval r.workload.arrayBytes).recordDeallocation).recordRetrieval
      structBytes).recordDeallocation := by
  have step : r.count - k = r.count - (k + 1) + 1 := by omega
  have bytes : r.workload.pairBytes = structBytes + r.workload.arrayBytes := rfl
  simp only [leaving, TransferStats.recordRetrieval, TransferStats.recordDeallocation, step, Nat.succ_mul,
    TransferStats.mk.injEq, true_and, and_true]
  omega

theorem leavingText_array : r.leavingText k (2 * k + 1) = r.finalText (2 * k + 1) := by
  rw [leavingText, text_array, finalText, text_array, if_neg (Nat.lt_irrefl k)]

theorem leavingText_other {j : Nat} (ne : j ≠ 2 * k + 1) : r.leavingText k j = r.leavingText (k + 1) j := by
  obtain ⟨s, -, rfl | rfl⟩ := lt_pairs (show j < 2 * (j / 2 + 1) by omega)
  · rw [leavingText, leavingText, text_struct, text_struct]
  · rw [leavingText, leavingText, text_array, text_array]
    congr 1
    exact if_congr (by omega) rfl rfl

theorem length_finalText : (r.finalText j).length = (r.stack.part j).size := length_text

/-- An array is copied back, and no pointer of it has to be put back. -/
theorem held_array (fits : r.Fits) (hk : k < r.count) (patched : r.Patched (k + 1) shadows)
    (held : r.stack.Held (2 * r.count) (r.leavingText (k + 1)) host) :
    let host := host.write (r.stack.mapping (2 * k + 1)).hostBegin (r.finalText (2 * k + 1))
    r.stack.Held (2 * r.count) (r.leavingText k)
      (if r.direct then host.restored (AddressMap.range shadows (r.stack.mapping (2 * k + 1)).hostBegin
        (r.stack.mapping (2 * k + 1)).hostEnd) else host) := by
  have none : AddressMap.range shadows (r.stack.mapping (2 * k + 1)).hostBegin
      (r.stack.mapping (2 * k + 1)).hostEnd = [] := by
    rw [mapping_array]
    exact AddressMap.range_eq_nil (patched.outside_array fits hk hk)
  have copied : r.stack.Held (2 * r.count) (r.leavingText k)
      (host.write (r.stack.part (2 * k + 1)).first (r.finalText (2 * k + 1))) := by
    refine held.write fits.separate (by omega) (Nat.le_of_eq length_finalText) ?_
      fun i _ ne => leavingText_other ne
    rw [leavingText_array, List.drop_eq_nil_of_le, List.append_nil]
    rw [length_finalText]
    exact Nat.le_of_eq length_text
  dsimp only
  rw [none]
  exact (ite_self _).symm ▸ copied

theorem left_array (fits : r.Fits) (hk : k < r.count) (h : state.Shows kernels r.args v)
    (leaving : r.Leaving (k + 1) t v.device v.host) :
    Attains (Region.unmapArgument r.settings (2 * k + 1)) state () fun state =>
      ∃ d host, state.Shows kernels r.args { v with device := d, host } ∧ r.HalfLeft k t d host := by
  have below : 2 * k + 1 < 2 * r.count := by omega
  have found : r.args.arguments[2 * k + 1]? = some (r.workload.arrayArgument r.buffers k) :=
    (argumentsOf_pair hk).2
  have stored := leaving.stored
  rw [show (k + 1) * r.workload.pairBytes = k * r.workload.pairBytes + structBytes +
    (r.stack.part (2 * k + 1)).size by rw [size_array, Nat.succ_mul, pairBytes, Nat.add_assoc]] at stored
  obtain ⟨m, stored', ran⟩ := attains_release fits below found exchanged_array part_array.symm
    (mappedSection_array r.args found) h leaving.listed stored
  let d : DeviceView := (v.released r.direct (r.stack.mapping (2 * k + 1)) (r.finalText (2 * k + 1)) m).device
  refine ran.mono fun state h => ⟨d, _, h, leaving.listed.remove (fits.separate_of_le below), stored', ?_,
    held_array fits hk leaving.patched leaving.held, ?_⟩
  · have patched := leaving.patched.eraseRange_array fits hk hk
    change r.Patched (k + 1) (AddressMap.eraseRange v.device.shadows (r.stack.mapping (2 * k + 1)).hostBegin
      (r.stack.mapping (2 * k + 1)).hostEnd)
    rw [mapping_array]
    exact patched
  · change (v.device.transfers.recordRetrieval (r.stack.mapping (2 * k + 1)).length).recordDeallocation = _
    rw [leaving.transfers, mapping_array, Mapping.length, Nat.add_sub_cancel_left]

/-- What a struct holds on the host when it was copied back as it is on the device. -/
theorem finalText_struct : r.finalText (2 * k) = r.workload.text
    (Function.update r.buffers.elements k (r.pointer k)) (fun s => if s < k then r.before else r.before + 1)
    (2 * k) := by
  rw [finalText, text_struct, text_struct, Function.update_self]

/-- The pointer of a struct that was copied back is put back, if it was patched. -/
theorem held_struct (fits : r.Fits) (hk : k < r.count) (patched : r.Patched (k + 1) shadows)
    (held : r.stack.Held (2 * r.count) (r.leavingText k) host) :
    let host := host.write (r.stack.mapping (2 * k)).hostBegin (r.finalText (2 * k))
    r.stack.Held (2 * r.count) (r.leavingText k)
      (if r.direct then host.restored (AddressMap.range shadows (r.stack.mapping (2 * k)).hostBegin
        (r.stack.mapping (2 * k)).hostEnd) else host) := by
  have below : 2 * k < 2 * r.count := by omega
  have copied : r.stack.Held (2 * r.count) (r.workload.text (Function.update r.buffers.elements k (r.pointer k))
      fun s => if s < k then r.before else r.before + 1)
      (host.write (r.stack.part (2 * k)).first (r.finalText (2 * k))) := by
    refine held.write fits.separate below (Nat.le_of_eq length_finalText) ?_
      fun i _ ne => text_update_other _ _ ne
    rw [finalText_struct, List.drop_eq_nil_of_le, List.append_nil]
    rw [← finalText_struct, length_finalText]
    exact Nat.le_of_eq length_text
  cases direct : r.direct with
  | false =>
      have same : r.pointer k = r.buffers.elements k := by rw [pointer, direct, if_neg Bool.false_ne_true]
      rw [same, Function.update_eq_self] at copied
      exact copied
  | true =>
      have one : AddressMap.range shadows (r.stack.mapping (2 * k)).hostBegin (r.stack.mapping (2 * k)).hostEnd =
          [r.shadow k] := by
        rw [mapping_struct]
        exact patched.range_struct direct
      have back : r.stack.Held (2 * r.count) (r.workload.text (Function.update _ k (r.buffers.elements k)) _) _ :=
        held_pointer fits copied below
      rw [Function.update_idem, Function.update_eq_self] at back
      have slot : (r.shadow k).hostSlot = (r.stack.part (2 * k)).first :=
        (congrArg HostSection.first part_struct).symm
      have value : (r.shadow k).hostValue = r.buffers.elements k := rfl
      dsimp only
      rw [if_pos rfl, one, HostMemory.restored_singleton, slot, value]
      exact back

theorem left_struct (fits : r.Fits) (hk : k < r.count) (h : state.Shows kernels r.args v)
    (half : r.HalfLeft k t v.device v.host) :
    Attains (Region.unmapArgument r.settings (2 * k)) state () fun state =>
      ∃ d host, state.Shows kernels r.args { v with device := d, host } ∧ r.Leaving k t d host := by
  have below : 2 * k < 2 * r.count := by omega
  have struct : (structArgument r.buffers k).IsStruct r.settings.config.structAlignment :=
    isStruct fits.suitable.aligned fits.alignment
  have stored := half.stored
  rw [← size_struct (r := r) (s := k)] at stored
  obtain ⟨m, stored', ran⟩ := attains_release fits below (argumentsOf_pair hk).1 struct.exchanged
    part_struct.symm (mappedSection_struct fits.suitable.aligned fits.alignment) h half.listed stored
  let d : DeviceView := (v.released r.direct (r.stack.mapping (2 * k)) (r.finalText (2 * k)) m).device
  refine ran.mono fun state h => ⟨d, _, h, half.listed.remove (fits.separate_of_le below), stored', ?_,
    held_struct fits hk half.patched half.held, ?_⟩
  · have patched := half.patched.eraseRange_struct
    change r.Patched k (AddressMap.eraseRange v.device.shadows (r.stack.mapping (2 * k)).hostBegin
      (r.stack.mapping (2 * k)).hostEnd)
    rw [mapping_struct]
    exact patched
  · change (v.device.transfers.recordRetrieval (r.stack.mapping (2 * k)).length).recordDeallocation = _
    rw [half.transfers, leaving_succ hk, mapping_struct, Mapping.length, Nat.add_sub_cancel_left]

/-- One struct after the other comes back, the last one first. -/
theorem left_pair (fits : r.Fits) (hk : k < r.count) (h : state.Shows kernels r.args v)
    (leaving : r.Leaving (k + 1) t v.device v.host) :
    Attains ([2 * k + 1, 2 * k].forM (Region.unmapArgument r.settings)) state () fun state =>
      ∃ d host, state.Shows kernels r.args { v with device := d, host } ∧ r.Leaving k t d host := by
  refine attains_forM_cons (left_array fits hk h leaving) fun state ⟨d, host, h, half⟩ => ?_
  exact attains_forM_cons (left_struct (v := { v with device := d, host }) fits hk h half)
    fun state holds => attains_forM_nil holds

theorem attains_leave (fits : r.Fits) (h : state.Shows kernels r.args v)
    (leaving : r.Leaving r.count t v.device v.host) :
    Attains (Region.leave r.settings) state () fun state =>
      ∃ d host, state.Shows kernels r.args { v with device := d, host } ∧ r.Leaving 0 t d host := by
  have size : state.arguments.size = 2 * r.count := by
    rw [h.arguments]
    exact size_arguments
  unfold Region.leave
  refine Attains.bind_get ?_
  rw [size]
  refine attains_forM_pairs_reverse (I := fun k (state : RegionState) => ∃ d host,
    state.Shows kernels r.args { v with device := d, host } ∧ r.Leaving k t d host)
    ⟨v.device, v.host, h, leaving⟩ fun k hk state ⟨d, host, h, leaving⟩ => ?_
  exact left_pair (v := { v with device := d, host }) fits hk h leaving

end Offloading.Workload.Round
