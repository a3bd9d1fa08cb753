import Offloading.Proofs.Chunks
import Offloading.Proofs.WorkloadLayout
/-!
# Entering a region of a workload

Struct by struct the sections of a workload get their blocks. Under the immediate strategy each section is
sent and each pointer patched at once; under the bulk strategy all of them wait, and two batches at the end
leave the same bytes on the device.
-/

namespace Offloading.Workload

/-- One region of a workload: how it is run, where the next block of the device goes, and how many regions
there were before. -/
structure Round where
  /-- The workload. -/
  workload : Workload
  /-- Where its buffers lie. -/
  buffers : Buffers
  /-- The settings. -/
  settings : Settings
  /-- Where the next block goes. -/
  base : Nat
  /-- Regions before this one. -/
  before : Nat

namespace Round

variable {r : Round} {k s : Nat}

/-- The number of structs. -/
def count (r : Round) : Nat := r.workload.structs

/-- The arguments. -/
def args (r : Round) : ArgumentList := r.workload.arguments r.buffers

/-- The sections and their blocks. -/
def stack (r : Round) : SectionStack := r.workload.stack r.buffers r.base

/-- Whether kernels follow pointers without translating them. -/
def direct (r : Round) : Bool := !r.settings.config.translatesOnDevice

/-- The pointer in the device copy of a struct. -/
def pointer (r : Round) (s : Nat) : Nat :=
  if r.direct then r.stack.target (2 * s + 1) else r.buffers.elements s

/-- What is remembered of a pointer that was patched. -/
def shadow (r : Round) (s : Nat) : ShadowPointer :=
  ⟨r.buffers.structAddr s, r.buffers.elements s, r.stack.target (2 * s), r.stack.target (2 * s + 1)⟩

/-- What the sections hold on the host. -/
def hostText (r : Round) : Nat → List UInt8 := r.workload.text r.buffers.elements fun _ => r.before

/-- What the sections hold on the device before the kernel runs. -/
def deviceText (r : Round) : Nat → List UInt8 := r.workload.text r.pointer fun _ => r.before

/-- The bytes of the address table, if there is one. -/
def tableBytes (r : Round) : Nat :=
  if r.settings.config.addressTable then (2 * r.count + 1) * AddressTable.recordBytes else 0

/-- Where the next block goes after the region. -/
def top (r : Round) : Nat :=
  r.stack.target (2 * r.count) +
    if r.settings.config.addressTable then DeviceMemory.stride r.tableBytes else 0

/-- The buffers are suitable, the configuration is one that workloads are run under, and the device has
addresses and room for all blocks. -/
structure Fits (r : Round) : Prop where
  suitable : r.buffers.Suitable r.workload
  alignment : r.settings.config.structAlignment ∣ Word.bytes
  noList : r.settings.config.addressOffset = none
  addressable : r.top ≤ Word.modulus
  room : r.count * r.workload.pairBytes + r.tableBytes ≤ Accelerator.defaultCapacity

namespace Fits

variable (fits : r.Fits)

include fits

theorem stack_le : r.stack.target (2 * r.count) ≤ Word.modulus :=
  Nat.le_trans (Nat.le_add_right _ _) fits.addressable

theorem separate : r.stack.Separate (2 * r.count) :=
  fits.suitable.separate (target_struct.symm.trans_le fits.stack_le)

theorem separate_of_le {n : Nat} (le : n ≤ 2 * r.count) : r.stack.Separate n := fits.separate.mono le

/-- There is room for the blocks of a struct and its array behind those of the structs before. -/
theorem room_pair (hk : k < r.count) :
    k * r.workload.pairBytes + structBytes + r.workload.arrayBytes ≤ Accelerator.defaultCapacity := by
  have room := fits.room
  have pairs := Nat.mul_le_mul_right r.workload.pairBytes (Nat.succ_le_of_lt hk)
  rw [Nat.succ_mul, pairBytes] at pairs
  rw [pairBytes] at room ⊢
  omega

theorem translatesOnDevice : r.settings.config.translatesOnDevice = r.settings.config.addressTable := by
  rw [Config.translatesOnDevice, fits.noList]
  exact Bool.or_false _

end Fits

/-- The first `k` pointers are remembered as patched, if pointers are patched at all. -/
def Patched (r : Round) (k : Nat) (shadows : ShadowTable) : Prop :=
  ∀ x, x ∈ shadows ↔ r.direct = true ∧ ∃ s < k, x = r.shadow s

theorem shadow_inj {s' : Nat} (h : (r.shadow s).hostSlot = (r.shadow s').hostSlot) : s = s' := by
  change r.buffers.structAddr s = r.buffers.structAddr s' at h
  have positive : 0 < structBytes := by decide
  rcases Nat.lt_trichotomy s s' with lt | same | gt
  · have := Buffers.structAddr_apart (b := r.buffers) lt
    omega
  · exact same
  · have := Buffers.structAddr_apart (b := r.buffers) gt
    omega

theorem Patched.insert {shadows : ShadowTable} (h : r.Patched k shadows) (direct : r.direct = true) :
    r.Patched (k + 1) (AddressMap.insert shadows (r.shadow k)) := by
  intro x
  rw [AddressMap.mem_insert, h x]
  constructor
  · rintro (rfl | ⟨⟨-, s, hs, rfl⟩, -⟩)
    · exact ⟨direct, k, Nat.lt_succ_self k, rfl⟩
    · exact ⟨direct, s, Nat.lt_succ_of_lt hs, rfl⟩
  · rintro ⟨-, s, hs, rfl⟩
    rcases Nat.lt_succ_iff_lt_or_eq.1 hs with lt | rfl
    · exact .inr ⟨⟨direct, s, lt, rfl⟩, fun same => Nat.ne_of_lt lt (shadow_inj same)⟩
    · exact .inl rfl

theorem Patched.indirect {shadows : ShadowTable} {n : Nat} (h : r.Patched k shadows)
    (indirect : r.direct = false) : r.Patched n shadows := by
  intro x
  rw [h x, indirect]
  simp

/-- A patch as it is asked for. -/
def patch (r : Round) (s : Nat) : PointerPatch :=
  ⟨r.buffers.structAddr s, r.buffers.elements s, r.stack.target (2 * s), r.buffers.elements s,
    Word.sub (r.buffers.elements s) (r.buffers.elements s), some (r.stack.target (2 * s + 1))⟩

theorem toBytes_ne_nil (a : Nat) : Word.toBytes a ≠ [] :=
  List.ne_nil_of_length_pos (by rw [Word.length_toBytes]; decide)

theorem sub_self {a : Nat} (h : a < Word.modulus) : Word.sub a a = 0 := by
  rw [Word.sub, Nat.mod_eq_of_lt h, Nat.add_sub_cancel' (Nat.le_of_lt h), Nat.mod_self]

theorem sub_zero {a : Nat} (h : a < Word.modulus) : Word.sub a 0 = a := by
  rw [Word.sub, Nat.zero_mod, Nat.sub_zero, Nat.add_mod_right, Nat.mod_eq_of_lt h]

namespace Fits

variable (fits : r.Fits)

include fits

theorem target_lt_modulus {j : Nat} (hj : j < 2 * r.count) : r.stack.target j < Word.modulus :=
  Nat.lt_of_lt_of_le (SectionStack.target_lt hj) fits.stack_le

theorem elements_lt (hs : s < r.count) : r.buffers.elements s < Word.modulus := fits.suitable.elements_lt hs

theorem shadow_patch (hs : s < r.count) : (r.patch s).shadow = r.shadow s := by
  have target := fits.target_lt_modulus (show 2 * s + 1 < 2 * r.count by omega)
  rw [PointerPatch.shadow, shadow]
  congr 1
  change Word.sub (r.stack.target (2 * s + 1)) (Word.sub (r.buffers.elements s) _) = _
  rw [sub_self (fits.elements_lt hs), sub_zero target]

end Fits

theorem size_struct : (r.stack.part (2 * s)).size = structBytes := congrArg _ part_struct

theorem size_array : (r.stack.part (2 * s + 1)).size = r.workload.arrayBytes := congrArg _ part_array

section pointers

variable {pointer regions : Nat → Nat} {value n next used : Nat} {m : DeviceMemory} {host : HostMemory}

theorem pointer_fits : (Word.toBytes value).length ≤ (r.stack.part (2 * k)).size := by
  rw [size_struct, Word.length_toBytes]
  decide

/-- The pointer of one struct is replaced on the device, and nothing else. -/
theorem stored_pointer (stored : r.stack.Stored n (r.workload.text pointer regions) next used m)
    (lt : 2 * k < n) :
    ∃ m', m.write (r.stack.target (2 * k)) (Word.toBytes value) = .ok m' ∧
      r.stack.Stored n (r.workload.text (Function.update pointer k value) regions) next used m' := by
  obtain ⟨m', ran, stored', -⟩ := stored.write lt (toBytes_ne_nil value) pointer_fits
    (text_update_struct _ _ _ _) fun i _ ne => text_update_other _ _ ne
  exact ⟨m', ran, stored'⟩

/-- The pointer of one struct is replaced on the host, and nothing else. -/
theorem held_pointer (fits : r.Fits) (held : r.stack.Held (2 * r.count) (r.workload.text pointer regions) host)
    (lt : 2 * k < 2 * r.count) :
    r.stack.Held (2 * r.count) (r.workload.text (Function.update pointer k value) regions)
      (host.write (r.stack.part (2 * k)).first (Word.toBytes value)) :=
  held.write fits.separate lt pointer_fits (text_update_struct _ _ _ _) fun _ _ ne => text_update_other _ _ ne

end pointers

theorem length_hostText {j : Nat} : (r.hostText j).length = (r.stack.part j).size := length_text

theorem hostText_ne_nil {j : Nat} : r.hostText j ≠ [] := by
  obtain ⟨s, -, rfl | rfl⟩ := lt_pairs (show j < 2 * (j / 2 + 1) by omega)
  · refine List.ne_nil_of_length_pos ?_
    rw [hostText, text_struct, length_structText]
    decide
  · refine List.ne_nil_of_length_pos ?_
    rw [hostText, text_array, length_contentAfter]
    exact arrayBytes_pos

/-! ## Mapping a struct and its array -/

theorem mapping_struct : r.stack.mapping (2 * s) = ⟨r.buffers.structAddr s, r.buffers.structAddr s,
    r.buffers.structAddr s + structBytes, r.stack.target (2 * s), .one⟩ := by
  rw [SectionStack.mapping, stack, part_struct]
  rfl

theorem mapping_array : r.stack.mapping (2 * s + 1) = ⟨r.buffers.elements s, r.buffers.elements s,
    r.buffers.elements s + r.workload.arrayBytes, r.stack.target (2 * s + 1), .one⟩ := by
  rw [SectionStack.mapping, stack, part_array]
  rfl

/-- The pointer of a mapped struct is found in the mapping of the struct. -/
theorem lookup_slot (fits : r.Fits) {n : Nat} {t : MappingTable} (listed : r.stack.Listed n t)
    (le : n ≤ 2 * r.count) (hs : 2 * s < n) :
    (t.lookup (r.buffers.structAddr s) Word.bytes).mapping? = some (r.stack.mapping (2 * s)) ∧
      (t.lookup (r.buffers.structAddr s) Word.bytes).isPartial = false := by
  have part : r.stack.part (2 * s) = ⟨r.buffers.structAddr s, structBytes⟩ := part_struct
  refine listed.lookup (fits.separate_of_le le) hs ?_ ?_ ?_
  · rw [part]
  · rw [part]
    exact Nat.lt_add_of_pos_right (show 0 < structBytes by decide)
  · rw [part]
    exact Nat.add_le_add_left (show Word.bytes ≤ structBytes by decide) _

theorem translate_slot (fits : r.Fits) (hs : s < r.count) :
    (r.stack.mapping (2 * s)).translate (r.buffers.structAddr s) = r.stack.target (2 * s) := by
  have first := fits.separate.translate_first (show 2 * s < 2 * r.count by omega)
  rwa [show (r.stack.part (2 * s)).first = r.buffers.structAddr s from congrArg _ part_struct] at first

section steps

open RegionM

variable {kernels : List Kernel} {v w u : RegionView} {state : RegionState} {m : DeviceMemory}
  {host : HostMemory}

/-- A struct that is not mapped gets its block, and its bytes are sent. -/
theorem attains_struct (fits : r.Fits) (hk : k < r.count) (h : state.Shows kernels r.args v)
    (listed : r.stack.Listed (2 * k) v.device.mappings) (held : r.stack.Held (2 * r.count) r.hostText v.host)
    (placed : v.device.memory.allocate structBytes = (some (r.stack.target (2 * k)), m))
    (sent : ∀ state : RegionState,
      state.Shows kernels r.args { v with device := v.device.mapped (r.stack.mapping (2 * k)) m } →
      Attains (transfer (r.settings.strategy.submit (r.stack.target (2 * k)) (r.hostText (2 * k)))) state ()
        (RegionState.Shows kernels r.args w)) :
    Attains (Region.mapArgument r.settings (2 * k)) state () (RegionState.Shows kernels r.args w) := by
  have struct : (structArgument r.buffers k).IsStruct r.settings.config.structAlignment :=
    isStruct fits.suitable.aligned fits.alignment
  have free := listed.lookup_next (fits.separate_of_le (by omega))
  have content := held (2 * k) (by omega)
  rw [stack, part_struct] at free content
  refine Region.attains_mapArgument h (argumentsOf_pair hk).1 struct.exchanged.isMapped
    struct.exchanged.nested ?_
  refine Region.attains_mapSection struct.exchanged.isMapped
    (mappedSection_struct fits.suitable.aligned fits.alignment) struct.exchanged.toDevice
    struct.exchanged.returnParam (by decide : 0 < structBytes) free placed h struct.isPointer fun state h => ?_
  rw [show v.host.read (structArgument r.buffers k).start (structArgument r.buffers k).size =
    r.hostText (2 * k) from content]
  rw [mapping_struct] at sent
  exact sent state h

/-- The pointer of a mapped struct is found there; its array gets its block, the bytes of the array are sent,
and the pointer is patched. -/
theorem attains_array (fits : r.Fits) (hk : k < r.count) (h : state.Shows kernels r.args v)
    (listed : r.stack.Listed (2 * k + 1) v.device.mappings)
    (held : r.stack.Held (2 * r.count) r.hostText v.host)
    (placed : v.device.memory.allocate r.workload.arrayBytes = (some (r.stack.target (2 * k + 1)), m))
    (sent : ∀ state : RegionState,
      state.Shows kernels r.args
        { v with device := v.device.reused.mapped (r.stack.mapping (2 * k + 1)) m } →
      Attains (transfer (r.settings.strategy.submit (r.stack.target (2 * k + 1)) (r.hostText (2 * k + 1))))
        state () (RegionState.Shows kernels r.args w))
    (patched : ∀ state : RegionState, state.Shows kernels r.args w → r.direct = true →
      Attains (transfer (r.settings.strategy.patch (r.patch k))) state ()
        (RegionState.Shows kernels r.args u))
    (unpatched : r.direct = false → w = u) :
    Attains (Region.mapArgument r.settings (2 * k + 1)) state () (RegionState.Shows kernels r.args u) := by
  have array : (r.workload.arrayArgument r.buffers k).Exchanged := exchanged_array
  have sep := fits.separate_of_le (show 2 * k + 1 + 1 ≤ 2 * r.count by omega)
  have free := listed.lookup_next sep
  have content := held (2 * k + 1) (by omega)
  obtain ⟨found, within⟩ := lookup_slot fits listed (by omega) (Nat.lt_succ_self (2 * k))
  rw [stack, part_array] at free content
  refine Region.attains_mapArgument h (argumentsOf_pair hk).2 array.isMapped array.nested ?_
  refine Region.attains_mapPointee (w := w) array.isMapped (mappedSection_array r.args (argumentsOf_pair hk).2)
    array.toDevice array.returnParam arrayBytes_pos free placed h isField.isPointer isMember_array found within
    (fits.suitable.readPointer held hk) (fun state h => ?_) fun state h => ?_
  · rw [show v.host.read (r.workload.arrayArgument r.buffers k).start
      (r.workload.arrayArgument r.buffers k).size = r.hostText (2 * k + 1) from content]
    rw [mapping_array] at sent
    exact sent state h
  · cases direct : r.direct with
    | true =>
        refine Region.attains_patchPointer (Bool.not_eq_true' _ ▸ direct) ?_
        rw [show (r.stack.mapping (2 * k)).translate (r.workload.arrayArgument r.buffers k).base =
          r.stack.target (2 * k) from translate_slot fits hk]
        exact patched state h direct
    | false =>
        rw [← unpatched direct]
        exact Region.attains_patchPointer_none h (by simpa [Round.direct] using direct)

/-! ## The immediate strategy -/

/-- What `k` structs and their arrays have cost when they were sent at once. -/
def sending (r : Round) (k : Nat) (t : TransferStats) : TransferStats :=
  { t with
    submissions := t.submissions + k * if r.direct then 3 else 2
    submittedBytes := t.submittedBytes + k * (r.workload.pairBytes + if r.direct then Word.bytes else 0)
    allocations := t.allocations + k * 2 }

/-- The first `k` structs and their arrays are mapped, sent and patched. -/
structure Sent (r : Round) (k : Nat) (t : TransferStats) (d : DeviceView) : Prop where
  listed : r.stack.Listed (2 * k) d.mappings
  stored : r.stack.Stored (2 * k) r.deviceText (r.stack.target (2 * k)) (k * r.workload.pairBytes) d.memory
  patched : r.Patched k d.shadows
  transfers : d.transfers = r.sending k t

/-- What the sections hold on the device while the pointer of one struct still has its host value. -/
def earlyText (r : Round) (k : Nat) : Nat → List UInt8 :=
  r.workload.text (Function.update r.pointer k (r.buffers.elements k)) fun _ => r.before

theorem earlyText_struct : r.earlyText k (2 * k) = r.hostText (2 * k) := by simp [earlyText, hostText]

theorem earlyText_array : r.earlyText k (2 * s + 1) = r.hostText (2 * s + 1) := by
  simp [earlyText, hostText]

theorem earlyText_before : ∀ j < 2 * k, r.earlyText k j = r.deviceText j :=
  text_congr (fun _ hs => Function.update_of_ne (Nat.ne_of_lt hs) _ _) fun _ _ => rfl

/-- Without patching there is nothing to be late with. -/
theorem earlyText_indirect (indirect : r.direct = false) : r.earlyText k = r.deviceText := by
  have same : r.pointer k = r.buffers.elements k := by rw [pointer, indirect, if_neg Bool.false_ne_true]
  rw [earlyText, ← same, Function.update_eq_self, deviceText]

theorem deviceText_indirect (indirect : r.direct = false) : r.deviceText = r.hostText := by
  have same : r.pointer = r.buffers.elements := by
    funext s
    rw [pointer, indirect, if_neg Bool.false_ne_true]
  rw [deviceText, hostText, same]

/-- Patching the pointer of a struct makes its device copy what it has to be. -/
theorem deviceText_patched (direct : r.direct = true) :
    r.deviceText = r.workload.text (Function.update
      (Function.update r.pointer k (r.buffers.elements k)) k (r.stack.target (2 * k + 1))) fun _ => r.before := by
  have same : r.pointer k = r.stack.target (2 * k + 1) := by rw [pointer, direct, if_pos rfl]
  rw [Function.update_idem, ← same, Function.update_eq_self, deviceText]

/-- Half of the work for a struct: its own block is there, and its pointer has the host value. -/
structure HalfSent (r : Round) (k : Nat) (t : TransferStats) (d : DeviceView) : Prop where
  listed : r.stack.Listed (2 * k + 1) d.mappings
  stored : r.stack.Stored (2 * k + 1) (r.earlyText k) (r.stack.target (2 * k + 1))
    (k * r.workload.pairBytes + structBytes) d.memory
  patched : r.Patched k d.shadows
  transfers : d.transfers = (r.sending k t).recordAllocation.recordSubmission structBytes

theorem sending_succ (t : TransferStats) : r.sending (k + 1) t =
    let struct := (r.sending k t).recordAllocation.recordSubmission structBytes
    let sent := struct.recordAllocation.recordSubmission r.workload.arrayBytes
    if r.direct then sent.recordSubmission Word.bytes else sent := by
  cases direct : r.direct with
  | true =>
      simp [sending, TransferStats.recordSubmission, TransferStats.recordAllocation, direct, pairBytes,
        Nat.succ_mul]
      omega
  | false =>
      simp [sending, TransferStats.recordSubmission, TransferStats.recordAllocation, direct, pairBytes,
        Nat.succ_mul]
      omega

variable {t : TransferStats}

theorem sent_struct (fits : r.Fits) (immediate : r.settings.strategy = .immediate) (hk : k < r.count)
    (held : r.stack.Held (2 * r.count) r.hostText v.host) (h : state.Shows kernels r.args v)
    (sent : r.Sent k t v.device) :
    Attains (Region.mapArgument r.settings (2 * k)) state () fun state =>
      ∃ d, state.Shows kernels r.args { v with device := d } ∧ r.HalfSent k t d := by
  have sep := fits.separate_of_le (show 2 * k + 1 ≤ 2 * r.count by omega)
  have room := fits.room_pair hk
  have start := sent.stored.congr earlyText_before
  obtain ⟨m₁, m₂, placed, written, stored⟩ := start.send (sep.nonempty _ (by omega))
    (by rw [size_struct]; omega) length_text
  rw [size_struct] at placed stored
  rw [earlyText_struct] at written
  let d := v.device.received (r.stack.mapping (2 * k)) m₂ (r.hostText (2 * k)).length
  refine Attains.mono (P := RegionState.Shows kernels r.args { v with device := d })
    (attains_struct fits hk h sent.listed held placed fun state h => ?_) fun state h =>
      ⟨d, h, sent.listed.insert sep, stored, sent.patched, ?_⟩
  · rw [immediate]
    exact attains_submit h hostText_ne_nil written
  · change v.device.transfers.recordAllocation.recordSubmission (r.hostText (2 * k)).length = _
    rw [sent.transfers, length_hostText, size_struct]

theorem sent_array (fits : r.Fits) (immediate : r.settings.strategy = .immediate) (hk : k < r.count)
    (held : r.stack.Held (2 * r.count) r.hostText v.host) (h : state.Shows kernels r.args v)
    (half : r.HalfSent k t v.device) :
    Attains (Region.mapArgument r.settings (2 * k + 1)) state () fun state =>
      ∃ d, state.Shows kernels r.args { v with device := d } ∧ r.Sent (k + 1) t d := by
  have sep := fits.separate_of_le (show 2 * k + 1 + 1 ≤ 2 * r.count by omega)
  obtain ⟨m₁, m₂, placed, written, stored⟩ := half.stored.send (sep.nonempty _ (Nat.lt_succ_self _))
    (by rw [size_array]; exact fits.room_pair hk) length_text
  have sum : k * r.workload.pairBytes + structBytes + r.workload.arrayBytes =
      (k + 1) * r.workload.pairBytes := by rw [Nat.succ_mul, pairBytes, Nat.add_assoc]
  rw [size_array] at placed stored
  rw [earlyText_array] at written
  rw [sum] at stored
  let d := v.device.reused.received (r.stack.mapping (2 * k + 1)) m₂ (r.hostText (2 * k + 1)).length
  have listed : r.stack.Listed (2 * (k + 1)) d.mappings :=
    (half.listed.congr (u := v.device.reused.mappings) rfl).insert sep
  have transfers : d.transfers =
      ((r.sending k t).recordAllocation.recordSubmission structBytes).recordAllocation.recordSubmission
        r.workload.arrayBytes := by
    change v.device.transfers.recordAllocation.recordSubmission (r.hostText (2 * k + 1)).length = _
    rw [half.transfers, length_hostText, size_array]
  have submitted : ∀ state : RegionState, state.Shows kernels r.args
      { v with device := v.device.reused.mapped (r.stack.mapping (2 * k + 1)) m₁ } →
      Attains (transfer (r.settings.strategy.submit (r.stack.target (2 * k + 1)) (r.hostText (2 * k + 1))))
        state () (RegionState.Shows kernels r.args { v with device := d }) := by
    intro state h
    rw [immediate]
    exact attains_submit h hostText_ne_nil written
  cases direct : r.direct with
  | true =>
      have value : (r.patch k).deviceValue = r.stack.target (2 * k + 1) :=
        congrArg ShadowPointer.deviceValue (fits.shadow_patch hk)
      obtain ⟨m₃, patched, stored'⟩ := stored_pointer stored (show 2 * k < 2 * k + 1 + 1 by omega)
      rw [← deviceText_patched direct] at stored'
      let d' : DeviceView := { d with
        memory := m₃
        transfers := d.transfers.recordSubmission Word.bytes
        shadows := d.shadows.insert (r.shadow k) }
      refine Attains.mono (P := RegionState.Shows kernels r.args { v with device := d' })
        (attains_array fits hk h half.listed held placed submitted (fun state h _ => ?_)
          fun indirect => absurd direct (Bool.eq_false_iff.1 indirect)) fun state h =>
        ⟨d', h, listed, stored', half.patched.insert direct, ?_⟩
      · rw [immediate]
        have ran := attains_patch (p := r.patch k) h (by rw [value]; exact patched)
        rwa [fits.shadow_patch hk] at ran
      · rw [sending_succ, direct, if_pos rfl, ← transfers]
  | false =>
      refine Attains.mono (P := RegionState.Shows kernels r.args { v with device := d })
        (attains_array fits hk h half.listed held placed submitted
          (fun _ _ on => absurd on (Bool.eq_false_iff.1 direct)) fun _ => rfl) fun state h =>
        ⟨d, h, listed, ?_, half.patched.indirect direct, ?_⟩
      · rw [← earlyText_indirect direct]
        exact stored
      · rw [sending_succ, direct, if_neg Bool.false_ne_true, ← transfers]

/-- One struct after the other is sent. -/
theorem sent_pair (fits : r.Fits) (immediate : r.settings.strategy = .immediate) (hk : k < r.count)
    (held : r.stack.Held (2 * r.count) r.hostText v.host) (h : state.Shows kernels r.args v)
    (sent : r.Sent k t v.device) :
    Attains ([2 * k, 2 * k + 1].forM (Region.mapArgument r.settings)) state () fun state =>
      ∃ d, state.Shows kernels r.args { v with device := d } ∧ r.Sent (k + 1) t d := by
  refine attains_forM_cons (sent_struct fits immediate hk held h sent) fun state ⟨d, h, half⟩ => ?_
  exact attains_forM_cons (sent_array (v := { v with device := d }) fits immediate hk held h half)
    fun state holds => attains_forM_nil holds

/-! ## The bulk strategy -/

/-- The copy of a section. -/
def chunk (r : Round) (j : Nat) : Chunk := ⟨r.stack.target j, r.hostText j⟩

/-- The first `n` sections are mapped to blocks of zeros, and their bytes and the first `p` patches wait. -/
structure Waiting (r : Round) (n p used : Nat) (t : TransferStats) (d : DeviceView) (q : TransferQueue) :
    Prop where
  listed : r.stack.Listed n d.mappings
  stored : r.stack.Stored n (fun j => List.replicate (r.stack.part j).size 0) (r.stack.target n) used d.memory
  unpatched : ∀ x, x ∉ d.shadows
  transfers : d.transfers = { t with allocations := t.allocations + n }
  copies : q.copies.map StagedCopy.chunk = (List.range n).map r.chunk
  patches : q.patches = if r.direct then (List.range p).map fun s => (r.patch s).pending else []

theorem Waiting.stage {n p used : Nat} {d : DeviceView} {q : TransferQueue} {m : DeviceMemory}
    (waiting : r.Waiting n p used t d q) (sep : r.stack.Separate (n + 1))
    (stored : r.stack.Stored (n + 1) (fun j => List.replicate (r.stack.part j).size 0)
      (r.stack.target (n + 1)) (used + (r.stack.part n).size) m) :
    r.Waiting (n + 1) p (used + (r.stack.part n).size) t (d.mapped (r.stack.mapping n) m)
      (q.stage (r.stack.target n) (r.hostText n)) := by
  have bytes : (r.hostText n).isEmpty = false := by simpa using hostText_ne_nil
  refine ⟨waiting.listed.insert sep, stored, waiting.unpatched, ?_, ?_, ?_⟩
  · change d.transfers.recordAllocation = _
    rw [waiting.transfers]
    rfl
  · rw [TransferQueue.stage, bytes, if_neg Bool.false_ne_true, List.map_append, waiting.copies,
      List.range_succ, List.map_append]
    rfl
  · rw [TransferQueue.stage, bytes, if_neg Bool.false_ne_true]
    exact waiting.patches

theorem Waiting.reused {n p used : Nat} {d : DeviceView} {q : TransferQueue}
    (waiting : r.Waiting n p used t d q) : r.Waiting n p used t d.reused q :=
  { waiting with listed := waiting.listed.congr rfl }

/-- The next patch waits, if pointers are patched at all. -/
theorem Waiting.suspend {n p used : Nat} {d : DeviceView} {q : TransferQueue}
    (waiting : r.Waiting n p used t d q) :
    r.Waiting n (p + 1) used t d (if r.direct then q.suspend (r.patch p).pending else q) := by
  cases direct : r.direct with
  | true =>
      refine { waiting with patches := ?_ }
      rw [if_pos rfl, if_pos direct, TransferQueue.suspend, waiting.patches, if_pos direct, List.range_succ,
        List.map_append]
      rfl
  | false =>
      refine { waiting with patches := ?_ }
      rw [if_neg Bool.false_ne_true, waiting.patches, direct, if_neg Bool.false_ne_true,
        if_neg Bool.false_ne_true]

/-- One struct after the other is mapped. -/
theorem waiting_pair (fits : r.Fits) (bulk : r.settings.strategy = .bulk) (hk : k < r.count)
    (held : r.stack.Held (2 * r.count) r.hostText v.host) (h : state.Shows kernels r.args v)
    (waiting : r.Waiting (2 * k) k (k * r.workload.pairBytes) t v.device v.queue) :
    Attains ([2 * k, 2 * k + 1].forM (Region.mapArgument r.settings)) state () fun state =>
      ∃ d q, state.Shows kernels r.args { v with device := d, queue := q } ∧
        r.Waiting (2 * (k + 1)) (k + 1) ((k + 1) * r.workload.pairBytes) t d q := by
  have sep := fits.separate_of_le (show 2 * k + 1 + 1 ≤ 2 * r.count by omega)
  have room := fits.room_pair hk
  obtain ⟨m₁, placed₁, stored₁⟩ := waiting.stored.push (sep.nonempty _ (by omega))
    (by rw [size_struct]; omega) rfl fun _ _ => rfl
  have half := waiting.stage (sep.mono (Nat.le_succ _)) stored₁
  obtain ⟨m₂, placed₂, stored₂⟩ := stored₁.push (sep.nonempty _ (by omega))
    (by rw [size_struct, size_array]; exact room) rfl fun _ _ => rfl
  have whole := (half.reused.stage sep stored₂).suspend
  rw [size_struct] at placed₁ whole
  rw [size_array] at placed₂ whole
  have sum : k * r.workload.pairBytes + structBytes + r.workload.arrayBytes =
      (k + 1) * r.workload.pairBytes := by rw [Nat.succ_mul, pairBytes, Nat.add_assoc]
  rw [sum] at whole
  let q₁ := v.queue.stage (r.stack.target (2 * k)) (r.hostText (2 * k))
  let q₂ := q₁.stage (r.stack.target (2 * k + 1)) (r.hostText (2 * k + 1))
  let d₁ := v.device.mapped (r.stack.mapping (2 * k)) m₁
  let d₂ := d₁.reused.mapped (r.stack.mapping (2 * k + 1)) m₂
  refine attains_forM_cons (P := RegionState.Shows kernels r.args { v with device := d₁, queue := q₁ })
    (attains_struct fits hk h waiting.listed held placed₁ fun state h => ?_) fun state h =>
    attains_forM_cons (P := RegionState.Shows kernels r.args
        { v with device := d₂, queue := if r.direct then q₂.suspend (r.patch k).pending else q₂ })
      (attains_array (w := { v with device := d₂, queue := q₂ }) fits hk h half.listed held placed₂
        (fun state h => ?_) (fun state h direct => ?_) fun indirect => ?_) fun state h =>
    attains_forM_nil ⟨d₂, _, h, whole⟩
  · rw [bulk]
    exact attains_stage h
  · rw [bulk]
    exact attains_stage h
  · rw [bulk, direct, if_pos rfl]
    exact attains_suspend h
  · rw [indirect, if_neg Bool.false_ne_true]

/-- What the two batches have cost. -/
def batching (r : Round) (t : TransferStats) : TransferStats :=
  let t := { t with allocations := t.allocations + 2 * r.count }
  if r.count = 0 then t
  else
    let t := t.recordBatch (2 * r.count) (r.count * r.workload.pairBytes)
    if r.direct then t.recordBatch r.count (r.count * Word.bytes) else t

theorem totalLength_append (xs ys : List Chunk) :
    Chunk.totalLength (xs ++ ys) = Chunk.totalLength xs + Chunk.totalLength ys := by
  induction xs with
  | nil => exact (Nat.zero_add _).symm
  | cons c rest ih => rw [List.cons_append, Chunk.totalLength, ih, Chunk.totalLength, Nat.add_assoc]

theorem totalLength_copies (n : Nat) :
    Chunk.totalLength ((List.range (2 * n)).map r.chunk) = n * r.workload.pairBytes := by
  induction n with
  | zero => rw [Nat.zero_mul]; rfl
  | succ n ih =>
      have split : List.range (2 * (n + 1)) = List.range (2 * n) ++ [2 * n, 2 * n + 1] := by
        rw [Nat.mul_succ, List.range_succ, List.range_succ, List.append_assoc]
        rfl
      rw [split, List.map_append, totalLength_append, ih, Nat.succ_mul n]
      congr 1
      change (r.hostText (2 * n)).length + ((r.hostText (2 * n + 1)).length + 0) = _
      rw [length_hostText, length_hostText, size_struct, size_array]
      rfl

/-- The patch of a pointer, as it is sent. -/
def pointerChunk (r : Round) (s : Nat) : Chunk :=
  ⟨r.stack.target (2 * s), Word.toBytes (r.stack.target (2 * s + 1))⟩

theorem totalLength_patches (n : Nat) :
    Chunk.totalLength ((List.range n).map r.pointerChunk) = n * Word.bytes := by
  induction n with
  | zero => rw [Nat.zero_mul]; rfl
  | succ n ih =>
      rw [List.range_succ, List.map_append, totalLength_append, ih, Nat.succ_mul n]
      rfl

/-- The blocks hold what the sections hold on the host. -/
theorem copies_stored {used : Nat} (stored : r.stack.Stored (2 * r.count)
      (fun j => List.replicate (r.stack.part j).size 0) (r.stack.target (2 * r.count)) used m) :
    ∃ m', Accelerator.storeAll m ((List.range (2 * r.count)).map r.chunk) = .ok m' ∧
      r.stack.Stored (2 * r.count) r.hostText (r.stack.target (2 * r.count)) used m' := by
  let contents := fun k j => if j < k then r.hostText j else List.replicate (r.stack.part j).size 0
  have start : r.stack.Stored (2 * r.count) (contents 0) (r.stack.target (2 * r.count)) used m :=
    stored.congr fun j _ => if_neg (Nat.not_lt_zero j)
  have here : ∀ k, contents (k + 1) k =
      (r.hostText k) ++ (contents k k).drop (r.hostText k).length := by
    intro k
    have short : (List.replicate (r.stack.part k).size (0 : UInt8)).length ≤ (r.hostText k).length := by
      rw [List.length_replicate, length_hostText]
    dsimp only [contents]
    rw [if_pos (Nat.lt_succ_self k), if_neg (Nat.lt_irrefl k), List.drop_eq_nil_of_le short, List.append_nil]
  have elsewhere : ∀ k i, i ≠ k → contents (k + 1) i = contents k i := by
    intro k i ne
    exact if_congr (by omega) rfl rfl
  have step : ∀ k < 2 * r.count, ∀ m,
      r.stack.Stored (2 * r.count) (contents k) (r.stack.target (2 * r.count)) used m →
      ∃ m', m.write (r.chunk k).target (r.chunk k).content = .ok m' ∧
        r.stack.Stored (2 * r.count) (contents (k + 1)) (r.stack.target (2 * r.count)) used m' := by
    intro k hk m stored
    obtain ⟨m', ran, stored', -⟩ := stored.write hk hostText_ne_nil (Nat.le_of_eq length_hostText) (here k)
      fun i _ ne => elsewhere k i ne
    exact ⟨m', ran, stored'⟩
  obtain ⟨m', ran, stored'⟩ := start.storeAll step
  exact ⟨m', ran, stored'.congr fun j hj => (if_pos hj).symm⟩

/-- The pointers when the first `k` of them are patched. -/
def patchedUntil (r : Round) (k s : Nat) : Nat :=
  if s < k then r.stack.target (2 * s + 1) else r.buffers.elements s

theorem patchedUntil_succ :
    r.patchedUntil (k + 1) = Function.update (r.patchedUntil k) k (r.stack.target (2 * k + 1)) := by
  funext s
  by_cases same : s = k
  · subst same
    rw [Function.update_self, patchedUntil, if_pos (Nat.lt_succ_self s)]
  · rw [Function.update_of_ne same]
    exact if_congr (by omega) rfl rfl

/-- All pointers point at device copies. -/
theorem patches_stored (direct : r.direct = true) {used : Nat}
    (stored : r.stack.Stored (2 * r.count) r.hostText (r.stack.target (2 * r.count)) used m) :
    ∃ m', Accelerator.storeAll m ((List.range r.count).map r.pointerChunk) = .ok m' ∧
      r.stack.Stored (2 * r.count) r.deviceText (r.stack.target (2 * r.count)) used m' := by
  let contents := fun k => r.workload.text (r.patchedUntil k) fun _ => r.before
  have start : r.stack.Stored (2 * r.count) (contents 0) (r.stack.target (2 * r.count)) used m :=
    stored.congr (text_congr (fun s _ => if_neg (Nat.not_lt_zero s)) fun _ _ => rfl)
  have step : ∀ k < r.count, ∀ m,
      r.stack.Stored (2 * r.count) (contents k) (r.stack.target (2 * r.count)) used m →
      ∃ m', m.write (r.pointerChunk k).target (r.pointerChunk k).content = .ok m' ∧
        r.stack.Stored (2 * r.count) (contents (k + 1)) (r.stack.target (2 * r.count)) used m' := by
    intro k hk m stored
    have next : contents (k + 1) = r.workload.text (Function.update (r.patchedUntil k) k
      (r.stack.target (2 * k + 1))) fun _ => r.before := by rw [← patchedUntil_succ]
    rw [next]
    exact stored_pointer stored (by omega)
  obtain ⟨m', ran, stored'⟩ := start.storeAll step
  refine ⟨m', ran, stored'.congr (text_congr (fun s hs => ?_) fun _ _ => rfl)⟩
  rw [pointer, direct, if_pos rfl, patchedUntil, if_pos hs]

/-- The staged copies lie apart on the device, so that they are sent as they are. -/
theorem Waiting.chunks {n p used : Nat} {d : DeviceView} {q : TransferQueue}
    (waiting : r.Waiting n p used t d q) : StagedCopy.chunks q.copies = (List.range n).map r.chunk := by
  have ordered : ((List.range n).map r.chunk).Pairwise fun c d => c.target + c.content.length < d.target := by
    refine List.pairwise_map.2 (List.pairwise_lt_range.imp fun lt => ?_)
    change r.stack.target _ + (r.hostText _).length < r.stack.target _
    rw [length_hostText]
    exact SectionStack.target_add_lt lt
  rw [← waiting.copies, List.pairwise_map] at ordered
  rw [StagedCopy.chunks_of_apart ordered, waiting.copies]

/-- A patch is resolved to what it would have been at once. -/
theorem resolve_patch (fits : r.Fits) {d : DeviceView} (listed : r.stack.Listed (2 * r.count) d.mappings)
    (hs : s < r.count) : d.resolve? (r.patch s).pending = some (r.shadow s) := by
  have part : r.stack.part (2 * s + 1) = ⟨r.buffers.elements s, r.workload.arrayBytes⟩ := part_array
  have inside := fits.separate.first_lt (show 2 * s + 1 < 2 * r.count by omega)
  have array := listed.lookup fits.separate (show 2 * s + 1 < 2 * r.count by omega) (Nat.le_refl _) inside
    (show (r.stack.part (2 * s + 1)).first + 0 ≤ _ from Nat.le_of_lt inside)
  have target := fits.separate.translate_first (show 2 * s + 1 < 2 * r.count by omega)
  rw [part] at array target
  have slot : d.translate? (r.patch s).pending.hostSlot Word.bytes = some (r.stack.target (2 * s)) := by
    have found := (lookup_slot fits listed (Nat.le_refl _) (show 2 * s < 2 * r.count by omega)).1
    change (d.mappings.lookup (r.buffers.structAddr s) Word.bytes).mapping?.map _ = _
    rw [found]
    exact congrArg some (translate_slot fits hs)
  have pointee : d.translate? (r.patch s).pending.pointee 0 = some (r.stack.target (2 * s + 1)) := by
    change (d.mappings.lookup (r.buffers.elements s) 0).mapping?.map _ = _
    rw [array.1]
    exact congrArg some target
  rw [DeviceView.resolve?, slot, pointee, Option.map_some, Option.elim_some]
  change some (⟨_, _, _, Word.sub (r.stack.target (2 * s + 1)) (Word.sub _ _)⟩ : ShadowPointer) = _
  rw [sub_self (fits.elements_lt hs), sub_zero (fits.target_lt_modulus (by omega))]
  rfl

theorem resolve_patches (fits : r.Fits) {d : DeviceView} (listed : r.stack.Listed (2 * r.count) d.mappings)
    {n : Nat} (le : n ≤ r.count) : ((List.range n).map fun s => (r.patch s).pending).mapM d.resolve? =
      some ((List.range n).map r.shadow) := by
  have each : ∀ items : List Nat, (∀ s ∈ items, s < r.count) →
      (items.map fun s => (r.patch s).pending).mapM d.resolve? = some (items.map r.shadow) := by
    intro items
    induction items with
    | nil => exact fun _ => rfl
    | cons s rest ih =>
        intro inside
        obtain ⟨first, others⟩ := List.forall_mem_cons.1 inside
        rw [List.map_cons, List.mapM_cons, resolve_patch fits listed first, ih others]
        rfl
  exact each _ fun s hs => Nat.lt_of_lt_of_le (List.mem_range.1 hs) le

theorem patched_all {shadows : ShadowTable} (none : ∀ x, x ∉ shadows) (direct : r.direct = true) (n : Nat) :
    r.Patched n (((List.range n).map r.shadow).foldl AddressMap.insert shadows) := by
  induction n with
  | zero => exact fun x => ⟨fun hx => absurd hx (none x), fun ⟨_, _, lt, _⟩ => absurd lt (Nat.not_lt_zero _)⟩
  | succ n ih =>
      rw [List.range_succ, List.map_append, List.foldl_append]
      exact ih.insert direct

/-! ## Entering -/

/-- Nothing is mapped, patched or allocated, and the next block goes to the beginning of the stack. -/
structure Blank (r : Round) (d : DeviceView) : Prop where
  listed : r.stack.Listed 0 d.mappings
  stored : r.stack.Stored 0 r.hostText r.base 0 d.memory
  unpatched : ∀ x, x ∉ d.shadows

/-- What entering has cost. -/
def entering (r : Round) (t : TransferStats) : TransferStats :=
  match r.settings.strategy with
  | .immediate => r.sending r.count t
  | .bulk => r.batching t

/-- All structs and arrays are on the device. -/
structure Entered (r : Round) (t : TransferStats) (d : DeviceView) : Prop where
  listed : r.stack.Listed (2 * r.count) d.mappings
  stored : r.stack.Stored (2 * r.count) r.deviceText (r.stack.target (2 * r.count))
    (r.count * r.workload.pairBytes) d.memory
  patched : r.Patched r.count d.shadows
  transfers : d.transfers = r.entering t

section flush

variable {d : DeviceView} {q : TransferQueue}

/-- The staged copies are sent as one batch. -/
theorem Waiting.sendCopies (kernels : List Kernel) (some : r.count ≠ 0)
    (waiting : r.Waiting (2 * r.count) r.count (r.count * r.workload.pairBytes) t d q) :
    ∃ m summary, r.stack.Stored (2 * r.count) r.hostText (r.stack.target (2 * r.count))
        (r.count * r.workload.pairBytes) m ∧
      ∀ l : Link, l.Shows kernels d → Attains (Device.sendCopies q.copies) l summary (Link.Shows kernels
        { d with
          memory := m
          transfers := d.transfers.recordBatch (2 * r.count) (r.count * r.workload.pairBytes) }) := by
  obtain ⟨m, ran, stored⟩ := copies_stored waiting.stored
  have copies : q.copies ≠ [] := by
    intro none
    have length := congrArg List.length waiting.copies
    rw [none, List.map_nil, List.length_map, List.length_range, List.length_nil] at length
    omega
  refine ⟨m, ⟨2 * r.count, r.count * r.workload.pairBytes⟩, stored, fun l shows => ?_⟩
  have sent := Device.attains_sendCopies shows copies waiting.chunks ran
  rwa [totalLength_copies, List.length_map, List.length_range] at sent

/-- The pending patches are sent as another one. -/
theorem Waiting.sendPatches (kernels : List Kernel) (fits : r.Fits) (some : r.count ≠ 0)
    (direct : r.direct = true)
    (waiting : r.Waiting (2 * r.count) r.count (r.count * r.workload.pairBytes) t d q)
    {d' : DeviceView} (mappings : d'.mappings = d.mappings)
    (stored : r.stack.Stored (2 * r.count) r.hostText (r.stack.target (2 * r.count))
      (r.count * r.workload.pairBytes) d'.memory) :
    ∃ m patched, r.stack.Stored (2 * r.count) r.deviceText (r.stack.target (2 * r.count))
        (r.count * r.workload.pairBytes) m ∧
      ∀ l : Link, l.Shows kernels d' → Attains (Device.sendPatches q.patches) l patched (Link.Shows kernels
        { d' with
          memory := m
          transfers := d'.transfers.recordBatch r.count (r.count * Word.bytes)
          shadows := ((List.range r.count).map r.shadow).foldl AddressMap.insert d'.shadows }) := by
  obtain ⟨m, ran, stored'⟩ := patches_stored direct stored
  have patches : q.patches = (List.range r.count).map fun s => (r.patch s).pending := by
    rw [waiting.patches, direct, if_pos rfl]
  have pending : ((List.range r.count).map fun s => (r.patch s).pending) ≠ [] := by
    intro none
    have length := congrArg List.length none
    rw [List.length_map, List.length_range, List.length_nil] at length
    omega
  have listed : r.stack.Listed (2 * r.count) d'.mappings := mappings ▸ waiting.listed
  refine ⟨m, r.count, stored', fun l shows => ?_⟩
  have sent := Device.attains_sendPatches shows pending (resolve_patches fits listed (Nat.le_refl _))
    (List.map_map : _ = (List.range r.count).map r.pointerChunk) ran
  rwa [totalLength_patches, List.length_map, List.length_map, List.length_range, ← patches] at sent

end flush

/-- Without structs nothing waits. -/
theorem flushed_nothing (zero : r.count = 0) (bulk : r.settings.strategy = .bulk)
    (h : state.Shows kernels r.args v)
    (waiting : r.Waiting (2 * r.count) r.count (r.count * r.workload.pairBytes) t v.device v.queue) :
    ∃ patched d, Attains (transfer Strategy.bulk.flush) state patched
      (RegionState.Shows kernels r.args { v with device := d, queue := {} }) ∧ r.Entered t d := by
  have copies : v.queue.copies = [] := by
    have none := waiting.copies
    rw [zero] at none
    exact List.map_eq_nil_iff.1 none
  have patches : v.queue.patches = [] := by
    rw [waiting.patches, zero]
    exact ite_self _
  have noCopies : ∀ l : Link, l.Shows kernels v.device →
      Attains (Device.sendCopies v.queue.copies) l {} (Link.Shows kernels v.device) := by
    rw [copies]
    exact fun _ => Device.attains_sendCopies_nil
  have noPatches : ∀ l : Link, l.Shows kernels v.device →
      Attains (Device.sendPatches v.queue.patches) l 0 (Link.Shows kernels v.device) := by
    rw [patches]
    exact fun _ => Device.attains_sendPatches_nil
  refine ⟨0, v.device, attains_flush h noCopies noPatches, waiting.listed, ?_,
    fun x => ⟨fun hx => absurd hx (waiting.unpatched x), fun ⟨_, s, hs, _⟩ => ?_⟩, ?_⟩
  · exact waiting.stored.congr fun j hj => by omega
  · omega
  · rw [entering, bulk, batching, if_pos zero, waiting.transfers]

/-- What waits is sent in two batches, of which the second one has the patches. -/
theorem flushed_batches (some : r.count ≠ 0) (fits : r.Fits) (bulk : r.settings.strategy = .bulk)
    (h : state.Shows kernels r.args v)
    (waiting : r.Waiting (2 * r.count) r.count (r.count * r.workload.pairBytes) t v.device v.queue) :
    ∃ patched d, Attains (transfer Strategy.bulk.flush) state patched
      (RegionState.Shows kernels r.args { v with device := d, queue := {} }) ∧ r.Entered t d := by
  obtain ⟨m, summary, stored, copies⟩ := waiting.sendCopies kernels some
  have cost : r.entering t =
      let t' := v.device.transfers.recordBatch (2 * r.count) (r.count * r.workload.pairBytes)
      if r.direct then t'.recordBatch r.count (r.count * Word.bytes) else t' := by
    rw [entering, bulk, batching, if_neg some, waiting.transfers]
  let d : DeviceView := { v.device with
    memory := m
    transfers := v.device.transfers.recordBatch (2 * r.count) (r.count * r.workload.pairBytes) }
  cases direct : r.direct with
  | true =>
      obtain ⟨m', patched, stored', patches⟩ :=
        waiting.sendPatches kernels fits some direct (show d.mappings = _ from rfl) stored
      refine ⟨patched, _, attains_flush h copies patches, waiting.listed, stored',
        patched_all waiting.unpatched direct r.count, ?_⟩
      rw [cost, direct, if_pos rfl]
  | false =>
      have none : v.queue.patches = [] := by rw [waiting.patches, direct, if_neg Bool.false_ne_true]
      refine ⟨0, d, attains_flush h copies fun l shows => ?_, waiting.listed, ?_, ?_, ?_⟩
      · rw [none]
        exact Device.attains_sendPatches_nil shows
      · exact deviceText_indirect direct ▸ stored
      · intro x
        rw [direct]
        exact ⟨fun hx => absurd hx (waiting.unpatched x), fun on => absurd on.1 Bool.false_ne_true⟩
      · rw [cost, direct, if_neg Bool.false_ne_true]

theorem flushed (fits : r.Fits) (bulk : r.settings.strategy = .bulk) (h : state.Shows kernels r.args v)
    (waiting : r.Waiting (2 * r.count) r.count (r.count * r.workload.pairBytes) t v.device v.queue) :
    ∃ patched d, Attains (transfer Strategy.bulk.flush) state patched
      (RegionState.Shows kernels r.args { v with device := d, queue := {} }) ∧ r.Entered t d := by
  by_cases zero : r.count = 0
  · exact flushed_nothing zero bulk h waiting
  · exact flushed_batches zero fits bulk h waiting

theorem Blank.sent {d : DeviceView} (blank : r.Blank d) : r.Sent 0 d.transfers d where
  listed := blank.listed
  stored := by
    rw [Nat.zero_mul]
    exact blank.stored.congr fun _ lt => absurd lt (Nat.not_lt_zero _)
  patched x := ⟨fun hx => absurd hx (blank.unpatched x), fun ⟨_, _, lt, _⟩ => absurd lt (Nat.not_lt_zero _)⟩
  transfers := by simp [sending]

theorem Blank.waiting {d : DeviceView} (blank : r.Blank d) : r.Waiting 0 0 0 d.transfers d {} where
  listed := blank.listed
  stored := blank.stored.congr fun _ lt => absurd lt (Nat.not_lt_zero _)
  unpatched := blank.unpatched
  transfers := rfl
  copies := rfl
  patches := (ite_self _).symm

theorem sent_all (fits : r.Fits) (immediate : r.settings.strategy = .immediate)
    (held : r.stack.Held (2 * r.count) r.hostText v.host) (h : state.Shows kernels r.args v)
    (blank : r.Blank v.device) :
    Attains ((List.range (2 * r.count)).forM (Region.mapArgument r.settings)) state () fun state =>
      ∃ d, state.Shows kernels r.args { v with device := d } ∧ r.Sent r.count v.device.transfers d := by
  refine attains_forM_pairs (I := fun k (state : RegionState) => ∃ d,
    state.Shows kernels r.args { v with device := d } ∧ r.Sent k v.device.transfers d) ⟨v.device, h, blank.sent⟩ fun k hk state ⟨d, h, sent⟩ => ?_
  exact sent_pair (v := { v with device := d }) fits immediate hk held h sent

theorem waiting_all (fits : r.Fits) (bulk : r.settings.strategy = .bulk)
    (held : r.stack.Held (2 * r.count) r.hostText v.host) (h : state.Shows kernels r.args v)
    (queue : v.queue = {}) (blank : r.Blank v.device) :
    Attains ((List.range (2 * r.count)).forM (Region.mapArgument r.settings)) state () fun state =>
      ∃ d q, state.Shows kernels r.args { v with device := d, queue := q } ∧
        r.Waiting (2 * r.count) r.count (r.count * r.workload.pairBytes) v.device.transfers d q := by
  refine attains_forM_pairs (I := fun k (state : RegionState) => ∃ d q, state.Shows kernels r.args
    { v with device := d, queue := q } ∧ r.Waiting (2 * k) k (k * r.workload.pairBytes)
      v.device.transfers d q) ⟨v.device, v.queue, h, ?_⟩ fun k hk state ⟨d, q, h, waiting⟩ => ?_
  · rw [queue, Nat.zero_mul]
    exact blank.waiting
  · exact waiting_pair (v := { v with device := d, queue := q }) fits bulk hk held h waiting

/-- Whatever the strategy, entering takes all structs and arrays to the device. -/
theorem attains_enter (fits : r.Fits) (held : r.stack.Held (2 * r.count) r.hostText v.host)
    (h : state.Shows kernels r.args v) (queue : v.queue = {}) (blank : r.Blank v.device) :
    Attains (Region.enter r.settings) state () fun state =>
      ∃ d, state.Shows kernels r.args { v with device := d } ∧ r.Entered v.device.transfers d := by
  have size : state.arguments.size = 2 * r.count := by
    rw [h.arguments]
    exact size_arguments
  have finish : ∀ {patched : Nat} {state : RegionState} {d : DeviceView},
      state.Shows kernels r.args { v with device := d } → r.Entered v.device.transfers d →
      Attains (if 0 < patched then record r.settings .pointerUpdate else Pure.pure ()) state () fun state =>
        ∃ d, state.Shows kernels r.args { v with device := d } ∧ r.Entered v.device.transfers d := by
    intro patched state d h entered
    split
    · exact (attains_record h).mono fun state h => ⟨d, h, entered⟩
    · exact Attains.pure ⟨d, h, entered⟩
  unfold Region.enter
  refine Attains.bind_get ?_
  rw [size]
  cases strategy : r.settings.strategy with
  | immediate =>
      refine (sent_all fits strategy held h blank).bind fun state ⟨d, h, sent⟩ => ?_
      refine Attains.bind (a := 0) (P := RegionState.Shows kernels r.args { v with device := d })
        ⟨_, rfl, h⟩ fun state h => finish h ⟨sent.listed, sent.stored, sent.patched, ?_⟩
      rw [sent.transfers, entering, strategy]
  | bulk =>
      refine (waiting_all fits strategy held h queue blank).bind fun state ⟨d, q, h, waiting⟩ => ?_
      obtain ⟨patched, d', flushed, entered⟩ :=
        flushed (v := { v with device := d, queue := q }) fits strategy h waiting
      refine flushed.bind fun state h => finish ?_ entered
      rw [← queue] at h
      exact h

end steps

end Round

end Offloading.Workload
