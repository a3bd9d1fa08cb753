import Offloading.Proofs.DevicePointers
import Offloading.Proofs.StructReturn
/-!
# Refreshing sections

What refreshing one section does to host memory and to the copies there are. Bytes that agree with their
copies stay as they are, whichever way the section is moved, and a section that was sent agrees with its
copy. A patched pointer agrees with its copy if the copy holds the device value and the host the value
that is remembered.
-/

namespace Offloading

/-- The address lies in the pointer's slot. -/
def ShadowPointer.Covers (x : ShadowPointer) (addr : Nat) : Prop :=
  x.hostSlot ≤ addr ∧ addr < x.hostSlot + Word.bytes

/-- No two mappings share device bytes, patched pointers do not overlap, and the device slot of each one is
the image of its host slot. -/
structure Device.Coherent (d : Device) : Prop where
  wellFormed : d.mappings.WellFormed
  space : d.mappings.InSpace
  unaliased : d.mappings.Unaliased
  apart : ∀ x ∈ d.shadows, ∀ y ∈ d.shadows, x.hostSlot ≠ y.hostSlot →
    x.hostSlot + Word.bytes ≤ y.hostSlot ∨ y.hostSlot + Word.bytes ≤ x.hostSlot
  imaged : ∀ x ∈ d.shadows, ∃ m ∈ d.mappings, m.contains x.hostSlot = true ∧
    x.deviceSlot = m.translate x.hostSlot

/-- The section lies in a mapping and cuts no patched pointer. -/
structure Device.Whole (d : Device) (first size : Nat) : Prop where
  held : d.mappings.Holds first size
  uncut : ∀ x ∈ d.shadows,
    ¬ (x.hostSlot < first ∧ first < x.hostSlot + Word.bytes) ∧
      ¬ (x.hostSlot < first + size ∧ first + size < x.hostSlot + Word.bytes)

/-- The copy of a host byte is the byte itself, or in a patched pointer the byte of the device value. -/
structure Link.Agrees (l : Link) (host : HostMemory) (addr : Nat) : Prop where
  pointer : ∀ m ∈ l.device.mappings, m.contains addr = true → ∀ x ∈ l.device.shadows, x.Covers addr →
    l.byte? (m.translate addr) = (Word.toBytes x.deviceValue)[addr - x.hostSlot]?
  plain : ∀ m ∈ l.device.mappings, m.contains addr = true → (∀ x ∈ l.device.shadows, ¬ x.Covers addr) →
    l.byte? (m.translate addr) = some (host.byte addr)

namespace Device

variable {d : Device} {m n : Mapping} {x y : ShadowPointer} {first size addr i : Nat}

theorem Coherent.congr {d' : Device} (h : d.Coherent) (mappings : d'.mappings = d.mappings)
    (shadows : d'.shadows = d.shadows) : d'.Coherent := by
  refine ⟨?_, ?_, ?_, ?_, ?_⟩
  · exact mappings ▸ h.wellFormed
  · exact mappings ▸ h.space
  · exact mappings ▸ h.unaliased
  · exact shadows ▸ h.apart
  · exact mappings ▸ shadows ▸ h.imaged

theorem Whole.congr {d' : Device} (h : d.Whole first size) (mappings : d'.mappings = d.mappings)
    (shadows : d'.shadows = d.shadows) : d'.Whole first size :=
  ⟨mappings ▸ h.held, shadows ▸ h.uncut⟩

/-- Two addresses with the same image are the same. -/
theorem Coherent.translate_inj {a b : Nat} (h : d.Coherent) (hm : m ∈ d.mappings) (hn : n ∈ d.mappings)
    (ha : m.contains a = true) (hb : n.contains b = true) (same : m.translate a = n.translate b) : a = b := by
  obtain ⟨lower, upper⟩ := Mapping.contains_iff.1 ha
  obtain ⟨lower', upper'⟩ := Mapping.contains_iff.1 hb
  rw [Mapping.translate_eq (h.space m hm) ha, Mapping.translate_eq (h.space n hn) hb] at same
  obtain ⟨rfl, offset⟩ := h.unaliased.eq hm hn (i := a - m.hostBegin) (j := b - n.hostBegin)
    (by rw [Mapping.length]; omega) (by rw [Mapping.length]; omega) same
  omega

/-- A mapping that holds a section translates the section's bytes one after the other. -/
theorem Coherent.translate_add (h : d.Coherent) (hm : m ∈ d.mappings) (lower : m.hostBegin ≤ first)
    (upper : first + size ≤ m.hostEnd) (hi : i < size) :
    m.contains (first + i) = true ∧ m.translate (first + i) = m.translate first + i := by
  have here : m.contains first = true := Mapping.contains_iff.2 ⟨lower, by omega⟩
  have there : m.contains (first + i) = true := Mapping.contains_iff.2 ⟨by omega, by omega⟩
  refine ⟨there, ?_⟩
  rw [Mapping.translate_eq (h.space m hm) here, Mapping.translate_eq (h.space m hm) there]
  omega

/-- A patched pointer with a byte in a whole section lies in the section. -/
theorem Whole.inside (h : d.Whole first size) (hx : x ∈ d.shadows) (covers : x.Covers addr)
    (lower : first ≤ addr) (upper : addr < first + size) :
    first ≤ x.hostSlot ∧ x.hostSlot + Word.bytes ≤ first + size := by
  obtain ⟨front, back⟩ := h.uncut x hx
  obtain ⟨start, stop⟩ := covers
  constructor
  · exact Nat.le_of_not_lt fun before => front ⟨before, by omega⟩
  · exact Nat.le_of_not_lt fun beyond => back ⟨by omega, beyond⟩

/-- The slots of a whole section are those that are visited when it is moved. -/
theorem Whole.mem_range (h : d.Whole first size) (hx : x ∈ d.shadows) (covers : x.Covers addr)
    (lower : first ≤ addr) (upper : addr < first + size) :
    x ∈ d.shadows.range first (first + size) := by
  obtain ⟨start, stop⟩ := h.inside hx covers lower upper
  have wide : Word.bytes = 8 := rfl
  refine AddressMap.mem_range.2 ⟨hx, ?_⟩
  change first ≤ x.hostSlot ∧ x.hostSlot < first + size
  omega

/-- The visited slots of a whole section lie in it. -/
theorem Whole.of_mem_range (h : d.Whole first size) (hx : x ∈ d.shadows.range first (first + size)) :
    x ∈ d.shadows ∧ first ≤ x.hostSlot ∧ x.hostSlot + Word.bytes ≤ first + size := by
  obtain ⟨held, lower, upper⟩ := AddressMap.mem_range.1 hx
  have covers : x.Covers x.hostSlot := ⟨Nat.le_refl _, Nat.lt_add_of_pos_right (by decide)⟩
  exact ⟨held, h.inside held covers lower upper⟩

/-- At most one patched pointer has a byte at an address. -/
theorem Coherent.covers_unique (h : d.Coherent) (hx : x ∈ d.shadows) (hy : y ∈ d.shadows)
    (cx : x.Covers addr) (cy : y.Covers addr) : x = y := by
  obtain ⟨lower, upper⟩ := cx
  obtain ⟨lower', upper'⟩ := cy
  by_cases same : x.hostSlot = y.hostSlot
  · exact AddressMap.eq_of_address_eq hx hy same
  · have := h.apart x hx y hy same
    omega

end Device

/-! ## The host's side -/

namespace HostMemory

variable {d : Device} {host : HostMemory} {content : List UInt8} {first size addr : Nat}

/-- A section is fetched: its bytes are overwritten, and then the pointers in it are put back. -/
def fetched (host : HostMemory) (d : Device) (first : Nat) (content : List UInt8) (size : Nat) : HostMemory :=
  (host.write first content).restored (d.shadows.range first (first + size))

variable (whole : d.Whole first size)
  (recorded : ∀ x ∈ d.shadows, x.hostValue = host.readPointer x.hostSlot) (length : content.length = size)

include whole recorded length

omit whole in
/-- A byte of the section is the fetched one, unless it belongs to a patched pointer. -/
theorem byte_fetched (lower : first ≤ addr) (upper : addr < first + size)
    (plain : ∀ x ∈ d.shadows, ¬ x.Covers addr) :
    content[addr - first]? = some ((host.fetched d first content size).byte addr) := by
  have origin : ∀ x ∈ d.shadows.range first (first + size), x.hostValue = host.readPointer x.hostSlot :=
    fun x hx => recorded x (AddressMap.mem_range.1 hx).1
  have visited := byte_restored_of_origin (m := host.write first content) host origin addr
  rcases visited with ⟨⟨x, hx, covers⟩, -⟩ | ⟨-, same⟩
  · exact absurd covers (plain x (AddressMap.mem_range.1 hx).1)
  · rw [fetched, same]
    have inside : addr - first < content.length := by omega
    rw [byte_write_inside inside, Nat.add_sub_cancel' lower]

/-- Bytes of patched pointers and bytes outside of the section stay. -/
theorem byte_fetched_kept (kept : (addr < first ∨ first + size ≤ addr) ∨ ∃ x ∈ d.shadows, x.Covers addr) :
    (host.fetched d first content size).byte addr = host.byte addr := by
  have origin : ∀ x ∈ d.shadows.range first (first + size), x.hostValue = host.readPointer x.hostSlot :=
    fun x hx => recorded x (AddressMap.mem_range.1 hx).1
  have visited := byte_restored_of_origin (m := host.write first content) host origin addr
  rcases visited with ⟨-, same⟩ | ⟨missed, same⟩
  · exact same
  · have outside : addr < first ∨ first + size ≤ addr := by
      rcases kept with outside | ⟨x, hx, covers⟩
      · exact outside
      · refine Classical.byContradiction fun inside => ?_
        refine missed x (whole.mem_range hx covers (by omega) (by omega)) covers
    rw [fetched, same]
    exact byte_write_outside (by omega)

end HostMemory

/-! ## The device's side -/

namespace Link

variable {l l₁ l' : Link} {xs ys : List Chunk}

theorem Stored.append (h : l.Stored l₁ xs) (h' : l₁.Stored l' ys) : l.Stored l' (xs ++ ys) where
  confined := Lasting.trans h.confined h'.confined
  shadows := h'.shadows.trans h.shadows
  bytes addr := by rw [h'.bytes, h.bytes, Chunk.written_append, Option.or_assoc]
  inside addr some := by
    rw [Chunk.written_append, Option.isSome_or, Bool.or_eq_true] at some
    rcases some with some | some
    · have before := h'.inside addr some
      rw [h.bytes, Option.isSome_or, Bool.or_eq_true] at before
      exact before.elim (h.inside addr) id
    · exact h.inside addr some

end Link

/-- Pointers that are patched again are stored one after the other. -/
theorem Device.stored_submits {l l' : Link} {xs : List ShadowPointer} {u : Unit}
    (wf : l.accelerator.WellFormed)
    (sent : Returns (xs.forM fun x => Device.submit x.deviceSlot (Word.toBytes x.deviceValue)) l u l') :
    l.Stored l' (xs.map ShadowPointer.chunk) := by
  induction xs generalizing l with
  | nil =>
      obtain ⟨-, rfl⟩ := returns_pure.1 sent
      exact (Link.Counted.refl _).stored fun _ => rfl
  | cons x rest ih =>
      obtain ⟨l₁, first, more⟩ := returns_forM_cons.1 sent
      exact (Device.stored_submit wf first).append (ih ((Device.along_submit.returns first).wellFormed wf) more)

section sent

variable {d : Device} {m : Mapping} {x : ShadowPointer} {first size i addr : Nat} {content : List UInt8}

/-- What is stored when a section is sent: its bytes, and then the device values of the pointers in it. -/
def Device.parcel (d : Device) (m : Mapping) (first size : Nat) (content : List UInt8) : List Chunk :=
  ⟨m.translate first, content⟩ :: (d.shadows.range first (first + size)).map ShadowPointer.chunk

variable (h : d.Coherent) (whole : d.Whole first size) (hm : m ∈ d.mappings)
  (lower : m.hostBegin ≤ first) (upper : first + size ≤ m.hostEnd)

include h whole hm lower upper

/-- The copy of a patched pointer is as far into the copy of the section as the pointer into the section. -/
theorem Device.Coherent.deviceSlot_eq (hx : x ∈ d.shadows.range first (first + size)) :
    x.deviceSlot = m.translate first + (x.hostSlot - first) := by
  obtain ⟨held, start, stop⟩ := whole.of_mem_range hx
  obtain ⟨n, hn, inside, image⟩ := h.imaged x held
  have wide : Word.bytes = 8 := rfl
  obtain ⟨inside', place⟩ := h.translate_add hm lower upper (i := x.hostSlot - first) (by omega)
  rw [Nat.add_sub_cancel' start] at inside' place
  have bound := (h.space m hm).host
  have := (Mapping.contains_iff.1 inside').2
  rw [image, h.wellFormed.unique hn hm inside inside' (by omega), place]

theorem Device.Coherent.chunk_byte? (hx : x ∈ d.shadows.range first (first + size)) {v : UInt8} :
    x.chunk.byte? addr = some v ↔ m.translate first ≤ addr ∧
      x.Covers (first + (addr - m.translate first)) ∧
      (Word.toBytes x.deviceValue)[first + (addr - m.translate first) - x.hostSlot]? = some v := by
  have place := h.deviceSlot_eq whole hm lower upper hx
  obtain ⟨-, start, -⟩ := whole.of_mem_range hx
  rw [Chunk.byte?_eq_some_iff]
  dsimp only [ShadowPointer.chunk]
  constructor
  · rintro ⟨above, byte⟩
    have bound := (List.getElem?_eq_some_iff.1 byte).1
    rw [Word.length_toBytes] at bound
    have offset : first + (addr - m.translate first) - x.hostSlot = addr - x.deviceSlot := by omega
    refine ⟨by omega, ⟨by omega, ?_⟩, offset ▸ byte⟩
    rw [Word.bytes]
    omega
  · rintro ⟨above, ⟨from_, -⟩, byte⟩
    have offset : first + (addr - m.translate first) - x.hostSlot = addr - x.deviceSlot := by omega
    exact ⟨by omega, offset ▸ byte⟩

theorem Device.Coherent.shows_slots {v : UInt8} :
    Chunk.Shows ((d.shadows.range first (first + size)).map ShadowPointer.chunk) addr v ↔
      m.translate first ≤ addr ∧ ∃ x ∈ d.shadows.range first (first + size),
        x.Covers (first + (addr - m.translate first)) ∧
          (Word.toBytes x.deviceValue)[first + (addr - m.translate first) - x.hostSlot]? = some v := by
  rw [Chunk.Shows]
  constructor
  · rintro ⟨c, hc, byte⟩
    obtain ⟨x, hx, rfl⟩ := List.mem_map.1 hc
    obtain ⟨above, covers, value⟩ := (h.chunk_byte? whole hm lower upper hx).1 byte
    exact ⟨above, x, hx, covers, value⟩
  · rintro ⟨above, x, hx, covers, value⟩
    exact ⟨x.chunk, List.mem_map_of_mem hx, (h.chunk_byte? whole hm lower upper hx).2 ⟨above, covers, value⟩⟩

/-- Where the pointers of a section are stored does not depend on their order. -/
theorem Device.Coherent.consistent_slots :
    Chunk.Consistent ((d.shadows.range first (first + size)).map ShadowPointer.chunk) := by
  intro addr v w hv hw
  obtain ⟨-, x, hx, covers, value⟩ := (h.shows_slots whole hm lower upper).1 hv
  obtain ⟨-, y, hy, covers', value'⟩ := (h.shows_slots whole hm lower upper).1 hw
  obtain rfl := h.covers_unique (AddressMap.mem_range.1 hx).1 (AddressMap.mem_range.1 hy).1 covers covers'
  rw [value, Option.some.injEq] at value'
  exact value'

/-- A byte of the section that belongs to a pointer is stored as that of the device value. -/
theorem Device.Coherent.written_pointer (content : List UInt8) (hi : i < size) (hx : x ∈ d.shadows)
    (covers : x.Covers (first + i)) :
    Chunk.written (d.parcel m first size content) (m.translate first + i) =
      (Word.toBytes x.deviceValue)[first + i - x.hostSlot]? := by
  have within : first + i - x.hostSlot < (Word.toBytes x.deviceValue).length := by
    obtain ⟨start, stop⟩ := covers
    rw [Word.bytes] at stop
    rw [Word.length_toBytes]
    omega
  have held := whole.mem_range hx covers (Nat.le_add_right _ _) (by omega)
  have shown : Chunk.Shows ((d.shadows.range first (first + size)).map ShadowPointer.chunk)
      (m.translate first + i) (Word.toBytes x.deviceValue)[first + i - x.hostSlot] := by
    rw [h.shows_slots whole hm lower upper, Nat.add_sub_cancel_left]
    exact ⟨Nat.le_add_right _ _, x, held, covers, List.getElem?_eq_getElem within⟩
  have wrote := (h.consistent_slots whole hm lower upper).written_eq_some_iff.2 shown
  rw [parcel, Chunk.written, wrote, Option.some_or, List.getElem?_eq_getElem within]

/-- Another byte of the section is stored as it is. -/
theorem Device.Coherent.written_plain (content : List UInt8) (plain : ∀ x ∈ d.shadows, ¬ x.Covers (first + i)) :
    Chunk.written (d.parcel m first size content) (m.translate first + i) = content[i]? := by
  have unshown : Chunk.written ((d.shadows.range first (first + size)).map ShadowPointer.chunk)
      (m.translate first + i) = none := by
    refine Option.eq_none_iff_forall_ne_some.2 fun v wrote => ?_
    obtain ⟨-, x, hx, covers, -⟩ := (h.shows_slots whole hm lower upper).1 (Chunk.shows_of_written wrote)
    rw [Nat.add_sub_cancel_left] at covers
    exact plain x (AddressMap.mem_range.1 hx).1 covers
  rw [parcel, Chunk.written, unshown, Option.none_or, Chunk.byte?, if_pos (Nat.le_add_right _ _),
    Nat.add_sub_cancel_left]

/-- Nothing is stored outside of the section's copy. -/
theorem Device.Coherent.written_outside (length : content.length = size)
    (outside : addr < m.translate first ∨ m.translate first + size ≤ addr) :
    Chunk.written (d.parcel m first size content) addr = none := by
  have unshown : Chunk.written ((d.shadows.range first (first + size)).map ShadowPointer.chunk) addr = none := by
    refine Option.eq_none_iff_forall_ne_some.2 fun v wrote => ?_
    obtain ⟨above, x, hx, ⟨-, covers⟩, -⟩ :=
      (h.shows_slots whole hm lower upper).1 (Chunk.shows_of_written wrote)
    obtain ⟨-, -, stop⟩ := whole.of_mem_range hx
    omega
  rw [parcel, Chunk.written, unshown, Option.none_or]
  refine Chunk.byte?_eq_none fun inside => ?_
  have := inside.1
  have := inside.2
  simp only at *
  omega

end sent

namespace Region

open RegionM

variable {region : Argument} {s s₁ s' : RegionState} {m : Mapping} {target addr : Nat} {b : Bool} {u : Unit}

/-! ## One section -/

/-- Copies a section from the device and puts the pointers in it back. -/
def fetch (region : Argument) (target : Nat) : RegionM Unit := do
  writeHost region.start (← onDevice (Device.retrieve target region.size))
  restorePointers (← onDevice (Device.visitShadows region.start (region.start + region.size) false))

/-- Copies a section to the device and patches the pointers in it again. -/
def send (region : Argument) (target : Nat) : RegionM Unit := do
  onDevice (Device.submit target (← readHost region.start region.size))
  let _ ← onDevice (Device.resubmitShadows region.start (region.start + region.size))

/-- A section that is mapped is fetched first and then sent, as its flags say. -/
theorem exec_refreshRegion (mapped : region.isMapped = true)
    (found : (s.activation.link.device.mappings.lookup region.start region.size).mapping? = some m) :
    exec (refreshRegion region) s = exec
      ((if region.mapType.has .fromDevice then fetch region (m.translate region.start) else pure ()) >>=
        fun _ => (if region.mapType.has .toDevice then send region (m.translate region.start) else pure ()) >>=
          fun _ => pure true) s := by
  have translated : s.activation.link.device.translate? region.start region.size =
      some (m.translate region.start) := by rw [Device.translate?, found, Option.map_some]
  rw [refreshRegion, mapped, Bool.not_true, if_neg Bool.false_ne_true]
  dsimp only
  rw [exec_device_bind, translated]
  cases region.mapType.has .fromDevice <;> cases region.mapType.has .toDevice <;>
    simp [fetch, send]

theorem along_send {H : HostMemory → HostMemory → Prop} [Lasting H] :
    Along (Step Link.Transferred H) (send region target) :=
  along_readHost.bind fun _ => (along_onDevice Device.along_submit).bind fun _ =>
    (along_onDevice Device.along_resubmitShadows).bind fun _ => Along.pure

/-- The device is coherent, and patched pointers are remembered as the host has them. -/
structure Coherent (s : RegionState) : Prop where
  accelerator : s.activation.link.accelerator.WellFormed
  device : s.activation.link.device.Coherent
  recorded : ∀ x ∈ s.activation.link.device.shadows, x.hostValue = s.host.readPointer x.hostSlot

/-- Moving a section changes the host within the section at most, and no byte that agrees with its copy.
Bytes that agree still do so afterwards. -/
structure Preserves (first size : Nat) (s s' : RegionState) : Prop where
  coherent : Coherent s'
  link : s.activation.link.Transferred s'.activation.link
  arguments : s'.arguments = s.arguments
  outside : ∀ addr, addr < first ∨ first + size ≤ addr → s'.host.byte addr = s.host.byte addr
  steady : ∀ addr, s.activation.link.Agrees s.host addr → s'.host.byte addr = s.host.byte addr
  agrees : ∀ addr, s.activation.link.Agrees s.host addr → s'.activation.link.Agrees s'.host addr

variable {first size : Nat}

theorem Preserves.refl (h : Coherent s) : Preserves first size s s :=
  ⟨h, Lasting.refl _, rfl, fun _ _ => rfl, fun _ _ => rfl, fun _ h => h⟩

theorem Preserves.trans (h : Preserves first size s s₁) (h' : Preserves first size s₁ s') :
    Preserves first size s s' where
  coherent := h'.coherent
  link := Lasting.trans h.link h'.link
  arguments := h'.arguments.trans h.arguments
  outside addr away := (h'.outside addr away).trans (h.outside addr away)
  steady addr agrees := (h'.steady addr (h.agrees addr agrees)).trans (h.steady addr agrees)
  agrees addr agrees := h'.agrees addr (h.agrees addr agrees)

end Region

namespace Link

variable {l l' : Link} {host host' : HostMemory} {addr : Nat}

theorem Transferred.shadows (h : l.Transferred l') : l'.device.shadows = l.device.shadows :=
  h.extended.shadows

theorem Agrees.congr (h : l.Agrees host addr) (mappings : l'.device.mappings = l.device.mappings)
    (shadows : l'.device.shadows = l.device.shadows)
    (bytes : ∀ m ∈ l.device.mappings, m.contains addr = true →
      l'.byte? (m.translate addr) = l.byte? (m.translate addr))
    (same : host'.byte addr = host.byte addr) : l'.Agrees host' addr := by
  refine ⟨fun m hm inside x hx covers => ?_, fun m hm inside plain => ?_⟩
  · rw [mappings] at hm
    rw [shadows] at hx
    rw [bytes m hm inside]
    exact h.pointer m hm inside x hx covers
  · rw [mappings] at hm
    rw [shadows] at plain
    rw [bytes m hm inside, same]
    exact h.plain m hm inside plain

end Link

/-- A section that was retrieved has the bytes of the device. -/
theorem Device.bytes_of_retrieve {l l' : Link} {target size : Nat} {content : List UInt8}
    (wf : l.accelerator.WellFormed) (h : Returns (Device.retrieve target size) l content l') :
    content.length = size ∧ ∀ i < size, l.byte? (target + i) = content[i]? := by
  rcases (Device.returns_retrieve h).1 with ⟨rfl, rfl⟩ | ⟨k, before, read⟩
  · exact ⟨rfl, fun i hi => absurd hi (Nat.not_lt_zero i)⟩
  · obtain ⟨length, bytes⟩ := (wf.memory before).read_eq_ok read
    exact ⟨length, fun i hi => by rw [← bytes i hi, Link.byte?_of_memory? before]⟩

namespace Region

open RegionM

variable {region : Argument} {s s' : RegionState} {m : Mapping} {u : Unit}
  (h : Coherent s) (whole : s.activation.link.device.Whole region.start region.size)
  (hm : m ∈ s.activation.link.device.mappings) (lower : m.hostBegin ≤ region.start)
  (upper : region.start + region.size ≤ m.hostEnd)

include h whole hm lower upper

omit h whole hm lower upper in
theorem returns_fetch {target : Nat} (ran : Returns (fetch region target) s u s') : ∃ content l,
    Returns (Device.retrieve target region.size) s.activation.link content l ∧
      s' = { s.withLink l with
        host := s.host.fetched s.activation.link.device region.start content region.size } := by
  obtain ⟨content, s₁, fetched, ran⟩ := returns_bind.1 ran
  obtain ⟨l, retrieved, rfl⟩ := lifts_onDevice.returns.1 fetched
  obtain ⟨_, s₂, wrote, ran⟩ := returns_bind.1 ran
  obtain rfl := returns_modify.1 wrote
  obtain ⟨visited, s₃, looked, ran⟩ := returns_bind.1 ran
  obtain ⟨l', visiting, rfl⟩ := lifts_onDevice.returns.1 looked
  obtain ⟨rfl, rfl⟩ := Device.returns_visitShadows visiting
  rw [Returns, exec_restorePointers, Prod.mk.injEq] at ran
  obtain ⟨-, rfl⟩ := ran
  refine ⟨content, l, retrieved, ?_⟩
  rw [HostMemory.fetched, ← (Device.along_retrieve.returns retrieved).shadows]
  rfl

/-- A section that is fetched changes no byte that agrees with its copy. -/
theorem preserves_fetch (ran : Returns (fetch region (m.translate region.start)) s u s') :
    Preserves region.start region.size s s' := by
  obtain ⟨content, l, retrieved, rfl⟩ := returns_fetch ran
  obtain ⟨length, bytes⟩ := Device.bytes_of_retrieve h.accelerator retrieved
  have moved := Device.along_retrieve.returns retrieved
  have same := (Device.returns_retrieve retrieved).2.memory?
  have kept : ∀ addr, ((addr < region.start ∨ region.start + region.size ≤ addr) ∨
      ∃ x ∈ s.activation.link.device.shadows, x.Covers addr) → _ :=
    fun _ => HostMemory.byte_fetched_kept whole h.recorded length
  have steady : ∀ addr, s.activation.link.Agrees s.host addr →
      (s.host.fetched s.activation.link.device region.start content region.size).byte addr =
        s.host.byte addr := by
    intro addr agrees
    by_cases outside : addr < region.start ∨ region.start + region.size ≤ addr
    · exact kept addr (.inl outside)
    by_cases covered : ∃ x ∈ s.activation.link.device.shadows, x.Covers addr
    · exact kept addr (.inr covered)
    · have plain : ∀ x ∈ s.activation.link.device.shadows, ¬ x.Covers addr :=
        fun x hx covers => covered ⟨x, hx, covers⟩
      have offset : region.start + (addr - region.start) = addr := by omega
      obtain ⟨inside, place⟩ := h.device.translate_add hm lower upper (i := addr - region.start) (by omega)
      rw [offset] at inside place
      have lower : region.start ≤ addr := by omega
      have here := HostMemory.byte_fetched h.recorded length lower (by omega) plain
      rw [← bytes (addr - region.start) (by omega), ← place, agrees.plain m hm inside plain,
        Option.some.injEq] at here
      exact here.symm
  refine ⟨⟨moved.wellFormed h.accelerator, h.device.congr moved.still.mappings moved.shadows, ?_⟩, moved,
    rfl, fun addr outside => kept addr (.inl outside), steady, fun addr agrees => ?_⟩
  · -- a pointer keeps its host value byte by byte
    change ∀ x ∈ l.device.shadows, x.hostValue = HostMemory.readPointer _ x.hostSlot
    rw [moved.shadows]
    intro x hx
    rw [h.recorded x hx]
    refine (HostMemory.readPointer_congr fun i hi => kept _ (.inr ⟨x, hx, ?_⟩)).symm
    exact ⟨Nat.le_add_right _ _, Nat.add_lt_add_left hi _⟩
  · exact agrees.congr moved.still.mappings moved.shadows (fun m _ _ => Link.byte?_congr same)
      (steady addr agrees)

omit whole hm lower upper in
/-- What is sent is stored in the copy of the section, with the pointers patched in it. -/
theorem stored_send (ran : Returns (send region (m.translate region.start)) s u s') : ∃ l,
    s' = s.withLink l ∧ s.activation.link.Transferred l ∧
      s.activation.link.Stored l (s.activation.link.device.parcel m region.start region.size
        (s.host.read region.start region.size)) := by
  obtain ⟨content, s₁, read, ran⟩ := returns_bind.1 ran
  obtain ⟨rfl, rfl⟩ := returns_pure.1 read
  obtain ⟨_, s₂, sent, ran⟩ := returns_bind.1 ran
  obtain ⟨l₁, submitted, rfl⟩ := lifts_onDevice.returns.1 sent
  obtain ⟨n, s₃, patched, done⟩ := returns_bind.1 ran
  obtain ⟨l₂, resubmitted, rfl⟩ := lifts_onDevice.returns.1 patched
  obtain ⟨-, rfl⟩ := returns_pure.1 done
  have first := Device.along_submit.returns submitted
  have stored := Device.stored_submit h.accelerator submitted
  obtain ⟨-, again⟩ := Device.returns_resubmitShadows resubmitted
  change Returns (List.forM (l₁.device.shadows.range _ _) _) l₁ () l₂ at again
  rw [first.shadows] at again
  refine ⟨l₂, rfl, Lasting.trans first (Device.along_resubmitShadows.returns resubmitted), ?_⟩
  exact stored.append (Device.stored_submits (first.wellFormed h.accelerator) again)

/-- A section that was sent agrees with its copy. -/
theorem preserves_send (ran : Returns (send region (m.translate region.start)) s u s') :
    Preserves region.start region.size s s' ∧ ∀ addr, region.start ≤ addr →
      addr < region.start + region.size → s'.activation.link.Agrees s'.host addr := by
  obtain ⟨l, rfl, moved, stored⟩ := stored_send h ran
  have mappings : l.device.mappings = s.activation.link.device.mappings := moved.still.mappings
  have length := HostMemory.length_read s.host region.start region.size
  have sent : ∀ addr, region.start ≤ addr → addr < region.start + region.size → l.Agrees s.host addr := by
    intro addr first last
    have offset : region.start + (addr - region.start) = addr := by omega
    obtain ⟨inside, place⟩ := h.device.translate_add hm lower upper (i := addr - region.start) (by omega)
    rw [offset] at inside place
    have same : ∀ n ∈ l.device.mappings, n.contains addr = true → n = m := by
      intro n hn inside'
      rw [mappings] at hn
      have bound := (h.device.space m hm).host
      have := (Mapping.contains_iff.1 inside).2
      exact h.device.wellFormed.unique hn hm inside' inside (by omega)
    refine ⟨fun n hn inside' x hx covers => ?_, fun n hn inside' plain => ?_⟩
    · rw [moved.shadows] at hx
      have wrote := h.device.written_pointer whole hm lower upper (s.host.read region.start region.size)
        (i := addr - region.start) (by omega) hx (offset.symm ▸ covers)
      rw [offset, ← place] at wrote
      have value : addr - x.hostSlot < (Word.toBytes x.deviceValue).length := by
        have := covers.1
        have := covers.2
        rw [Word.bytes] at this
        rw [Word.length_toBytes]
        omega
      rw [same n hn inside', stored.bytes, wrote, List.getElem?_eq_getElem value, Option.some_or]
    · rw [moved.shadows] at plain
      have wrote := h.device.written_plain whole hm lower upper (s.host.read region.start region.size)
        (i := addr - region.start) (offset.symm ▸ plain)
      rw [HostMemory.getElem?_read (by omega), offset, ← place] at wrote
      rw [same n hn inside', stored.bytes, wrote, Option.some_or]
  refine ⟨⟨⟨moved.wellFormed h.accelerator, h.device.congr mappings moved.shadows, ?_⟩, moved, rfl,
    fun _ _ => rfl, fun _ _ => rfl, fun addr agrees => ?_⟩, sent⟩
  · change ∀ x ∈ l.device.shadows, _
    rw [moved.shadows]
    exact h.recorded
  · by_cases inside : region.start ≤ addr ∧ addr < region.start + region.size
    · exact sent addr inside.1 inside.2
    · refine agrees.congr mappings moved.shadows (fun n hn holds => ?_) rfl
      have away : n.translate addr < m.translate region.start ∨
          m.translate region.start + region.size ≤ n.translate addr := by
        refine Classical.byContradiction fun meets => inside ?_
        obtain ⟨there, place⟩ := h.device.translate_add hm lower upper
          (i := n.translate addr - m.translate region.start) (by omega)
        have := h.device.translate_inj hn hm holds there (by omega)
        omega
      change l.byte? _ = _
      rw [stored.bytes, h.device.written_outside whole hm lower upper length away, Option.none_or]

end Region

namespace Region

open RegionM

variable {region : Argument} {s s' : RegionState} {m : Mapping} {b : Bool} {first size : Nat}

/-- The mapping that a whole section is looked up in holds it. -/
theorem Coherent.mapping_of_lookup (h : Coherent s) (whole : s.activation.link.device.Whole first size)
    (found : (s.activation.link.device.mappings.lookup first size).mapping? = some m) :
    m ∈ s.activation.link.device.mappings ∧ m.hostBegin ≤ first ∧ first + size ≤ m.hostEnd := by
  obtain ⟨n, hn, lower, upper⟩ := whole.held
  have hm := MappingTable.mem_of_lookup found
  refine ⟨hm, ?_⟩
  by_cases empty : size = 0
  · subst empty
    obtain ⟨-, inside⟩ := MappingTable.containing?_mem (MappingTable.containing?_of_lookup_zero found)
    obtain ⟨start, stop⟩ := Mapping.contains_iff.1 inside
    exact ⟨start, Nat.le_of_lt stop⟩
  · have bound := (h.device.space n hn).host
    have inside : n.contains first = true := Mapping.contains_iff.2 ⟨lower, by omega⟩
    have here := h.device.wellFormed.containing?_eq hn inside (by omega)
    rw [MappingTable.lookup_of_containing? here, Option.some.injEq] at found
    exact found ▸ ⟨lower, upper⟩

/-- Refreshing a whole section keeps what agrees, and what is sent agrees afterwards. -/
theorem preserves_refreshRegion (h : Coherent s) (mapped : region.isMapped = true)
    (whole : s.activation.link.device.Whole region.start region.size)
    (ran : Returns (refreshRegion region) s b s') :
    Preserves region.start region.size s s' ∧ (region.mapType.has .toDevice = true → ∀ addr,
      region.start ≤ addr → addr < region.start + region.size → s'.activation.link.Agrees s'.host addr) := by
  cases found : (s.activation.link.device.mappings.lookup region.start region.size).mapping? with
  | none =>
      obtain ⟨rfl, empty⟩ : s' = s ∧ region.size = 0 := by
        refine ⟨?_, ?_⟩
        · have missed : s.activation.link.device.translate? region.start region.size = none := by
            rw [Device.translate?, found, Option.map_none]
          rw [refreshRegion, mapped, Bool.not_true, if_neg Bool.false_ne_true] at ran
          dsimp only at ran
          rw [returns_device_bind, missed] at ran
          exact (returns_pure.1 ran).2
        · refine Classical.byContradiction fun filled => ?_
          obtain ⟨n, hn, lower, upper⟩ := whole.held
          have bound := (h.device.space n hn).host
          rcases h.device.wellFormed.lookup_none_apart found hn with ⟨-, away⟩ | ⟨after, -⟩
          · have := away (by omega)
            omega
          · omega
      exact ⟨.refl h, fun _ addr first last => by omega⟩
  | some m =>
      obtain ⟨hm, lower, upper⟩ := h.mapping_of_lookup whole found
      rw [Returns, exec_refreshRegion mapped found] at ran
      obtain ⟨_, s₁, fetched, ran⟩ := returns_bind.1 ran
      obtain ⟨_, s₂, sent, done⟩ := returns_bind.1 ran
      obtain ⟨-, rfl⟩ := returns_pure.1 done
      have first : Preserves region.start region.size s s₁ := by
        split at fetched
        · exact preserves_fetch h whole hm lower upper fetched
        · rw [(returns_pure.1 fetched).2]
          exact .refl h
      have mappings := first.link.still.mappings
      have whole₁ := whole.congr mappings first.link.shadows
      split at sent
      · obtain ⟨second, agrees⟩ := preserves_send first.coherent whole₁ (mappings ▸ hm) lower upper sent
        exact ⟨first.trans second, fun _ => agrees⟩
      · rename_i unsent
        rw [(returns_pure.1 sent).2]
        exact ⟨first, fun inbound => absurd inbound unsent⟩

end Region

end Offloading
