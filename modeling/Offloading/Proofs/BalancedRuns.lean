import Offloading.Proofs.Moves
/-!
# The balance of runs

Programs use devices through the calls of a platform, and they may work on a device themselves. As long
as they do not reach for an accelerator behind the back of its devices, what each device counts is in
balance at any time, whichever calls to the accelerators fail.
-/

namespace Offloading

/-- An operation of a program on a device. -/
inductive DeviceUse where
  | operate (op : DeviceOperation)
  | prepare
  | allocate (size : Nat)
  | free (addr : Nat)
  | associate (first target size : Nat)
  | disassociate (first : Nat)
  | mapGlobal (first target size : Nat)
  | patch (shadow : ShadowPointer)
  | resubmitShadows (lower upper : Nat)
  | pushTripCount (n : Nat)
  | takeTripCount
  /-- Sends the copies of a queue. -/
  | sendCopies (copies : List StagedCopy)
  /-- Sends the pointer patches of a queue. -/
  | sendPatches (patches : List PendingPatch)
  | uploadAddressTable (t : AddressTable)
  | uploadOffsetList (list : OffsetList)

namespace Link

variable {l : Link}

/-- The device and its accelerator after a program worked on the device, with success or not. -/
def used (l : Link) : DeviceUse → Link
  | .operate op => l.after op
  | .prepare => (exec Device.prepare l).2
  | .allocate size => (exec (Device.allocate size) l).2
  | .free addr => (exec (Device.free addr) l).2
  | .associate first target size => (exec (Device.associate first target size) l).2
  | .disassociate first => (exec (Device.disassociate first) l).2
  | .mapGlobal first target size => (exec (Device.mapGlobal first target size) l).2
  | .patch shadow => (exec (Device.patch shadow) l).2
  | .resubmitShadows lower upper => (exec (Device.resubmitShadows lower upper) l).2
  | .pushTripCount n => (exec (Device.pushTripCount n) l).2
  | .takeTripCount => (exec Device.takeTripCount l).2
  | .sendCopies copies => (exec (Device.sendCopies copies) l).2
  | .sendPatches patches => (exec (Device.sendPatches patches) l).2
  | .uploadAddressTable t => (exec (Device.uploadAddressTable t) l).2
  | .uploadOffsetList list => (exec (Device.uploadOffsetList list) l).2

theorem settles_used (use : DeviceUse) : l.Settles (l.used use) := by
  cases use with
  | operate op => exact (Tenancy.Deed.operate l [] op).settles
  | prepare => exact Device.steps_settles.prepare l
  | allocate size => exact Device.steps_settles.allocate l
  | free addr => exact Device.steps_settles.free l
  | associate first target size => exact Device.steps_settles.associate l
  | disassociate first => exact Device.steps_settles.disassociate l
  | mapGlobal first target size => exact Device.steps_settles.mapGlobal l
  | patch shadow => exact Device.steps_settles.patch l
  | resubmitShadows lower upper => exact Device.steps_settles.resubmitShadows l
  | pushTripCount n => exact Device.steps_settles.pushTripCount l
  | takeTripCount => exact Link.settles_of_quiet rfl rfl rfl
  | sendCopies copies => exact Device.steps_settles.sendCopies l
  | sendPatches patches => exact Device.steps_settles.sendPatches l
  | uploadAddressTable t => exact (Device.steps_settles.upload.bind fun _ => Along.pure) l
  | uploadOffsetList list => exact (Device.steps_settles.upload.bind fun _ => Along.pure) l

end Link

/-- What a program does: it calls the platform, or it works on a device. -/
inductive Act where
  | call (c : Call)
  | use (dev : Nat) (use : DeviceUse)

/-- Whether the call uses the memory of an accelerator without its device. -/
def Call.isDirect : Call → Bool
  | .allocate .. | .release .. | .store .. => true
  | _ => false

/-- Whether the program uses the memory of an accelerator without its device. -/
def Act.isDirect : Act → Bool
  | .call c => c.isDirect
  | .use .. => false

namespace Platform

variable {pl : Platform} {dev : Nat} {l : Link} {acts : List Act}

/-- The platform after an act of a program, whether it succeeded or not. -/
def act (pl : Platform) : Act → Platform
  | .call c => pl.perform c
  | .use dev use =>
    match pl.link? dev with
    | some l => pl.setLink dev (l.used use)
    | none => pl

/-- The platform after several acts, one after the other. -/
def actAll (pl : Platform) (acts : List Act) : Platform := acts.foldl act pl

/-- Devices that were not used yet, each with a memory of its own, in which no block lies. -/
structure Pristine (pl : Platform) : Prop where
  separate : pl.Separate
  transfers : ∀ slot ∈ pl.devices, slot.device.transfers = {}
  services : ∀ a ∈ pl.accelerators, a.services = []
  memories : ∀ a ∈ pl.accelerators, ∀ m ∈ a.memories, m.WellFormed ∧ m.liveBlocks = 0

theorem Fresh.pristine (h : pl.Fresh) (services : ∀ a ∈ pl.accelerators, a.services = []) :
    pl.Pristine := by
  refine ⟨h.separate, fun slot hs => ?_, services, fun a ha m hm => ⟨h.sound.accelerators a ha m hm, ?_⟩⟩
  · obtain ⟨config, accelerators, created, -⟩ := h
    obtain ⟨strategy, -, -, rfl⟩ := ofAccelerators_eq_ok created
    obtain ⟨id, unit, same⟩ := device_of_mem_slots hs
    rw [same]
  · obtain ⟨config, accelerators, created, empty⟩ := h
    obtain ⟨strategy, -, -, rfl⟩ := ofAccelerators_eq_ok created
    obtain ⟨n, capacity, memories⟩ := empty a ha
    rw [memories] at hm
    obtain ⟨i, -, rfl⟩ := List.mem_map.1 hm
    rfl

theorem Pristine.balanced (h : pl.Pristine) (hl : pl.link? dev = some l) : l.Balanced := by
  obtain ⟨slot, hs, device, ha⟩ := link?_eq_some_iff.1 hl
  have mem := List.mem_of_getElem? ha
  have transfers : l.device.transfers = {} := device ▸ h.transfers slot (List.mem_of_getElem? hs)
  have services : l.services = [] := by
    rw [Link.services, Accelerator.servicesOf, h.services _ mem]
    rfl
  have blocks : l.accelerator.liveBlocks l.device.unit = 0 := by
    cases hm : l.accelerator.memory? l.device.unit with
    | none => rw [Accelerator.liveBlocks, hm]
    | some m =>
        rw [Accelerator.liveBlocks_of_memory? hm]
        exact (h.memories _ mem m (Accelerator.mem_of_memory? hm)).2
  refine ⟨?_, ?_, ?_, ?_⟩
  · rw [blocks, transfers, services]
    rfl
  all_goals
    rw [transfers, services]
    rfl

theorem Pristine.wellFormed (h : pl.Pristine) (hl : pl.link? dev = some l) :
    l.accelerator.WellFormed := by
  obtain ⟨slot, -, -, ha⟩ := link?_eq_some_iff.1 hl
  exact fun m hm => (h.memories _ (List.mem_of_getElem? ha) m hm).1

/-! ## Steps of a run -/

private theorem keepsBalance_setLink {k : Link} (hl : pl.link? dev = some l) (h : l.Settles k) :
    pl.EachMoves Link.KeepsBalance (pl.setLink dev k) :=
  each_setLink Link.keepsBalance_elsewhere hl h.toAlone h.keepsBalance

private theorem keepsBalance_onDevice {α : Type} {x : DeviceM α} (hx : Along Link.Settles x) :
    Along (EachMoves Link.KeepsBalance) (onDevice dev x) :=
  along_onDevice fun _ l hl => keepsBalance_setLink hl (hx l)

private theorem keepsBalance_of_course {pl' : Platform} (h : pl.EachMoves Link.Course pl') :
    pl.EachMoves Link.KeepsBalance pl' :=
  fun separate => (h separate).mono Link.Course.keepsBalance

private theorem keepsBalance_register (d : LibraryDescription) :
    pl.EachMoves Link.KeepsBalance (pl.register d).2 := by
  refine each_register (fun l => ?_) d
  have flagged : l.Settles { l with device := { l.device with pending := true } } :=
    Link.settles_of_quiet rfl rfl rfl
  exact flagged.keepsBalance

/-- Adding a kernel to an accelerator is seen by no device. -/
private theorem keepsBalance_addKernel {accelerator : Nat} {k : Kernel} :
    pl.EachMoves Link.KeepsBalance (pl.perform (.addKernel accelerator k)) := by
  refine fun _ => ⟨rfl, fun dev => ?_⟩
  have same : (pl.perform (.addKernel accelerator k)).link? dev =
      (pl.link? dev).map fun l =>
        if (pl.devices[dev]?.map DeviceSlot.accelerator) = some accelerator then
          { l with accelerator := l.accelerator.register k }
        else l := by
    change (pl.devices[dev]?).bind _ = ((pl.devices[dev]?).bind _).map _
    cases pl.devices[dev]? with
    | none => rfl
    | some slot =>
        change ((pl.accelerators.modify accelerator _)[slot.accelerator]?).bind _ =
          ((pl.accelerators[slot.accelerator]?).bind _).map _
        rw [List.getElem?_modify]
        cases pl.accelerators[slot.accelerator]? with
        | none => rfl
        | some a =>
            by_cases here : accelerator = slot.accelerator
            · simp [here]
            · simp [here, Ne.symm here]
  rw [same]
  refine rel_map (fun l => ?_) _
  split
  · exact Link.keepsBalance_elsewhere ⟨rfl, rfl⟩ id
  · exact Lasting.refl l

private theorem keepsBalance_perform {c : Call} (indirect : c.isDirect = false) :
    pl.EachMoves Link.KeepsBalance (pl.perform c) := by
  have ready : ∀ id, Along (EachMoves Link.KeepsBalance) (ready id) :=
    fun id pl => keepsBalance_of_course (course_ready id pl)
  cases c with
  | dataBegin id l => exact keepsBalance_of_course (course_dataBegin ⟨pl, l⟩)
  | dataEnd id l => exact keepsBalance_of_course (course_dataEnd ⟨pl, l⟩)
  | dataUpdate id l => exact keepsBalance_of_course (course_dataUpdate ⟨pl, l⟩)
  | target id l hostAddr kind => exact keepsBalance_of_course (course_target ⟨pl, l⟩)
  | associate id first target size =>
      exact (ready id).bind (fun _ => keepsBalance_onDevice Device.steps_settles.associate) pl
  | disassociate id first =>
      exact (ready id).bind (fun _ => keepsBalance_onDevice Device.steps_settles.disassociate) pl
  | pushTripCount id n =>
      exact (along_deviceIndex id).bind
        (fun _ => keepsBalance_onDevice Device.steps_settles.pushTripCount) pl
  | register d => exact keepsBalance_register d
  | unregister library =>
      refine each_of_links ?_
      rw [perform, unregister]
      split
      · rfl
      · rfl
  | write first content => exact each_of_links rfl
  | allocate accelerator unit size => cases indirect
  | release accelerator unit addr => cases indirect
  | store accelerator unit c => cases indirect
  | addKernel accelerator k => exact keepsBalance_addKernel

/-- Whatever a program does to the devices of a platform, each of them stays in balance. -/
theorem keepsBalance_act {a : Act} (indirect : a.isDirect = false) :
    pl.EachMoves Link.KeepsBalance (pl.act a) := by
  cases a with
  | call c => exact keepsBalance_perform indirect
  | use dev use =>
      cases hl : pl.link? dev with
      | none =>
          rw [act, hl]
          exact Lasting.refl (R := EachMoves Link.KeepsBalance) pl
      | some l =>
          rw [act, hl]
          exact keepsBalance_setLink hl (Link.settles_used use)

theorem keepsBalance_actAll (indirect : ∀ a ∈ acts, a.isDirect = false) :
    pl.EachMoves Link.KeepsBalance (pl.actAll acts) := by
  induction acts generalizing pl with
  | nil => exact Lasting.refl (R := EachMoves Link.KeepsBalance) pl
  | cons a rest ih =>
      exact Lasting.trans (R := EachMoves Link.KeepsBalance)
        (keepsBalance_act (indirect a List.mem_cons_self))
        (ih fun b hb => indirect b (List.mem_cons_of_mem a hb))

/-- After any run over unused devices, which calls to the accelerators may fail however they want: the
live blocks of a device are those that were allocated and not released and those of global variables,
the bytes that it counts are the bytes that its accelerator moved, and the launches that it counts are
the kernels that ran. -/
theorem balanced_actAll (pristine : pl.Pristine) (indirect : ∀ a ∈ acts, a.isDirect = false)
    (hl : (pl.actAll acts).link? dev = some l) :
    l.accelerator.liveBlocks l.device.unit + l.device.transfers.deallocations =
        l.device.transfers.allocations + l.services.countP Service.isPlaced ∧
      l.device.transfers.submittedBytes = (l.services.map Service.bytesIn).sum ∧
      l.device.transfers.retrievedBytes = (l.services.map Service.bytesOut).sum ∧
      l.device.transfers.launches = l.services.countP Service.isRan := by
  have moved := (keepsBalance_actAll indirect pristine.separate).link dev
  rw [hl] at moved
  cases h : pl.link? dev with
  | none =>
      rw [h] at moved
      cases moved
  | some l₀ =>
      rw [h] at moved
      cases moved with
      | some kept =>
          have balanced := kept.balanced (pristine.wellFormed h) (pristine.balanced h)
          exact ⟨balanced.blocks, balanced.submitted, balanced.retrieved, balanced.launches⟩

/-- The second release and the second copy to this device fail. -/
private def faulty : Platform :=
  { oneDevice with
    accelerators := [{ Accelerator.ofDevices 1 1024 with
      kernels := [⟨"idle", fun _ => pure ()⟩]
      schedule := fun call n =>
        call == CallKind.delete && n == 1 || call == CallKind.submit && n == 1 }] }

/-- A library with a global variable and a kernel is loaded, and the kernel runs with a private copy. -/
private def faultyRun : List Act :=
  [.call (.register ⟨[⟨"count", 0x400, 8⟩, ⟨"idle", 0x500, 0⟩],
      [some [⟨"count", 0, 8⟩, ⟨"idle", 0, 0⟩]], []⟩),
    .call (.write 64 [1, 2, 3, 4]),
    .use 0 (.operate (.map 64 64 4 false true)),
    .call (.target 0 ⟨[⟨64, 64, 4, .ofFlags [.toDevice, .fromDevice, .always]⟩,
      ⟨128, 128, 1, .ofFlags [.privateCopy, .targetParam]⟩], []⟩ 0x500 .single),
    .use 0 (.operate (.submit 0xd00000000000 [5])),
    .use 0 (.operate (.unmap 64 4 true))]

private theorem pristine_faulty : faulty.Pristine := by
  refine Fresh.pristine ⟨{}, _, rfl, fun a ha => ⟨1, 1024, ?_⟩⟩ fun a ha => ?_
  · rw [List.mem_singleton.1 ha]
  · rw [List.mem_singleton.1 ha]
    rfl

private theorem after_faultyRun :
    ((faulty.actAll faultyRun).link? 0).map (fun l =>
      (l.accelerator.liveBlocks l.device.unit, l.device.transfers, l.services)) =
    some (2,
      { submissions := 1, submittedBytes := 4, retrievals := 1, retrievedBytes := 4,
        allocations := 2, deallocations := 1, launches := 1 },
      [.placed 0xd00000000080, .submitted 4, .ran 0xc00000000000, .released 0xd00000000100,
        .retrieved 4, .released 0xd00000000000]) := by
  cbv

/-- The block of the section stays on the device, since its release failed, and the second copy is not
counted. -/
theorem balanced_actAll_faultyRun :
    (faulty.Pristine ∧ ∀ a ∈ faultyRun, a.isDirect = false) ∧
    ∃ l, (faulty.actAll faultyRun).link? 0 = some l ∧
      (l.accelerator.liveBlocks l.device.unit = 2 ∧ l.device.transfers.allocations = 2 ∧
        l.device.transfers.deallocations = 1) ∧
      l.accelerator.liveBlocks l.device.unit + l.device.transfers.deallocations =
        l.device.transfers.allocations + l.services.countP Service.isPlaced ∧
      l.device.transfers.submittedBytes = (l.services.map Service.bytesIn).sum ∧
      l.device.transfers.retrievedBytes = (l.services.map Service.bytesOut).sum ∧
      l.device.transfers.launches = l.services.countP Service.isRan := by
  have indirect : ∀ a ∈ faultyRun, a.isDirect = false := by
    intro a ha
    simp only [faultyRun, List.mem_cons, List.not_mem_nil, or_false] at ha
    rcases ha with rfl | rfl | rfl | rfl | rfl | rfl
    all_goals rfl
  obtain ⟨l, hl, seen⟩ := Option.map_eq_some_iff.1 after_faultyRun
  obtain ⟨blocks, seen⟩ := Prod.mk.inj seen
  have transfers := (Prod.mk.inj seen).1
  refine ⟨⟨pristine_faulty, indirect⟩, l, hl, ⟨blocks, ?_, ?_⟩,
    balanced_actAll pristine_faulty indirect hl⟩
  · rw [transfers]
  · rw [transfers]

end Platform

end Offloading
