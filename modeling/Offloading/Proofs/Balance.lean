import Mathlib
import Offloading.Proofs.DeviceSteps
/-!
# The balance of a device

What a device counts is what its accelerator did for it, and the blocks that it holds are those that
were allocated and not released. Each operation keeps the balance, whether it fails or not, and touches
no other device of the accelerator.
-/

namespace Offloading

namespace Link

variable {l l' : Link}

/-- What the accelerator did for the device. -/
def services (l : Link) : List Service := l.accelerator.servicesOf l.device.unit

/-- The counts of the device agree with its blocks and with what was done for it. -/
structure Balanced (l : Link) : Prop where
  /-- Of the blocks that were allocated, also for global variables, all that were not released live. -/
  blocks : l.accelerator.liveBlocks l.device.unit + l.device.transfers.deallocations =
    l.device.transfers.allocations + l.services.countP Service.isPlaced
  /-- Bytes that went to the device in copies and batches. -/
  submitted : l.device.transfers.submittedBytes = (l.services.map Service.bytesIn).sum
  /-- Bytes that came back. -/
  retrieved : l.device.transfers.retrievedBytes = (l.services.map Service.bytesOut).sum
  /-- Kernels that ran. -/
  launches : l.device.transfers.launches = l.services.countP Service.isRan

/-- Other devices of the accelerator notice nothing. -/
structure Alone (l l' : Link) : Prop where
  unit : l'.device.unit = l.device.unit
  apart : ∀ other ≠ l.device.unit, l.accelerator.Apart other l'.accelerator
  wellFormed : l.accelerator.WellFormed → l'.accelerator.WellFormed

/-- The balance is kept. -/
structure KeepsBalance (l l' : Link) : Prop where
  wellFormed : l.accelerator.WellFormed → l'.accelerator.WellFormed
  balanced : l.accelerator.WellFormed → l.Balanced → l'.Balanced

/-- The balance is kept, and other devices notice nothing. -/
structure Settles (l l' : Link) : Prop extends l.Alone l' where
  balanced : l.accelerator.WellFormed → l.Balanced → l'.Balanced

theorem Settles.keepsBalance (h : l.Settles l') : l.KeepsBalance l' := ⟨h.wellFormed, h.balanced⟩

instance : Lasting Alone where
  refl _ := ⟨rfl, fun _ _ => Lasting.refl _, id⟩
  trans h h' := ⟨h'.unit.trans h.unit,
    fun other ne => Lasting.trans (h.apart other ne) (h'.apart other (h.unit ▸ ne)),
    fun wf => h'.wellFormed (h.wellFormed wf)⟩

instance : Lasting KeepsBalance where
  refl _ := ⟨id, fun _ => id⟩
  trans h h' := ⟨fun wf => h'.wellFormed (h.wellFormed wf),
    fun wf b => h'.balanced (h.wellFormed wf) (h.balanced wf b)⟩

instance : Lasting Settles where
  refl _ := ⟨Lasting.refl _, fun _ => id⟩
  trans h h' := ⟨Lasting.trans h.toAlone h'.toAlone,
    fun wf b => h'.balanced (h.wellFormed wf) (h.balanced wf b)⟩

/-- The balance is kept by whatever adds to the counts what it adds to blocks and services. -/
theorem Balanced.step (h : l.Balanced) (done : List Service)
    (unit : l'.device.unit = l.device.unit)
    (services : l'.accelerator.servicesOf l.device.unit = l.services ++ done)
    (blocks : l'.accelerator.liveBlocks l.device.unit + l'.device.transfers.deallocations +
        l.device.transfers.allocations =
      l.accelerator.liveBlocks l.device.unit + l.device.transfers.deallocations +
        l'.device.transfers.allocations + done.countP Service.isPlaced)
    (submitted : l'.device.transfers.submittedBytes =
      l.device.transfers.submittedBytes + (done.map Service.bytesIn).sum)
    (retrieved : l'.device.transfers.retrievedBytes =
      l.device.transfers.retrievedBytes + (done.map Service.bytesOut).sum)
    (launches : l'.device.transfers.launches =
      l.device.transfers.launches + done.countP Service.isRan) : l'.Balanced := by
  have services : l'.services = l.services ++ done := by rw [Link.services, unit, services]
  refine ⟨?_, ?_, ?_, ?_⟩
  · have before := h.blocks
    rw [unit, services, List.countP_append]
    omega
  · rw [submitted, services, h.submitted, List.map_append, List.sum_append]
  · rw [retrieved, services, h.retrieved, List.map_append, List.sum_append]
  · rw [launches, services, h.launches, List.countP_append]

/-- What is balanced does not depend on the tables of the device. -/
theorem Balanced.of_same (h : l.Balanced) (unit : l'.device.unit = l.device.unit)
    (transfers : l'.device.transfers = l.device.transfers)
    (blocks : l'.accelerator.liveBlocks l.device.unit = l.accelerator.liveBlocks l.device.unit)
    (services : l'.accelerator.servicesOf l.device.unit = l.accelerator.servicesOf l.device.unit) :
    l'.Balanced := by
  refine h.step [] unit (services.trans (List.append_nil _).symm) ?_ ?_ ?_ ?_
  · rw [blocks, transfers]
    rfl
  all_goals
    rw [transfers]
    rfl

theorem settles_of_quiet (unit : l'.device.unit = l.device.unit)
    (transfers : l'.device.transfers = l.device.transfers)
    (quiet : l.accelerator.Quiet l'.accelerator) : l.Settles l' := by
  refine ⟨⟨unit, fun _ _ => quiet.apart, quiet.wellFormed⟩, fun _ b => ?_⟩
  exact b.of_same unit transfers (quiet.steady.blocks _) quiet.apart.servicesOf

/-- What an accelerator does for other devices does not bring the device out of balance. -/
theorem keepsBalance_elsewhere {a : Accelerator} (apart : l.accelerator.Apart l.device.unit a)
    (wellFormed : l.accelerator.WellFormed → a.WellFormed) :
    l.KeepsBalance { l with accelerator := a } :=
  ⟨wellFormed, fun _ b => b.of_same rfl rfl (Accelerator.liveBlocks_congr apart.memory?)
    apart.servicesOf⟩

/-- An accelerator call is alone if it belongs to the device. -/
theorem alone_of_apart {a : Accelerator}
    (apart : ∀ other ≠ l.device.unit, l.accelerator.Apart other a)
    (wellFormed : l.accelerator.WellFormed → a.WellFormed) : l.Alone { l with accelerator := a } :=
  ⟨rfl, apart, wellFormed⟩

/-- Something else was done for the device. -/
theorem Balanced.steady {a : Accelerator} (h : l.Balanced) (steady : l.accelerator.Steady a) :
    Balanced { l with accelerator := a } :=
  h.of_same rfl rfl (steady.blocks _) (Accelerator.servicesOf_congr steady.services)

end Link

theorem Link.Balanced.counted {l l' : Link} {a : Accelerator} {service : Service}
    {f : TransferStats → TransferStats} (h : l.Balanced) (counts : TransferStats.Counts f service)
    (steady : l.accelerator.Steady a) (unit : l'.device.unit = l.device.unit)
    (transfers : l'.device.transfers = f l.device.transfers)
    (accelerator : l'.accelerator = a.noted l.device.unit service) : l'.Balanced := by
  have blocks : l'.accelerator.liveBlocks l.device.unit = l.accelerator.liveBlocks l.device.unit := by
    rw [accelerator]
    exact (Accelerator.liveBlocks_congr (Accelerator.memory?_congr rfl)).trans (steady.blocks _)
  refine h.step [service] unit ?_ ?_ ?_ ?_ ?_
  · rw [accelerator, Accelerator.servicesOf_noted, Accelerator.servicesOf_congr steady.services]
    rfl
  · rw [blocks, transfers, counts.deallocations, counts.allocations, List.countP_singleton,
      counts.placed]
    rfl
  · rw [transfers, counts.submittedBytes]
    simp
  · rw [transfers, counts.retrievedBytes]
    simp
  · rw [transfers, counts.launches, List.countP_singleton]

namespace Device

open DeviceM

variable {l : Link} {α β : Type}

/-- A call that is counted exactly if it succeeds settles. -/
private theorem settles_counted {wrap : AcceleratorError → DeviceError} {x : AcceleratorM α}
    {service : Service} {f : TransferStats → TransferStats} {k : α → DeviceM β}
    (counted : Counted l service x f k) : l.Settles (exec (call wrap x >>= k) l).2 := by
  obtain ⟨y, steady, rfl⟩ := counted.notes
  have alone := Link.alone_of_apart (fun other ne => counted.apart other ne l.accelerator)
    (counted.wellFormed l.accelerator)
  have still := steady l.accelerator
  rw [exec_bind, lifts_call l]
  rw [Accelerator.noting, exec_bind] at alone ⊢
  rcases hy : exec y l.accelerator with ⟨e | v, a⟩
  · rw [hy] at alone still
    exact ⟨alone, fun _ b => b.steady still⟩
  · rw [hy] at alone still
    change l.Alone { l with accelerator := a.noted l.device.unit service } at alone
    change l.Settles (exec (k v) { l with accelerator := a.noted l.device.unit service }).2
    rw [counted.counts]
    refine ⟨⟨rfl, alone.apart, alone.wellFormed⟩, fun _ b => ?_⟩
    exact b.counted counted.amounts still rfl rfl rfl

private theorem settles_allocate {size : Nat} : Along Link.Settles (allocate size) := by
  refine along_device_bind fun l => ?_
  have alone : l.Alone { l with
      accelerator := (exec (Accelerator.allocate l.device.unit size) l.accelerator).2 } :=
    Link.alone_of_apart (fun _ ne => Accelerator.apart_allocate ne l.accelerator)
      (Accelerator.along_allocate l.accelerator)
  rw [exec_bind, lifts_call l]
  rcases ha : exec (Accelerator.allocate l.device.unit size) l.accelerator with ⟨e | addr, a⟩
  · rw [ha] at alone
    exact ⟨alone, fun _ b => b.steady (Accelerator.steady_of_allocate_error ha)⟩
  · rw [ha] at alone
    refine ⟨⟨rfl, alone.apart, alone.wellFormed⟩, fun wf b => ?_⟩
    obtain ⟨more, same⟩ := Accelerator.liveBlocks_of_allocate wf ha
    refine b.step [] rfl ?_ ?_ rfl rfl rfl
    · exact (Accelerator.servicesOf_congr same).trans (List.append_nil _).symm
    · change a.liveBlocks l.device.unit + l.device.transfers.deallocations +
        l.device.transfers.allocations = l.accelerator.liveBlocks l.device.unit +
        l.device.transfers.deallocations + (l.device.transfers.allocations + 1)
      omega

/-- A call that is counted is remembered if it succeeds. -/
theorem services_counted {wrap : AcceleratorError → DeviceError} {x : AcceleratorM α}
    {service : Service} {f : TransferStats → TransferStats} {k : α → DeviceM β}
    (counted : Counted l service x f k) :
    (exec (call wrap x >>= k) l).2.services = l.services ∨
      (exec (call wrap x >>= k) l).2.services = l.services ++ [service] := by
  obtain ⟨y, steady, rfl⟩ := counted.notes
  have still := (steady l.accelerator).services
  rw [exec_bind, lifts_call l, Accelerator.noting, exec_bind]
  rcases hy : exec y l.accelerator with ⟨e | v, a⟩
  · rw [hy] at still
    exact .inl (Accelerator.servicesOf_congr still)
  · rw [hy] at still
    right
    change (exec (k v) { l with accelerator := a.noted l.device.unit service }).2.services = _
    rw [counted.counts]
    change (a.noted l.device.unit service).servicesOf l.device.unit = _
    rw [Accelerator.servicesOf_noted, Accelerator.servicesOf_congr still]
    rfl

/-- To allocate a block is not noted. -/
theorem services_allocate {size : Nat} : (exec (allocate size) l).2.services = l.services := by
  have same : (exec (Accelerator.allocate l.device.unit size) l.accelerator).2.services =
      l.accelerator.services := Accelerator.services_allocate l.accelerator
  rw [allocate, exec_device_bind, exec_bind, lifts_call l]
  rcases ha : exec (Accelerator.allocate l.device.unit size) l.accelerator with ⟨e | addr, a⟩
  · rw [ha] at same
    exact Accelerator.servicesOf_congr same
  · rw [ha] at same
    exact Accelerator.servicesOf_congr same

/-- To free a block is noted, whether it succeeds or not. -/
theorem services_free {addr : Nat} :
    (exec (free addr) l).2.services = l.services ++ [.released addr] := by
  have noted : (exec (Accelerator.delete l.device.unit addr) l.accelerator).2.servicesOf
      l.device.unit = l.services ++ [.released addr] :=
    (Accelerator.servicesOf_congr Accelerator.services_delete).trans Accelerator.servicesOf_noted
  change (exec (call (.releaseFailed l.device.id addr)
    (Accelerator.delete l.device.unit addr) >>= _) l).2.services = _
  rw [exec_bind, lifts_call l]
  rcases hd : exec (Accelerator.delete l.device.unit addr) l.accelerator with ⟨e | _, a⟩
  · rw [hd] at noted
    exact noted
  · rw [hd] at noted
    exact noted

/-- A release that fails is not counted. -/
private theorem settles_free {addr : Nat} : Along Link.Settles (free addr) := by
  intro l
  have services : (exec (free addr) l).2.services = l.services ++ [.released addr] := services_free
  have alone : l.Alone { l with
      accelerator := (exec (Accelerator.delete l.device.unit addr) l.accelerator).2 } :=
    Link.alone_of_apart (fun _ ne => Accelerator.apart_delete ne l.accelerator)
      (Accelerator.along_delete l.accelerator)
  change l.Settles (exec (call (.releaseFailed l.device.id addr)
    (Accelerator.delete l.device.unit addr) >>= _) l).2
  change (exec (call (.releaseFailed l.device.id addr)
    (Accelerator.delete l.device.unit addr) >>= _) l).2.services = _ at services
  rw [exec_bind, lifts_call l] at services ⊢
  rcases hd : exec (Accelerator.delete l.device.unit addr) l.accelerator with ⟨e | _, a⟩
  · rw [hd] at alone services
    refine ⟨alone, fun _ b => b.step [.released addr] rfl services ?_ rfl rfl rfl⟩
    change a.liveBlocks l.device.unit + _ + _ = _
    rw [Accelerator.liveBlocks_of_delete_error hd]
    rfl
  · rw [hd] at alone services
    refine ⟨⟨rfl, alone.apart, alone.wellFormed⟩, fun _ b => ?_⟩
    refine b.step [.released addr] rfl services ?_ rfl rfl rfl
    have fewer := Accelerator.liveBlocks_of_delete hd
    change a.liveBlocks l.device.unit + (l.device.transfers.deallocations + 1) +
      l.device.transfers.allocations = l.accelerator.liveBlocks l.device.unit +
      l.device.transfers.deallocations + l.device.transfers.allocations
    omega

/-- Whatever an operation does, it settles. -/
theorem steps_settles : AllSteps Link.Settles where
  quiet := Link.settles_of_quiet
  counted := settles_counted
  allocate := settles_allocate
  free := settles_free

end Device

/-- Loading an image settles, since each block that it allocates is noted. -/
theorem Link.settles_load {l : Link} {image : Image} :
    l.Settles { l with accelerator := (exec (Accelerator.load l.device.unit image) l.accelerator).2 } := by
  have places : Accelerator.Places l.device.unit l.accelerator
      (exec (Accelerator.load l.device.unit image) l.accelerator).2 :=
    Accelerator.places_load l.accelerator
  obtain ⟨done, placed, services, blocks⟩ := places
  refine ⟨Link.alone_of_apart (fun other ne => Accelerator.apart_load ne l.accelerator)
    (Accelerator.along_load l.accelerator), fun wf b => ?_⟩
  have none : ∀ f : Service → Nat, (∀ addr, f (.placed addr) = 0) → (done.map f).sum = 0 := by
    intro f zero
    have same : done.map f = done.map fun _ => 0 := by
      refine List.map_congr_left fun s hs => ?_
      obtain ⟨addr, rfl⟩ := placed s hs
      exact zero addr
    rw [same, List.map_const', List.sum_replicate_nat, Nat.mul_zero]
  have all : done.countP Service.isPlaced = done.length := by
    refine List.countP_eq_length.2 fun s hs => ?_
    obtain ⟨addr, rfl⟩ := placed s hs
    rfl
  have ran : done.countP Service.isRan = 0 := by
    refine List.countP_eq_zero.2 fun s hs => ?_
    obtain ⟨addr, rfl⟩ := placed s hs
    exact Bool.false_ne_true
  refine b.step done rfl services ?_ ?_ ?_ ?_
  · rw [all]
    have more := (blocks wf).2
    change (exec (Accelerator.load l.device.unit image) l.accelerator).2.liveBlocks l.device.unit +
      l.device.transfers.deallocations +
      l.device.transfers.allocations = l.accelerator.liveBlocks l.device.unit +
      l.device.transfers.deallocations + l.device.transfers.allocations + done.length
    omega
  · rw [none _ fun _ => rfl]
    rfl
  · rw [none _ fun _ => rfl]
    rfl
  · rw [ran]
    rfl

end Offloading
