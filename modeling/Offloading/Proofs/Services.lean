import Offloading.Proofs.Refusal
/-!
# What accelerators did

An accelerator remembers what it did for which device. A call adds to what is remembered for its own
device and moves blocks there; no other device notices. What a device counts of its transfers, blocks
and launches is compared with this record.
-/

namespace Offloading

namespace Service

/-- Bytes that were copied to the device. -/
def bytesIn : Service → Nat
  | .submitted bytes | .batched bytes => bytes
  | _ => 0

/-- Bytes that were copied from the device. -/
def bytesOut : Service → Nat
  | .retrieved bytes => bytes
  | _ => 0

/-- Whether a block was allocated for a global variable. -/
def isPlaced : Service → Bool
  | .placed _ => true
  | _ => false

/-- Whether a kernel ran. -/
def isRan : Service → Bool
  | .ran _ => true
  | _ => false

/-- The address that was to be released. -/
def released? : Service → Option Nat
  | .released addr => some addr
  | _ => none

end Service

namespace DeviceMemory

variable {m m' : DeviceMemory} {addr size : Nat}

theorem liveBlocks_eq (m : DeviceMemory) : m.liveBlocks = m.extents.length := by
  rw [extents, List.length_map]
  rfl

theorem liveBlocks_allocate (wf : m.WellFormed) (h : m.allocate size = (some addr, m')) :
    m'.liveBlocks = m.liveBlocks + 1 := by
  rw [liveBlocks_eq, liveBlocks_eq, wf.extents_allocate h, List.length_cons]

theorem liveBlocks_free (h : m.free addr = (true, m')) : m.liveBlocks = m'.liveBlocks + 1 := by
  obtain ⟨b, hb, rfl, rfl⟩ := free_eq_true h
  exact (AddressMap.perm_erase hb).length_eq

theorem liveBlocks_of_layout (h : m'.layout = m.layout) : m'.liveBlocks = m.liveBlocks := by
  have same : m'.extents = m.extents := congrArg (fun layout => layout.2.2.2) h
  rw [liveBlocks_eq, liveBlocks_eq, same]

end DeviceMemory

namespace Accelerator

variable {a a' a₁ : Accelerator} {unit other : Int} {m m' : DeviceMemory} {addr size : Nat}
  {e : AcceleratorError} {service : Service}

/-- What was done for a device, first things first. -/
def servicesOf (a : Accelerator) (unit : Int) : List Service :=
  a.services.filterMap fun s => if s.1 = unit then some s.2 else none

theorem servicesOf_noted : (a.noted unit service).servicesOf unit = a.servicesOf unit ++ [service] := by
  rw [servicesOf, noted, List.filterMap_append, servicesOf]
  simp

theorem servicesOf_noted_ne (h : other ≠ unit) :
    (a.noted unit service).servicesOf other = a.servicesOf other := by
  rw [servicesOf, noted, List.filterMap_append, servicesOf]
  simp [h.symm]

theorem servicesOf_congr (h : a'.services = a.services) : a'.servicesOf unit = a.servicesOf unit := by
  rw [servicesOf, servicesOf, h]

theorem liveBlocks_of_memory? (h : a.memory? unit = some m) : a.liveBlocks unit = m.liveBlocks := by
  rw [liveBlocks, h]

theorem liveBlocks_congr (h : a'.memory? unit = a.memory? unit) :
    a'.liveBlocks unit = a.liveBlocks unit := by
  rw [liveBlocks, liveBlocks, h]

/-! ## Other devices -/

/-- A device notices nothing of what its accelerator did. -/
structure Apart (unit : Int) (a a' : Accelerator) : Prop where
  memory? : a'.memory? unit = a.memory? unit
  servicesOf : a'.servicesOf unit = a.servicesOf unit

instance : Lasting (Apart unit) where
  refl _ := ⟨rfl, rfl⟩
  trans h h' := ⟨h'.memory?.trans h.memory?, h'.servicesOf.trans h.servicesOf⟩

theorem Quiet.apart (h : a.Quiet a') : a.Apart unit a' :=
  ⟨memory?_congr (Prod.mk.inj h).1, servicesOf_congr (Prod.mk.inj (Prod.mk.inj h).2).2⟩

theorem overlooks_apart (h : other ≠ unit) : Overlooks unit (Apart other) where
  quiet same := same.apart
  noted _ _ := ⟨memory?_congr rfl, servicesOf_noted_ne h⟩

theorem apart_withMemory (h : other ≠ unit) (hm : a.memory? unit = some m) :
    a.Apart other (a.withMemory unit m') :=
  ⟨memory?_withMemory_ne hm h, servicesOf_congr rfl⟩

section others

variable (h : other ≠ unit)

include h

theorem apart_allocate : Along (Apart other) (allocate unit size) := by
  refine along_attempt_bind Quiet.apart (along_memory_bind fun a m hm => ?_)
  refine Along.bind_at (x := setMemory _ _) (apart_withMemory h hm) fun _ => ?_
  split
  · exact Along.pure
  · exact Along.throw

theorem apart_delete : Along (Apart other) (delete unit addr) := by
  refine Along.tryCatch ?_ fun _ => Along.bind (Along.modify fun a => ?_) fun _ => Along.throw
  · refine (along_note (overlooks_apart h)).bind fun _ => ?_
    refine along_attempt_bind Quiet.apart (along_memory_bind fun a m hm => ?_)
    refine Along.bind_at (x := setMemory _ _) (apart_withMemory h hm) fun _ => ?_
    exact Along.ite Along.pure Along.throw
  · exact ⟨memory?_congr rfl, servicesOf_congr rfl⟩

theorem apart_load {image : Image} : Along (Apart other) (load unit image) := by
  refine along_attempt_bind Quiet.apart (Along.mapM (fun s => Along.ite ?_ ?_) image)
  · refine along_memory_bind fun a m hm => ?_
    refine Along.bind_at (x := setMemory _ _) (apart_withMemory h hm) fun _ => ?_
    split
    · exact (along_note (overlooks_apart h)).bind fun _ => Along.pure
    · exact Along.throw
  · refine Along.get.bind fun a => ?_
    split
    · exact Along.pure
    · exact Along.throw

theorem apart_submit {c : Chunk} : Along (Apart other) (submit unit c) :=
  (notes_submit Quiet.apart fun hm _ => apart_withMemory h hm).along (overlooks_apart h)

theorem apart_submitBatch {chunks : List Chunk} : Along (Apart other) (submitBatch unit chunks) :=
  (notes_submitBatch Quiet.apart fun hm _ => apart_withMemory h hm).along (overlooks_apart h)

theorem apart_retrieve : Along (Apart other) (retrieve unit addr size) :=
  (notes_retrieve (R := Apart other) Quiet.apart).along (overlooks_apart h)

theorem apart_run {entry tripCount : Nat} {arguments : List Nat} {offsets : List Int}
    {kind : LaunchKind} : Along (Apart other) (run unit entry arguments offsets kind tripCount) :=
  (notes_run Quiet.apart fun _ hm => apart_withMemory h hm).along (overlooks_apart h)

end others

/-! ## The device itself -/

theorem Quiet.services (h : a.Quiet a') : Fixed Accelerator.services a a' :=
  (Prod.mk.inj (Prod.mk.inj h).2).2

/-- No device has more or fewer blocks than before, and nothing is remembered. -/
structure Steady (a a' : Accelerator) : Prop where
  blocks : ∀ unit, a'.liveBlocks unit = a.liveBlocks unit
  services : a'.services = a.services

instance : Lasting Steady where
  refl _ := ⟨fun _ => rfl, rfl⟩
  trans h h' := ⟨fun unit => (h'.blocks unit).trans (h.blocks unit), h'.services.trans h.services⟩

theorem Quiet.steady (h : a.Quiet a') : a.Steady a' :=
  ⟨fun _ => liveBlocks_congr (memory?_congr (Prod.mk.inj h).1), h.services⟩

theorem steady_withMemory (hm : a.memory? unit = some m) (same : m'.layout = m.layout) :
    a.Steady (a.withMemory unit m') := by
  refine ⟨fun other => ?_, rfl⟩
  by_cases here : other = unit
  · subst here
    rw [liveBlocks_of_memory? (memory?_withMemory hm), liveBlocks_of_memory? hm]
    exact DeviceMemory.liveBlocks_of_layout same
  · exact liveBlocks_congr (memory?_withMemory_ne hm here)

theorem steady_submit {c : Chunk} :
    Notes Steady unit (.submitted c.content.length) (submit unit c) :=
  notes_submit Quiet.steady fun hm hw => steady_withMemory hm (DeviceMemory.layout_write hw)

theorem steady_submitBatch {chunks : List Chunk} :
    Notes Steady unit (.batched (Chunk.totalLength chunks)) (submitBatch unit chunks) :=
  notes_submitBatch Quiet.steady fun hm hw => steady_withMemory hm (DeviceMemory.layout_write hw)

theorem steady_retrieve : Notes Steady unit (.retrieved size) (retrieve unit addr size) :=
  notes_retrieve Quiet.steady

theorem steady_run {entry tripCount : Nat} {arguments : List Nat} {offsets : List Int}
    {kind : LaunchKind} :
    Notes Steady unit (.ran entry) (run unit entry arguments offsets kind tripCount) :=
  notes_run Quiet.steady fun code hm => steady_withMemory hm (DeviceCode.layout_run code _)

theorem services_allocate : Along (Fixed services) (allocate unit size) := by
  refine along_attempt_bind Quiet.services ?_
  refine along_memory_bind fun a m _ => Along.bind_at (x := setMemory _ _) (by rfl) fun _ => ?_
  split
  · exact Along.pure
  · exact Along.throw

theorem steady_of_allocate_error (h : exec (allocate unit size) a = (.error e, a')) : a.Steady a' := by
  have services : Fixed services a (exec (allocate unit size) a).2 := services_allocate a
  rw [h] at services
  exact ⟨fun _ => liveBlocks_congr (memory?_congr (allocate_error h)), services⟩

/-- A block more. -/
theorem liveBlocks_of_allocate (wf : a.WellFormed) (h : Returns (allocate unit size) a addr a') :
    a'.liveBlocks unit = a.liveBlocks unit + 1 ∧ a'.services = a.services := by
  obtain ⟨m, m', before, allocated, memories⟩ := returns_allocate h
  refine ⟨?_, services_allocate.returns h⟩
  rw [liveBlocks_congr (memory?_congr memories), liveBlocks_of_memory? (memory?_withMemory before),
    liveBlocks_of_memory? before, DeviceMemory.liveBlocks_allocate (wf.memory before) allocated]

/-- To release a block is remembered in any case. -/
theorem services_delete :
    (exec (delete unit addr) a).2.services = a.services ++ [(unit, .released addr)] := by
  have released : (exec (release unit addr) a).2.services = a.services ++ [(unit, .released addr)] := by
    rw [release, exec_note_bind]
    change Fixed services (a.noted unit (.released addr)) _
    refine along_attempt_bind Quiet.services ?_ _
    refine along_memory_bind fun a m _ => Along.bind_at (x := setMemory _ _) (by rfl) fun _ => ?_
    exact Along.ite Along.pure Along.throw
  change (exec (tryCatch (release unit addr) _) a).2.services = _
  rw [exec_tryCatch]
  rcases h : exec (release unit addr) a with ⟨e | _, a'⟩
  · rw [h] at released
    exact released
  · rw [h] at released
    exact released

theorem liveBlocks_of_delete_error (h : exec (delete unit addr) a = (.error e, a')) :
    a'.liveBlocks unit = a.liveBlocks unit :=
  liveBlocks_congr (memory?_congr (delete_error h).1)

/-- A block less. -/
theorem liveBlocks_of_delete {u : Unit} (h : Returns (delete unit addr) a u a') :
    a.liveBlocks unit = a'.liveBlocks unit + 1 := by
  obtain ⟨m, m', before, freed, memories⟩ := returns_delete h
  rw [liveBlocks_congr (memory?_congr memories), liveBlocks_of_memory? (memory?_withMemory before),
    liveBlocks_of_memory? before, DeviceMemory.liveBlocks_free freed]

/-- Blocks were allocated for global variables, and nothing else was done for the device. -/
def Places (unit : Int) (a a' : Accelerator) : Prop :=
  ∃ done : List Service, (∀ s ∈ done, ∃ addr, s = .placed addr) ∧
    a'.servicesOf unit = a.servicesOf unit ++ done ∧
    (a.WellFormed → a'.WellFormed ∧ a'.liveBlocks unit = a.liveBlocks unit + done.length)

instance : Lasting (Places unit) where
  refl _ := ⟨[], fun _ h => (nomatch h), (List.append_nil _).symm, fun wf => ⟨wf, rfl⟩⟩
  trans := by
    rintro a a₁ a₂ ⟨done, placed, services, blocks⟩ ⟨done', placed', services', blocks'⟩
    refine ⟨done ++ done', fun s hs => ?_, ?_, fun wf => ?_⟩
    · exact (List.mem_append.1 hs).elim (placed s) (placed' s)
    · rw [services', services, List.append_assoc]
    · obtain ⟨wf₁, more⟩ := blocks wf
      obtain ⟨wf₂, more'⟩ := blocks' wf₁
      refine ⟨wf₂, ?_⟩
      rw [more', more, List.length_append, Nat.add_assoc]

theorem Quiet.places (h : a.Quiet a') : Places unit a a' :=
  ⟨[], fun _ h => (nomatch h), (h.apart.servicesOf).trans (List.append_nil _).symm,
    fun wf => ⟨h.wellFormed wf, h.steady.blocks unit⟩⟩

private theorem places_loadSymbol {s : Symbol} : Along (Places unit) (loadSymbol unit s) := by
  refine Along.ite (along_memory_bind fun a m hm => ?_) (Along.get.bind fun a => ?_)
  · rcases ha : m.allocate s.size with ⟨_ | addr, m'⟩
    · rw [DeviceMemory.allocate_eq_none ha]
      change Places unit a (a.withMemory unit m)
      rw [withMemory_self hm]
      exact Lasting.refl a
    · change Places unit a ((a.withMemory unit m').noted unit (.placed addr))
      refine ⟨[.placed addr], fun t ht => ⟨addr, List.mem_singleton.1 ht⟩, ?_, fun wf => ⟨?_, ?_⟩⟩
      · rw [servicesOf_noted]
        rfl
      · have kept := (wf.memory hm).allocate s.size
        rw [ha] at kept
        exact (overlooks_wellFormed.noted _ _) (wf.withMemory kept)
      · change (a.withMemory unit m').liveBlocks unit = _
        rw [liveBlocks_of_memory? (memory?_withMemory hm), liveBlocks_of_memory? hm]
        exact DeviceMemory.liveBlocks_allocate (wf.memory hm) ha
  · split
    · exact Along.pure
    · exact Along.throw

/-- Loading an image, also one that fails, gives a block to each global variable that it reaches. -/
theorem places_load {image : Image} : Along (Places unit) (load unit image) :=
  along_attempt_bind Quiet.places (Along.mapM (fun _ => places_loadSymbol) image)

end Accelerator

end Offloading
