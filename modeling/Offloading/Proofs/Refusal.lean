import Offloading.Proofs.MappingLife
/-!
# Calls that fail

An allocation or a release that fails leaves all memories as they were. A release fails only if the
schedule says so or if there is no such block.
-/

namespace Offloading

namespace Accelerator

variable {a a' : Accelerator} {unit : Int} {m : DeviceMemory} {β : Type} {size addr : Nat}
  {e : AcceleratorError}

/-- The accelerator when one more call was made. -/
def counted (a : Accelerator) (call : CallKind) : Accelerator :=
  { a with calls := a.calls.add call }

theorem memory?_withMemory_ne {m' : DeviceMemory} {other : Int} (hm : a.memory? unit = some m)
    (h : other ≠ unit) : (a.withMemory unit m').memory? other = a.memory? other := by
  obtain ⟨i, rfl, -⟩ := memory?_eq_some_iff.1 hm
  refine Option.ext fun n => ?_
  rw [memory?_eq_some_iff, memory?_eq_some_iff]
  refine exists_congr fun j => and_congr_right fun here => ?_
  rw [withMemory, List.getElem?_set_ne]
  change i ≠ j
  rintro rfl
  exact h here

theorem exec_attempt_bind {call : CallKind} {f : Unit → AcceleratorM β} :
    exec (attempt call >>= f) a =
      if a.schedule call (a.calls.of call) then (.error (.injected call), a.counted call)
      else exec (f ()) (a.counted call) := by
  have attempted : exec (attempt call) a =
      if a.schedule call (a.calls.of call) then (.error (.injected call), a.counted call)
      else (.ok (), a.counted call) := by
    rw [attempt, exec_get_bind, exec_bind, exec_set]
    dsimp only
    split
    · rfl
    · rfl
  rw [exec_bind, attempted]
  by_cases scheduled : a.schedule call (a.calls.of call) = true
  · rw [if_pos scheduled, if_pos scheduled]
  · rw [if_neg scheduled, if_neg scheduled]

theorem exec_memory_bind {f : DeviceMemory → AcceleratorM β} (hm : a.memory? unit = some m) :
    exec (memory unit >>= f) a = exec (f m) a := by
  have found : exec (memory unit) a = (.ok m, a) := by
    rw [memory, exec_get_bind, hm]
    rfl
  rw [exec_bind_ok found]

theorem exec_memory_bind_none {f : DeviceMemory → AcceleratorM β} (hm : a.memory? unit = none) :
    exec (memory unit >>= f) a = (.error (.noSuchDevice unit), a) := by
  have missing : exec (memory unit) a = (.error (.noSuchDevice unit), a) := by
    rw [memory, exec_get_bind, hm]
    rfl
  rw [exec_bind_error missing]

/-- An allocation that fails is counted, and that is all. -/
theorem allocate_error_eq (h : exec (allocate unit size) a = (.error e, a')) :
    a' = a.counted .allocate := by
  rw [allocate, exec_attempt_bind] at h
  split at h
  · cases h
    rfl
  · cases hm : (a.counted .allocate).memory? unit with
    | none =>
        rw [exec_memory_bind_none hm] at h
        cases h
        rfl
    | some m =>
        rw [exec_memory_bind hm] at h
        rcases ha : m.allocate size with ⟨_ | addr, m'⟩
        · rw [ha] at h
          cases h
          rw [DeviceMemory.allocate_eq_none ha]
          exact withMemory_self hm
        · rw [ha] at h
          cases h

theorem allocate_error (h : exec (allocate unit size) a = (.error e, a')) :
    a'.memories = a.memories := by
  rw [allocate_error_eq h]
  rfl

theorem exec_note_bind {service : Service} {f : Unit → AcceleratorM β} :
    exec (note unit service >>= f) a = exec (f ()) (a.noted unit service) := rfl

private theorem release_error (h : exec (release unit addr) a = (.error e, a')) :
    a'.memories = a.memories ∧ (a.schedule .delete (a.calls.of .delete) = true ∨
      ∀ m, a.memory? unit = some m → ∀ b ∈ m.blocks, b.start ≠ addr) := by
  rw [release, exec_note_bind, exec_attempt_bind] at h
  split at h
  · rename_i scheduled
    cases h
    exact ⟨rfl, .inl scheduled⟩
  · cases hm : ((a.noted unit (.released addr)).counted .delete).memory? unit with
    | none =>
        rw [exec_memory_bind_none hm] at h
        cases h
        have missing : a.memory? unit = none := hm
        refine ⟨rfl, .inr fun m found => ?_⟩
        rw [missing] at found
        cases found
    | some m =>
        rw [exec_memory_bind hm] at h
        rcases hf : m.free addr with ⟨_ | _, m'⟩
        · rw [hf] at h
          cases h
          rw [DeviceMemory.free_eq_false hf]
          change (((a.noted unit (.released addr)).counted .delete).withMemory unit m).memories =
            a.memories ∧ _
          rw [withMemory_self hm]
          refine ⟨rfl, .inr fun m₀ found b hb start => ?_⟩
          have same : a.memory? unit = some m := hm
          rw [found, Option.some.injEq] at same
          subst same
          have : m₀.blocks.get? addr = some b := AddressMap.get?_eq_some_iff.2 ⟨hb, start⟩
          rw [DeviceMemory.free, this] at hf
          cases hf
        · rw [hf] at h
          cases h

/-- Which calls are to fail does not change, and no release fails. -/
abbrev SameFailures : Accelerator → Accelerator → Prop :=
  Fixed fun a => (a.schedule, a.failedReleases)

theorem along_attempt_failures (call : CallKind) : Along SameFailures (attempt call) := by
  refine Along.bind_get fun a => ?_
  exact Along.bind_at (x := set _) (by rfl) fun _ => Along.ite Along.throw Along.pure

theorem along_allocate_failures : Along SameFailures (allocate unit size) := by
  refine (along_attempt_failures .allocate).bind fun _ => along_memory_bind fun a m _ => ?_
  refine Along.bind_at (x := setMemory _ _) (by rfl) fun _ => ?_
  split
  · exact Along.pure
  · exact Along.throw

private theorem along_release_failures : Along SameFailures (release unit addr) := by
  refine Along.bind (Along.modify fun _ => rfl) fun _ => ?_
  refine (along_attempt_failures .delete).bind fun _ => along_memory_bind fun a m _ => ?_
  exact Along.bind_at (x := setMemory _ _) (by rfl) fun _ => Along.ite Along.pure Along.throw

theorem sameFailures_of_delete {u : Unit} (h : Returns (delete unit addr) a u a') :
    a.SameFailures a' := along_release_failures.returns (returns_delete_iff.1 h)

/-- A release that fails is remembered. -/
theorem delete_error (h : exec (delete unit addr) a = (.error e, a')) :
    a'.memories = a.memories ∧ a'.schedule = a.schedule ∧
      a'.failedReleases = a.failedReleases ++ [(unit, addr)] ∧
      (a.schedule .delete (a.calls.of .delete) = true ∨
        ∀ m, a.memory? unit = some m → ∀ b ∈ m.blocks, b.start ≠ addr) := by
  have same : a.SameFailures (exec (release unit addr) a).2 := along_release_failures a
  change exec (tryCatch (release unit addr) _) a = _ at h
  rw [exec_tryCatch] at h
  rcases hr : exec (release unit addr) a with ⟨e' | _, a₁⟩
  · rw [hr] at h same
    cases h
    obtain ⟨schedule, failed⟩ := Prod.mk.inj same
    obtain ⟨memories, why⟩ := release_error hr
    exact ⟨memories, schedule, congrArg (· ++ _) failed, why⟩
  · rw [hr] at h
    cases h

end Accelerator

namespace Link

variable {l l' : Link} {failed : List Nat}

/-- The device is served as before, other devices are left alone, and the releases that failed are those
of `failed`. -/
structure Served (l l' : Link) (failed : List Nat) : Prop where
  unit : l'.device.unit = l.device.unit
  others : ∀ unit ≠ l.device.unit, l'.accelerator.memory? unit = l.accelerator.memory? unit
  schedule : l'.accelerator.schedule = l.accelerator.schedule
  failedReleases : l'.accelerator.failedReleases =
    l.accelerator.failedReleases ++ failed.map (Prod.mk l.device.unit)

/-- Neither mappings nor memories changed. -/
structure Idle (l l' : Link) (failed : List Nat) : Prop extends l.Served l' failed where
  entries : l'.device.mappings.entries = l.device.mappings.entries
  memories : l'.accelerator.memories = l.accelerator.memories

theorem Served.of_sameFailures (unit : l'.device.unit = l.device.unit)
    (others : ∀ unit ≠ l.device.unit, l'.accelerator.memory? unit = l.accelerator.memory? unit)
    (h : l.accelerator.SameFailures l'.accelerator) : l.Served l' [] := by
  obtain ⟨schedule, failed⟩ := Prod.mk.inj h
  exact ⟨unit, others, schedule, failed.trans (List.append_nil _).symm⟩

theorem Wrote.others {m m' : DeviceMemory} (h : l.Wrote l' m') (hm : l.memory? = some m) {unit : Int}
    (other : unit ≠ l.device.unit) : l'.accelerator.memory? unit = l.accelerator.memory? unit := by
  rw [Accelerator.memory?_congr h.memories]
  exact Accelerator.memory?_withMemory_ne hm other

theorem Idle.memory? (h : l.Idle l' failed) : l'.memory? = l.memory? := by
  rw [Link.memory?, Link.memory?, h.unit]
  exact Accelerator.memory?_congr h.memories

/-- Replacing the mapping table is not seen by the accelerator. -/
theorem served_withMappings {t : MappingTable} : l.Served (l.withMappings t) [] :=
  .of_sameFailures rfl (fun _ _ => rfl) rfl

theorem idle_withMappings {t : MappingTable} (h : t.entries = l.device.mappings.entries) :
    l.Idle (l.withMappings t) [] := ⟨served_withMappings, h, rfl⟩

theorem idle_refl (l : Link) : l.Idle l [] := ⟨.of_sameFailures rfl (fun _ _ => rfl) rfl, rfl, rfl⟩

end Link

namespace Device

open DeviceM

variable {l l' : Link} {e : DeviceError} {size addr first base target : Nat}

/-- An allocation that fails changes nothing on the device. -/
theorem allocate_error_eq (h : exec (allocate size) l = (.error e, l')) :
    e = .allocationFailed l.device.id size ∧
      l' = { l with accelerator := l.accelerator.counted .allocate } := by
  change exec (call (fun _ => .allocationFailed l.device.id size)
    (Accelerator.allocate l.device.unit size) >>= _) l = _ at h
  rw [exec_bind, lifts_call l] at h
  rcases ha : exec (Accelerator.allocate l.device.unit size) l.accelerator with ⟨e' | addr, a⟩
  · rw [ha] at h
    cases h
    exact ⟨rfl, by rw [← Accelerator.allocate_error_eq ha]⟩
  · rw [ha] at h
    cases h

theorem allocate_error (h : exec (allocate size) l = (.error e, l')) : l.Idle l' [] := by
  obtain ⟨-, rfl⟩ := allocate_error_eq h
  exact ⟨.of_sameFailures rfl (fun _ _ => rfl) rfl, rfl, rfl⟩

theorem served_of_allocate (h : Returns (allocate size) l addr l') : l.Served l' [] := by
  obtain ⟨_, _, before, -, wrote⟩ := returns_allocate h
  rw [allocate, returns_device_bind, returns_bind] at h
  obtain ⟨_, l₁, hc, h⟩ := h
  obtain ⟨a, allocated, rfl⟩ := lifts_call.returns.1 hc
  rw [returns_bind] at h
  obtain ⟨_, l₂, hn, h⟩ := h
  have := returns_count.1 hn
  subst this
  obtain ⟨rfl, rfl⟩ := returns_pure.1 h
  exact .of_sameFailures rfl (fun _ => wrote.others before)
    (Accelerator.along_allocate_failures.returns allocated)

/-- A release that fails changes nothing, and it fails for a reason. -/
theorem free_error (h : exec (free addr) l = (.error e, l')) :
    l.Idle l' [addr] ∧
      (l.accelerator.schedule .delete (l.accelerator.calls.of .delete) = true ∨
        ∀ m, l.memory? = some m → ∀ b ∈ m.blocks, b.start ≠ addr) := by
  change exec (call (.releaseFailed l.device.id addr)
    (Accelerator.delete l.device.unit addr) >>= _) l = _ at h
  rw [exec_bind, lifts_call l] at h
  rcases hd : exec (Accelerator.delete l.device.unit addr) l.accelerator with ⟨e' | _, a⟩
  · rw [hd] at h
    cases h
    obtain ⟨memories, schedule, failed, why⟩ := Accelerator.delete_error hd
    exact ⟨⟨⟨rfl, fun _ _ => Accelerator.memory?_congr memories, schedule, failed⟩, rfl, memories⟩, why⟩
  · rw [hd] at h
    cases h

theorem served_of_free {u : Unit} (h : Returns (free addr) l u l') : l.Served l' [] := by
  obtain ⟨_, _, before, -, wrote⟩ := returns_free h
  rw [free, returns_device_bind, returns_bind] at h
  obtain ⟨_, l₁, hc, h⟩ := h
  obtain ⟨a, freed, rfl⟩ := lifts_call.returns.1 hc
  have := returns_count.1 h
  subst this
  exact .of_sameFailures rfl (fun _ => wrote.others before) (Accelerator.sameFailures_of_delete freed)

/-- A section that meets no mapping can be mapped. -/
theorem exec_insertMapping {m : Mapping} (hne : m.hostBegin < m.hostEnd)
    (hl : (l.device.mappings.lookup m.hostBegin m.length).mapping? = none) :
    exec (insertMapping m) l = (.ok (), l.withMappings (l.device.mappings.insert m).2) := by
  rw [insertMapping, exec_device_bind]
  dsimp only
  rw [MappingTable.insert_eq hne hl]
  rfl

end Device

end Offloading
