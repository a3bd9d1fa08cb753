import Offloading.Proofs.Reachable
/-!
# Places of devices

Where the devices of a platform are. A call puts its device back where it was, and the devices of a
fresh platform are in different places.
-/

namespace Offloading

namespace Platform

variable {pl pl' : Platform} {dev d : Nat} {l k : Link}

/-- Where the devices are: the accelerator of each, and its position there. -/
def places (pl : Platform) : List (Nat × Int) :=
  pl.devices.map fun slot => (slot.accelerator, slot.device.unit)

/-- No two devices are in one place. -/
def Separate (pl : Platform) : Prop := pl.places.Nodup

theorem getElem?_places {slot : DeviceSlot} (hs : pl.devices[dev]? = some slot) :
    pl.places[dev]? = some (slot.accelerator, slot.device.unit) := by
  rw [places, List.getElem?_map, hs, Option.map_some]

theorem places_congr (h : pl'.links = pl.links) : pl'.places = pl.places := by
  rw [places, places, (Prod.mk.inj h).1]

theorem places_setLink (hl : pl.link? dev = some l) (unit : k.device.unit = l.device.unit) :
    (pl.setLink dev k).places = pl.places := by
  obtain ⟨slot, hs, device, -⟩ := link?_eq_some_iff.1 hl
  refine List.ext_getElem? fun i => ?_
  rw [setLink, hs, places, places, List.getElem?_map, List.getElem?_map]
  by_cases here : dev = i
  · subst here
    obtain ⟨lt, -⟩ := List.getElem?_eq_some_iff.1 hs
    rw [List.getElem?_set_self lt, hs, Option.map_some, Option.map_some, unit, device]
  · rw [List.getElem?_set_ne here]

/-- Two devices of one accelerator are at different positions there. -/
theorem Separate.unit_ne (separate : pl.Separate) {slot slot' : DeviceSlot}
    (hs : pl.devices[dev]? = some slot) (hs' : pl.devices[d]? = some slot') (other : d ≠ dev)
    (together : slot'.accelerator = slot.accelerator) : slot'.device.unit ≠ slot.device.unit := by
  intro unit
  have place := getElem?_places hs'
  rw [together, unit, ← getElem?_places hs] at place
  obtain ⟨lt, -⟩ := List.getElem?_eq_some_iff.1 hs'
  exact other ((List.getElem?_inj (by rwa [places, List.length_map]) separate).1 place)

theorem nodup_places_slots (first position : Nat) (accelerators : List Accelerator) :
    ((slots first position accelerators).map fun slot => (slot.accelerator, slot.device.unit)).Nodup ∧
      ∀ slot ∈ slots first position accelerators, position ≤ slot.accelerator := by
  induction accelerators generalizing first position with
  | nil => exact ⟨List.nodup_nil, fun _ h => nomatch h⟩
  | cons a rest ih =>
      obtain ⟨nodup, later⟩ := ih (first + a.numDevices) (position + 1)
      have here : ∀ slot ∈ (List.range a.numDevices).map (fun unit : Nat =>
          (⟨position, { id := first + unit, unit := unit }⟩ : DeviceSlot)),
          slot.accelerator = position := by
        intro slot hs
        obtain ⟨unit, -, rfl⟩ := List.mem_map.1 hs
        rfl
      refine ⟨?_, fun slot hs => ?_⟩
      · rw [slots, List.map_append, List.nodup_append]
        refine ⟨?_, nodup, fun place hp place' hp' same => ?_⟩
        · rw [List.map_map]
          exact List.Pairwise.map _ (fun i j other same => other (Int.ofNat.inj (Prod.mk.inj same).2))
            List.nodup_range
        · obtain ⟨slot, hs, rfl⟩ := List.mem_map.1 hp
          obtain ⟨slot', hs', rfl⟩ := List.mem_map.1 hp'
          have := later slot' hs'
          rw [← (Prod.mk.inj same).1, here slot hs] at this
          exact Nat.not_succ_le_self _ this
      · rw [slots] at hs
        rcases List.mem_append.1 hs with hs | hs
        · exact Nat.le_of_eq (here slot hs).symm
        · exact Nat.le_of_succ_le (later slot hs)

/-- Devices are numbered by their positions. -/
theorem id_of_slots {accelerators : List Accelerator} {first position i : Nat} {slot : DeviceSlot}
    (h : (slots first position accelerators)[i]? = some slot) : slot.device.id = first + i := by
  induction accelerators generalizing first position i with
  | nil => cases h
  | cons a rest ih =>
      rw [slots, List.getElem?_append, List.length_map, List.length_range] at h
      split at h
      · rename_i here
        rw [List.getElem?_map, List.getElem?_range here, Option.map_some, Option.some.injEq] at h
        rw [← h]
      · rename_i later
        rw [ih h]
        omega

theorem Fresh.id_of_link? (h : pl.Fresh) (hl : pl.link? dev = some l) : l.device.id = dev := by
  obtain ⟨config, accelerators, created, -⟩ := h
  obtain ⟨strategy, -, -, rfl⟩ := ofAccelerators_eq_ok created
  obtain ⟨slot, hs, device, -⟩ := link?_eq_some_iff.1 hl
  rw [← device, id_of_slots hs, Nat.zero_add]

theorem Fresh.separate (h : pl.Fresh) : pl.Separate := by
  obtain ⟨config, accelerators, created, -⟩ := h
  obtain ⟨strategy, -, -, rfl⟩ := ofAccelerators_eq_ok created
  exact (nodup_places_slots 0 0 accelerators).1

end Platform

end Offloading
