import Offloading.Proofs.Addresses
import Offloading.Proofs.Balance
/-!
# Blocks of global variables

Loading an image gives a block to each global variable that it reaches, and nothing else gives one. The
blocks of a device lie in the order in which it was given them, so no two of them share an address.
-/

namespace Offloading

namespace Service

/-- Where a block was allocated for a global variable. -/
def placed? : Service → Option Nat
  | .placed addr => some addr
  | _ => none

theorem placed?_of_not_isPlaced {s : Service} (h : s.isPlaced = false) : s.placed? = none := by
  cases s with
  | placed addr => cases h
  | _ => rfl

end Service

/-- Where the global variables of a loaded image lie. -/
def Image.globals (image : Image) : List Nat := (image.filter Symbol.isGlobal).map Symbol.addr

theorem Image.globals_cons {s : Symbol} {image : Image} :
    Image.globals (s :: image) = (if s.isGlobal then [s.addr] else []) ++ Image.globals image := by
  rw [globals, List.filter_cons]
  split
  · rfl
  · rfl

namespace Accelerator

variable {a a' : Accelerator} {unit : Int} {m : DeviceMemory} {addr size : Nat}

/-- The blocks that a device was given for global variables, first one first. -/
def placed (a : Accelerator) (unit : Int) : List Nat := (a.servicesOf unit).filterMap Service.placed?

theorem placed_congr (h : a'.servicesOf unit = a.servicesOf unit) : a'.placed unit = a.placed unit := by
  rw [placed, placed, h]

theorem placed_noted : (a.noted unit (.placed addr)).placed unit = a.placed unit ++ [addr] := by
  rw [placed, servicesOf_noted, List.filterMap_append]
  rfl

/-- Later blocks lie behind earlier ones, and the next one will lie behind them all. -/
structure Stacked (a : Accelerator) (unit : Int) : Prop where
  sorted : (a.placed unit).Pairwise (· < ·)
  below : ∀ m, a.memory? unit = some m → ∀ addr ∈ a.placed unit, addr < m.next

theorem Stacked.aged (h : a.Stacked unit) (same : a'.placed unit = a.placed unit) (aged : a.Aged a') :
    a'.Stacked unit := by
  refine ⟨same ▸ h.sorted, fun m' hm' addr mem => ?_⟩
  obtain ⟨m, hm, later⟩ := aged unit m' hm'
  exact Nat.lt_of_lt_of_le (h.below m hm addr (same ▸ mem)) later.next

theorem Stacked.apart (h : a.Stacked unit) (apart : a.Apart unit a') : a'.Stacked unit := by
  have same := placed_congr apart.servicesOf
  refine ⟨same ▸ h.sorted, fun m hm addr mem => ?_⟩
  exact h.below m (apart.memory? ▸ hm) addr (same ▸ mem)

/-- A new block lies behind the others. -/
theorem Stacked.place {m' : DeviceMemory} (h : a.Stacked unit) (hm : a.memory? unit = some m)
    (ha : m.allocate size = (some addr, m')) :
    ((a.withMemory unit m').noted unit (.placed addr)).Stacked unit := by
  obtain ⟨rfl, rfl⟩ := DeviceMemory.allocate_eq_some ha
  have room := DeviceMemory.lt_stride (max size 1)
  refine ⟨?_, fun n hn addr mem => ?_⟩
  · rw [placed_noted, List.pairwise_append]
    refine ⟨h.sorted, List.pairwise_singleton .., fun x hx y hy => ?_⟩
    rw [List.mem_singleton.1 hy]
    exact h.below m hm x hx
  · obtain rfl : _ = n := Option.some.inj ((memory?_withMemory hm).symm.trans hn)
    change addr < m.next + DeviceMemory.stride (max size 1)
    rw [placed_noted] at mem
    rcases List.mem_append.1 mem with old | new
    · have := h.below m hm addr old
      omega
    · rw [List.mem_singleton.1 new]
      omega

theorem Quiet.stacked (h : a.Quiet a') : Kept (fun a => a.Stacked unit) a a' :=
  fun stacked => stacked.apart h.apart

private theorem stacked_loadSymbol {s : Symbol} :
    Along (Kept fun a => a.Stacked unit) (loadSymbol unit s) := by
  refine Along.ite (along_memory_bind fun a m hm => ?_) (Along.get.bind fun a => ?_)
  · rcases ha : m.allocate s.size with ⟨_ | addr, m'⟩
    · rw [DeviceMemory.allocate_eq_none ha]
      change Kept (fun a => a.Stacked unit) a (a.withMemory unit m)
      rw [withMemory_self hm]
      exact id
    · exact fun h => h.place hm ha
  · split
    · exact Along.pure
    · exact Along.throw

/-- Loading an image, also one that fails, puts new blocks behind the others. -/
theorem stacked_load {image : Image} : Along (Kept fun a => a.Stacked unit) (load unit image) :=
  along_attempt_bind Quiet.stacked (Along.mapM (fun _ => stacked_loadSymbol) image)

/-- Loading an image takes no block away from a global variable. -/
theorem placed_prefix_load {image : Image} :
    a.placed unit <+: (exec (load unit image) a).2.placed unit := by
  have places : Places unit a (exec (load unit image) a).2 := places_load a
  obtain ⟨done, -, services, -⟩ := places
  refine ⟨done.filterMap Service.placed?, ?_⟩
  rw [placed, placed, services, List.filterMap_append]

private theorem placed_of_loadSymbol {s s' : Symbol} (h : Returns (loadSymbol unit s) a s' a') :
    a'.placed unit = a.placed unit ++ if s'.isGlobal then [s'.addr] else [] := by
  rw [loadSymbol] at h
  split at h
  · rename_i isGlobal
    rw [returns_memory_bind] at h
    obtain ⟨m, hm, h⟩ := h
    rw [returns_setMemory_bind] at h
    split at h
    · rename_i addr ha
      have h : Returns (pure { s with addr }) _ s' a' := returns_modify_bind.1 h
      obtain ⟨rfl, rfl⟩ := returns_pure.1 h
      refine placed_noted.trans ?_
      rw [if_pos (show Symbol.isGlobal { s with addr } = true from isGlobal)]
      rfl
    · exact absurd h not_returns_throw
  · rename_i isFunction
    rw [returns_get_bind] at h
    split at h
    · rename_i i found
      obtain ⟨rfl, rfl⟩ := returns_pure.1 h
      rw [if_neg (show ¬ Symbol.isGlobal { s with addr := kernelBase + i } = true from isFunction),
        List.append_nil]
    · exact absurd h not_returns_throw

private theorem placed_of_loadSymbols {image symbols : Image}
    (h : Returns (image.mapM (loadSymbol unit)) a symbols a') :
    a'.placed unit = a.placed unit ++ symbols.globals := by
  induction image generalizing a symbols with
  | nil =>
      obtain ⟨rfl, rfl⟩ := returns_pure.1 h
      exact (List.append_nil _).symm
  | cons s rest ih =>
      rw [List.mapM_cons, returns_bind] at h
      obtain ⟨s', a₁, first, h⟩ := h
      obtain ⟨others, a₂, later, h⟩ := returns_bind.1 h
      obtain ⟨rfl, rfl⟩ := returns_pure.1 h
      rw [Image.globals_cons, ih later, placed_of_loadSymbol first, List.append_assoc]

/-- An image that was loaded gave each of its global variables a block, and no block besides. -/
theorem placed_of_load {image symbols : Image} (h : Returns (load unit image) a symbols a') :
    a'.placed unit = a.placed unit ++ symbols.globals := by
  have given := placed_of_loadSymbols (returns_attempt_bind h)
  exact given

end Accelerator

namespace Link

variable {l l' : Link}

/-- The blocks that the device was given for global variables. -/
def placed (l : Link) : List Nat := l.accelerator.placed l.device.unit

/-- Its later blocks lie behind its earlier ones. -/
def Stacked (l : Link) : Prop := l.accelerator.Stacked l.device.unit

theorem Stacked.nodup (h : l.Stacked) : l.placed.Nodup := h.sorted.imp fun lt => Nat.ne_of_lt lt

/-- The device is given no block for a global variable, and the next one will still lie behind the
others. -/
structure PlacesNothing (l l' : Link) : Prop where
  id : l'.device.id = l.device.id
  placed : l'.placed = l.placed
  stacked : l.Stacked → l'.Stacked

instance : Lasting PlacesNothing where
  refl _ := ⟨rfl, rfl, fun h => h⟩
  trans h h' :=
    ⟨h'.id.trans h.id, h'.placed.trans h.placed, fun stacked => h'.stacked (h.stacked stacked)⟩

theorem placesNothing_of_aged (id : l'.device.id = l.device.id) (aged : l.Aged l')
    (same : l'.placed = l.placed) : l.PlacesNothing l' := by
  refine ⟨id, same, fun stacked => ?_⟩
  rw [placed, aged.unit] at same
  rw [Stacked, aged.unit]
  exact Accelerator.Stacked.aged stacked same aged.accelerator

/-- What an accelerator does for other devices. -/
theorem placesNothing_elsewhere {a : Accelerator} (apart : l.accelerator.Apart l.device.unit a) :
    l.PlacesNothing { l with accelerator := a } :=
  ⟨rfl, Accelerator.placed_congr apart.servicesOf, fun stacked => stacked.apart apart⟩

theorem placesNothing_flagged {pending : Bool} :
    l.PlacesNothing { l with device := { l.device with pending } } := ⟨rfl, rfl, fun h => h⟩

theorem placed_of_services (h : l'.services = l.services) : l'.placed = l.placed :=
  congrArg (List.filterMap Service.placed?) h

end Link

namespace Device

open DeviceM

/-- No operation on a device gives it a block for a global variable. -/
theorem steps_placed : AllSteps (Fixed Link.placed) where
  quiet unit _ quiet := by
    refine Link.placed_of_services ?_
    rw [Link.services, unit]
    exact quiet.apart.servicesOf
  counted counted := by
    rcases services_counted counted with same | more
    · exact Link.placed_of_services same
    · have none := Service.placed?_of_not_isPlaced counted.amounts.placed
      refine (congrArg (List.filterMap Service.placed?) more).trans ?_
      rw [List.filterMap_append, List.filterMap_cons_none none]
      exact List.append_nil _
  allocate _ := Link.placed_of_services services_allocate
  free _ := by
    refine (congrArg (List.filterMap Service.placed?) services_free).trans ?_
    rw [List.filterMap_append]
    exact List.append_nil _

theorem placesNothing_prepare : Along Link.PlacesNothing prepare := fun l =>
  have still := (along_prepare l).still
  Link.placesNothing_of_aged still.id still.aged (steps_placed.prepare l)

end Device

end Offloading
