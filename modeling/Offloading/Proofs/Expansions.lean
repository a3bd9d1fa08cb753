import Offloading.Proofs.Enter
import Offloading.Proofs.HostMemory
/-!
# What arguments stand for

An argument stands for itself, or for what its descriptor lists. Which descriptor that is depends only on how
many nested arguments come before it, so neither bases that are overwritten nor descriptors that are attached
later change the choice. A descriptor reads no host memory but the section of its argument.
-/

namespace Offloading

/-! ## Descriptors -/

namespace Argument

variable {a : Argument} {slot : Nat}

/-- The addresses of the elements of an array. -/
def slots (a : Argument) : List Nat :=
  (List.range (a.size / Word.bytes)).map fun i => a.start + i * Word.bytes

/-- The array as a region without a descriptor. -/
def unnested (a : Argument) : Argument := { a with mapType := a.mapType.clear [.nested, .hasNested] }

theorem mem_slots (h : slot ∈ a.slots) : a.start ≤ slot ∧ slot + Word.bytes ≤ a.start + a.size := by
  obtain ⟨i, hi, rfl⟩ := List.mem_map.1 h
  have lt := List.mem_range.1 hi
  rw [Word.bytes] at lt ⊢
  omega

theorem length_slots (a : Argument) : a.slots.length = a.size / Word.bytes := by
  rw [slots, List.length_map, List.length_range]

end Argument

namespace RegionPlan

variable {host : HostMemory} {plan : RegionPlan}

theorem resolve_unnested : plan.unnested.resolve host = (plan.resolve host).map Argument.unnested := by
  cases plan with
  | known region => rfl
  | pointee slot size mapType =>
      rw [unnested, resolve, resolve]
      cases host.readPointer slot with
      | zero => rfl
      | succ start => rfl

end RegionPlan

namespace Descriptor

variable {d : Descriptor} {host host' : HostMemory} {seed : Argument} {plans : List RegionPlan}
  {plan : RegionPlan}

/-- The regions that a descriptor lists for `seed` in a host memory that does not change meanwhile. -/
def listed (d : Descriptor) (host : HostMemory) (seed : Argument) : Except String (List Argument) :=
  (d.expand seed).map fun plans => plans.filterMap (·.resolve host)

/-- The pointers that a descriptor follows lie in the section of its argument. -/
theorem pointer_inside {slot size : Nat} {mapType : MapType} (h : d.expand seed = .ok plans)
    (hp : .pointee slot size mapType ∈ plans) :
    seed.start ≤ slot ∧ slot + Word.bytes ≤ seed.start + seed.size := by
  cases d with
  | regions list =>
      cases h
      obtain ⟨r, -, no⟩ := List.mem_map.1 hp
      cases no
  | pointerArray elementSize =>
      rw [expand] at h
      split at h
      · cases h
      · cases h
        rcases List.mem_cons.1 hp with no | hp
        · cases no
        · obtain ⟨slot', mem, same⟩ := List.mem_map.1 hp
          obtain ⟨rfl, -, -⟩ := RegionPlan.pointee.inj same
          exact Argument.mem_slots mem
  | refused detail => cases h

/-- A descriptor reads no host memory but the section of its argument. -/
theorem listed_congr (same : ∀ addr, seed.start ≤ addr → addr < seed.start + seed.size →
    host'.byte addr = host.byte addr) : d.listed host' seed = d.listed host seed := by
  cases expanded : d.expand seed with
  | error detail => rw [listed, listed, expanded, Except.map, Except.map]
  | ok plans =>
      have resolved : ∀ plan ∈ plans, plan.resolve host' = plan.resolve host := by
        intro plan hp
        cases plan with
        | known region => rfl
        | pointee slot size mapType =>
            obtain ⟨lower, upper⟩ := pointer_inside expanded hp
            have pointer : host'.readPointer slot = host.readPointer slot :=
              HostMemory.readPointer_congr fun i hi => same (slot + i) (by omega) (by omega)
            rw [RegionPlan.resolve, RegionPlan.resolve, pointer]
      rw [listed, listed, expanded, Except.map, Except.map, List.filterMap_congr resolved]

end Descriptor

namespace ArgumentList

variable {l : ArgumentList} {a : Argument} {host host' : HostMemory} {index : Nat}

theorem regions_of_plain (ha : l.arguments[index]? = some a) (plain : a.mapType.has .nested = false) :
    l.regions host index = .ok [a] := by
  rw [regions, Region.plans_of_get ha plain]
  rfl

/-- A nested argument stands for what its descriptor lists, without the flags that call for a descriptor. -/
theorem regions_of_nested (ha : l.arguments[index]? = some a) (nested : a.mapType.has .nested = true) :
    l.regions host index =
      match l.descriptors[l.descriptorIndex index]? with
      | none => .error (.missingDescriptor index)
      | some d => ((d.listed host a).map (List.map .unnested)).mapError (.descriptor index) := by
  have resolved (plans : List RegionPlan) :
      (plans.map RegionPlan.unnested).filterMap (RegionPlan.resolve host) =
        (plans.filterMap (RegionPlan.resolve host)).map Argument.unnested := by
    simp only [List.filterMap_map, List.map_filterMap, Function.comp_def, RegionPlan.resolve_unnested]
  rw [regions, map_plans_of_nested _ ha nested]
  simp only [resolved]
  cases l.descriptors[l.descriptorIndex index]? with
  | none => rfl
  | some d =>
      dsimp only
      rw [Descriptor.listed]
      cases d.expand a with
      | error detail => rfl
      | ok plans => rfl

section nested

variable (ha : l.arguments[index]? = some a) (nested : a.mapType.has .nested = true)

include ha nested

theorem regions_eq_missing_iff : l.regions host index = .error (.missingDescriptor index) ↔
    l.descriptors.length < l.descriptorIndex index + 1 := by
  rw [regions_of_nested ha nested, Nat.lt_succ_iff, ← List.getElem?_eq_none_iff]
  cases l.descriptors[l.descriptorIndex index]? with
  | none => exact iff_of_true rfl rfl
  | some d =>
      dsimp only
      cases d.listed host a with
      | error detail => exact iff_of_false nofun nofun
      | ok listed => exact iff_of_false nofun nofun

theorem regions_eq_failed_iff {detail : String} : l.regions host index = .error (.descriptor index detail) ↔
    ∃ d, l.descriptors[l.descriptorIndex index]? = some d ∧ d.listed host a = .error detail := by
  rw [regions_of_nested ha nested]
  cases l.descriptors[l.descriptorIndex index]? with
  | none => exact iff_of_false nofun nofun
  | some d =>
      dsimp only
      cases listed : d.listed host a with
      | error other => simp [Except.map, Except.mapError, listed]
      | ok regions => simp [Except.map, Except.mapError, listed]

theorem regions_eq_ok_iff {regions : List Argument} : l.regions host index = .ok regions ↔
    ∃ d listed, l.descriptors[l.descriptorIndex index]? = some d ∧ d.listed host a = .ok listed ∧
      regions = listed.map .unnested := by
  rw [regions_of_nested ha nested]
  cases l.descriptors[l.descriptorIndex index]? with
  | none => exact iff_of_false nofun nofun
  | some d =>
      dsimp only
      cases listed : d.listed host a with
      | error detail => simp [Except.map, Except.mapError, listed]
      | ok found => simp [Except.map, Except.mapError, listed, eq_comm]

end nested

/-- What an argument stands for depends on the host memory of its section only. -/
theorem regions_congr (ha : l.arguments[index]? = some a) (same : ∀ addr, a.start ≤ addr →
    addr < a.start + a.size → host'.byte addr = host.byte addr) :
    l.regions host' index = l.regions host index := by
  cases nested : a.mapType.has .nested with
  | false => rw [regions_of_plain ha nested, regions_of_plain ha nested]
  | true =>
      rw [regions_of_nested ha nested, regions_of_nested ha nested]
      cases l.descriptors[l.descriptorIndex index]? with
      | none => rfl
      | some d =>
          dsimp only
          rw [Descriptor.listed_congr same]

/-- Descriptors that are attached later are not used where there is one already. -/
theorem regions_append {l' : ArgumentList} {more : List Descriptor} (arguments : l'.arguments = l.arguments)
    (descriptors : l'.descriptors = l.descriptors ++ more)
    (available : l.regions host index ≠ .error (.missingDescriptor index)) :
    l'.regions host index = l.regions host index := by
  cases ha : l.arguments[index]? with
  | none =>
      rw [regions, regions, plans, plans, get, get, arguments, ha, size, size, arguments]
      rfl
  | some a =>
      have ha' : l'.arguments[index]? = some a := by rw [arguments, ha]
      cases nested : a.mapType.has .nested with
      | false => rw [regions_of_plain ha nested, regions_of_plain ha' nested]
      | true =>
          have same : l'.descriptorIndex index = l.descriptorIndex index := by
            rw [descriptorIndex, descriptorIndex, arguments]
          rw [regions_of_nested ha nested] at available ⊢
          rw [regions_of_nested ha' nested, same, descriptors]
          cases found : l.descriptors[l.descriptorIndex index]? with
          | none =>
              rw [found] at available
              exact absurd rfl available
          | some d =>
              obtain ⟨inside, -⟩ := List.getElem?_eq_some_iff.1 found
              rw [List.getElem?_append_left inside, found]

end ArgumentList

/-! ## Lists that are made -/

/-- Something that is done to an argument list after its arguments are known. -/
inductive ArgumentChange where
  /-- Attaches one more descriptor. -/
  | attach (d : Descriptor)
  /-- Overwrites the base of the argument at a position, if there is one. -/
  | setBase (index base : Nat)

namespace ArgumentChange

/-- The descriptor that the change attaches. -/
def descriptor? : ArgumentChange → Option Descriptor
  | attach d => some d
  | setBase _ _ => none

/-- The base that the change gives to the argument at a position. -/
def base? (index : Nat) : ArgumentChange → Option Nat
  | attach _ => none
  | setBase i base => if i = index then some base else none

/-- The descriptors that are attached, in order. -/
def attached (changes : List ArgumentChange) : List Descriptor := changes.filterMap descriptor?

/-- The base that the argument at a position is given last, or the one that it has. -/
def lastBase (changes : List ArgumentChange) (index base : Nat) : Nat :=
  (changes.filterMap (base? index)).getLast?.getD base

theorem lastBase_cons {changes : List ArgumentChange} {c : ArgumentChange} {index base : Nat} :
    lastBase (c :: changes) index base = lastBase changes index ((c.base? index).getD base) := by
  rw [lastBase, lastBase, List.filterMap_cons]
  cases c.base? index with
  | none => rfl
  | some b => rw [List.getLast?_cons, Option.getD_some, Option.getD_some]

end ArgumentChange

namespace ArgumentList

open ArgumentChange

variable {l : ArgumentList} {c : ArgumentChange} {index : Nat}

/-- The list after a change. -/
def change (l : ArgumentList) : ArgumentChange → ArgumentList
  | .attach d => l.attach d
  | .setBase index base => (l.setBase index base).toOption.getD l

/-- The list of some arguments after several changes. -/
def made (arguments : List Argument) (changes : List ArgumentChange) : ArgumentList :=
  changes.foldl change { arguments }

theorem descriptors_change : (l.change c).descriptors = l.descriptors ++ c.descriptor?.toList := by
  cases c with
  | attach d => rfl
  | setBase i base =>
      rw [change, descriptor?, Option.toList_none, List.append_nil]
      cases ran : l.setBase i base with
      | error e => rfl
      | ok l' => exact (setBase_sameFrames ran).descriptors

theorem getElem?_change : (l.change c).arguments[index]? =
    l.arguments[index]?.map fun a => { a with base := (c.base? index).getD a.base } := by
  cases c with
  | attach d => exact Option.map_id'.symm
  | setBase i base =>
      rw [change, base?, setBase]
      cases found : l.arguments[i]? with
      | none =>
          by_cases here : i = index
          · subst here
            rw [Except.toOption, Option.getD_none, found]
            rfl
          · rw [if_neg here]
            exact Option.map_id'.symm
      | some a =>
          obtain ⟨inside, rfl⟩ := List.getElem?_eq_some_iff.1 found
          by_cases here : i = index
          · subst here
            rw [if_pos rfl, found, Except.toOption, Option.getD_some, List.getElem?_set_self inside]
            rfl
          · rw [if_neg here, Except.toOption, Option.getD_some, List.getElem?_set_ne here]
            exact Option.map_id'.symm

theorem foldl_attach (more : List Descriptor) (l : ArgumentList) :
    (more.foldl attach l).arguments = l.arguments ∧
      (more.foldl attach l).descriptors = l.descriptors ++ more := by
  induction more generalizing l with
  | nil => exact ⟨rfl, (List.append_nil _).symm⟩
  | cons d rest ih =>
      obtain ⟨arguments, descriptors⟩ := ih (l.attach d)
      exact ⟨arguments, descriptors.trans (List.append_assoc _ [d] rest)⟩

theorem descriptors_made (arguments : List Argument) (changes : List ArgumentChange) :
    (made arguments changes).descriptors = attached changes := by
  have run (changes : List ArgumentChange) (l : ArgumentList) :
      (changes.foldl change l).descriptors = l.descriptors ++ attached changes := by
    induction changes generalizing l with
    | nil => exact (List.append_nil _).symm
    | cons c rest ih =>
        rw [List.foldl_cons, ih, descriptors_change, attached, attached, List.filterMap_cons]
        cases c.descriptor? with
        | none => rw [Option.toList_none, List.append_nil]
        | some d => rw [Option.toList_some, List.append_assoc, List.singleton_append]
  exact run changes { arguments }

theorem getElem?_made {arguments : List Argument} {changes : List ArgumentChange} :
    (made arguments changes).arguments[index]? =
      arguments[index]?.map fun a => { a with base := lastBase changes index a.base } := by
  have run (changes : List ArgumentChange) (l : ArgumentList) :
      (changes.foldl change l).arguments[index]? =
        l.arguments[index]?.map fun a => { a with base := lastBase changes index a.base } := by
    induction changes generalizing l with
    | nil => exact Option.map_id'.symm
    | cons c rest ih =>
        rw [List.foldl_cons, ih, getElem?_change, Option.map_map]
        simp only [Function.comp_def, lastBase_cons]
  exact run changes { arguments }

/-- Which descriptor an argument uses is settled by the arguments that the list was made of. -/
theorem descriptorIndex_made (arguments : List Argument) (changes : List ArgumentChange) :
    (made arguments changes).descriptorIndex index =
      (arguments.take index).countP fun a => a.mapType.has .nested := by
  have frames : (made arguments changes).arguments.map Argument.frame = arguments.map Argument.frame := by
    refine List.ext_getElem? fun i => ?_
    rw [List.getElem?_map, List.getElem?_map, getElem?_made, Option.map_map]
    rfl
  exact descriptorIndex_of_frames (l := { arguments }) frames

/-- However descriptors are attached to some arguments and bases overwritten, an argument that is not nested
stands for itself. A nested one uses the descriptor whose number is the number of nested arguments before
it: the descriptor is missing exactly if no more than that number are attached, its failure is the only
other one, and otherwise the argument stands for the regions that the descriptor lists for it, with the
base that it was given last, in their order and without the two flags that call for a descriptor. What an
argument stands for does not change as long as its section in host memory does not, and attaching more
descriptors changes it only if its own was missing. -/
theorem regions_made {arguments : List Argument} {a : Argument} (ha : arguments[index]? = some a)
    (changes : List ArgumentChange) (host : HostMemory) :
    ∃ l seed k, made arguments changes = l ∧ l.get index = .ok seed ∧
      seed = { a with base := lastBase changes index a.base } ∧
      k = ((arguments.take index).countP fun b => b.mapType.has .nested) ∧
      (a.mapType.has .nested = false → l.regions host index = .ok [seed]) ∧
      (a.mapType.has .nested = true →
        (l.regions host index = .error (.missingDescriptor index) ↔ (attached changes).length < k + 1) ∧
        (∀ detail, l.regions host index = .error (.descriptor index detail) ↔
          ∃ d, (attached changes)[k]? = some d ∧ d.listed host seed = .error detail) ∧
        ∀ regions, l.regions host index = .ok regions ↔
          ∃ d listed, (attached changes)[k]? = some d ∧ d.listed host seed = .ok listed ∧
            regions = listed.map fun r => { r with mapType := ⟨r.mapType.bits &&& ~~~0x3000#64⟩ }) ∧
      (∀ host', (∀ addr, seed.start ≤ addr → addr < seed.start + seed.size →
        host'.byte addr = host.byte addr) → l.regions host' index = l.regions host index) ∧
      ∀ more, l.regions host index ≠ .error (.missingDescriptor index) →
        (List.foldl attach l more).regions host index = l.regions host index := by
  have hs : (made arguments changes).arguments[index]? =
      some { a with base := lastBase changes index a.base } := by
    rw [getElem?_made, ha]
    rfl
  refine ⟨_, _, _, rfl, get_eq_ok.2 hs, rfl, rfl, fun plain => regions_of_plain hs plain, fun nested => ?_,
    fun host' same => regions_congr hs same, fun more available => ?_⟩
  · rw [← descriptors_made arguments changes, ← descriptorIndex_made arguments changes]
    exact ⟨regions_eq_missing_iff hs nested, fun detail => regions_eq_failed_iff hs nested,
      fun regions => regions_eq_ok_iff hs nested⟩
  · obtain ⟨arguments, descriptors⟩ := foldl_attach more (made arguments changes)
    exact regions_append arguments descriptors available

/-- Two nested arguments around a plain one. -/
def aroundPlain : List Argument :=
  [⟨0x1000, 0x1000, 16, .ofFlags [.toDevice, .nested, .hasNested]⟩, ⟨0x2000, 0x2000, 8, .ofFlags [.toDevice]⟩,
    ⟨0x3000, 0x3000, 8, .ofFlags [.fromDevice, .nested]⟩]

/-- Attaches two descriptors and overwrites a base in between. -/
def aroundPlainChanges : List ArgumentChange :=
  [.attach (.refused "no regions"), .setBase 2 0x3008, .attach (.pointerArray 4)]

/-- The second descriptor is for the third argument, an array with a null pointer. It stands for itself, with
its base overwritten, whatever is stored behind it, and also when another descriptor is attached. -/
theorem regions_made_aroundPlain :
    (∀ addr, 0x3000 ≤ addr → addr < 0x3000 + 8 →
      (HostMemory.write {} 0x3008 [1]).byte addr = HostMemory.byte {} addr) ∧
      (made aroundPlain aroundPlainChanges).regions {} 1 = .ok [⟨0x2000, 0x2000, 8, .ofFlags [.toDevice]⟩] ∧
      (made aroundPlain aroundPlainChanges).regions {} 2 =
        .ok [⟨0x3008, 0x3000, 8, .ofFlags [.fromDevice]⟩] ∧
      (made aroundPlain aroundPlainChanges).regions (HostMemory.write {} 0x3008 [1]) 2 =
        (made aroundPlain aroundPlainChanges).regions {} 2 ∧
      ([Descriptor.regions []].foldl attach (made aroundPlain aroundPlainChanges)).regions {} 2 =
        (made aroundPlain aroundPlainChanges).regions {} 2 := by
  have outside : ∀ addr, 0x3000 ≤ addr → addr < 0x3000 + 8 →
      (HostMemory.write {} 0x3008 [1]).byte addr = HostMemory.byte {} addr :=
    fun addr _ upper => HostMemory.byte_write_outside (.inl upper)
  have second : aroundPlain[1]? = some ⟨0x2000, 0x2000, 8, .ofFlags [.toDevice]⟩ := rfl
  have third : aroundPlain[2]? = some ⟨0x3000, 0x3000, 8, .ofFlags [.fromDevice, .nested]⟩ := rfl
  obtain ⟨_, _, _, rfl, -, rfl, rfl, itself, -⟩ := regions_made second aroundPlainChanges {}
  obtain ⟨_, _, _, rfl, -, rfl, rfl, -, listed, still, further⟩ := regions_made third aroundPlainChanges {}
  have array : (made aroundPlain aroundPlainChanges).regions {} 2 =
      .ok [⟨0x3008, 0x3000, 8, .ofFlags [.fromDevice]⟩] :=
    ((listed rfl).2.2 _).2 ⟨.pointerArray 4, [⟨0x3008, 0x3000, 8, .ofFlags [.fromDevice, .nested]⟩], rfl, rfl, rfl⟩
  exact ⟨outside, itself rfl, array, still _ outside, further [.regions []] (by rw [array]; nofun)⟩

end ArgumentList

end Offloading
