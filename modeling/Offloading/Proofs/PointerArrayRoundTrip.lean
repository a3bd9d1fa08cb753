import Offloading.Proofs.PointerArrayReleases
import Offloading.Proofs.ReadyAgain
/-!
# Ending a region with a pointer array

A region whose argument is a pointer array gives back all that it took, and the array keeps its pointers. That
the array is deleted by force is in the way of this, since its elements still hold it then; and so is an array
that always comes from the device but never goes there, if kernels translate addresses themselves, since its
copy has no pointers then.
-/

namespace Offloading

/-! ## What remains at the end -/

namespace Link.Remains

variable {l k k' : Link} {places : List Mapping} {sections : List HostSection} {s : HostSection}

theorem untouched (h : l.Remains places [] k k') (free : ∀ m ∈ l.device.mappings, m.Untouched s) :
    ∀ m ∈ k'.device.mappings, m.Untouched s := by
  intro m hm
  rcases (h.outstanding.mappings m).1 hm with ⟨p, -, pos, -⟩ | old
  · exact absurd pos (Nat.lt_irrefl 0)
  · exact free m old

end Link.Remains

/-- When an array and its rows were released, nothing touches their sections. -/
theorem ArrayHeld.clear_of_remains {settings : Settings} {a : Argument} {host : HostMemory} {size : Nat}
    {l k k' : Link} {places : List Mapping} (held : ArrayHeld settings a size host l places k)
    (remains : l.Remains places [] k k') : k'.Clear (a.arraySections host size) where
  untouched e he := remains.untouched (held.outstanding.lodged e he).untouched
  forgotten e he x hx := by
    rcases held.faithful x (remains.shadows x hx) with outside | ⟨mem, -⟩
    · exact outside e he
    · have there : a.hostSection.Holds x.hostSlot :=
        Argument.holds_slot mem (Nat.le_refl _) (Nat.lt_add_of_pos_right (by decide))
      obtain ⟨p, hp, lower, upper⟩ := held.lodged_array.inside (by
        obtain ⟨first, stop⟩ := there
        rw [HostSection.stop] at stop
        omega)
      have outside := remains.cleared p hp rfl x hx
      rw [Mapping.contains_iff.2 ⟨Nat.le_trans lower there.1, Nat.lt_of_lt_of_le there.2 upper⟩] at outside
      cases outside

namespace Argument

variable {a : Argument} {settings : Settings} {host : HostMemory}

theorem nodup_slots (a : Argument) : a.slots.Nodup := by
  refine List.nodup_range.map fun i j same => ?_
  rw [Word.bytes] at same
  omega

/-- Leaving right after entering releases the array: it is not deleted by force, and if it always comes back,
then it has its pointers on the device, where they were patched or sent with it. An array without pointers has
no such needs. -/
def Releasable (settings : Settings) (a : Argument) (host : HostMemory) : Prop :=
  a.AllNull host ∨ a.mapType.has .delete = false ∧
    (a.mapType.has .fromDevice = true → a.mapType.has .always = true →
      settings.config.translatesOnDevice = true → a.mapType.has .toDevice = true)

instance : Decidable (Releasable settings a host) := inferInstanceAs (Decidable (_ ∨ _ ∧ _))

theorem Releasable.mild (h : Releasable settings a host) (delete : a.mapType.has .delete = true) :
    a.AllNull host := by
  rcases h with null | ⟨keeps, -⟩
  · exact null
  · rw [keeps] at delete
    cases delete

end Argument

/-! ## Entering and leaving -/

namespace Region

open RegionM

variable {settings : Settings} {a : Argument} {s s' t : RegionState} {u : Unit} {size : Nat}

section entered

variable (sound : s.activation.link.Sound) (idle : s.activation.queue = {})
  (list : s.arguments.IsPointerArray a size) (entered : Returns (enter settings) s u s')
  {places : List Mapping} {t₁ : RegionState}
  (held : ArrayHeld settings a size s.host s.activation.link places s'.activation.link)
  (space : ∀ p ∈ places, p.InSpace) (releasable : a.Releasable settings s.host)

include sound idle list entered held space releasable

/-- Releasing the array leaves its bytes as they are. -/
theorem byte_array_released (link : t.activation.link = s'.activation.link) (host : t.host = s.host)
    (ran : Returns (unmapRegion settings false a.unnested) t u t₁) {addr : Nat}
    (holds : a.hostSection.Holds addr) : t₁.host.byte addr = s.host.byte addr := by
  obtain ⟨lower, upper⟩ := holds
  obtain ⟨i, rfl⟩ := Nat.exists_eq_add_of_le (show a.start ≤ addr from lower)
  have hi : i < a.size := Nat.lt_of_add_lt_add_left upper
  have held' : ArrayHeld settings a size t.host s.activation.link places t.activation.link := by
    rwa [host, link]
  rcases byte_released_array held' list.array (host ▸ releasable.mild) ran hi with
    same | ⟨comes, free, p, hp, inside, taken⟩
  · rw [same, host]
  · rw [host] at comes free
    rw [link] at taken
    by_cases element : a.InElement s.host (a.start + i)
    · obtain ⟨slot, mem, live, there⟩ := element
      have several : ¬ a.AllNull s.host := fun null => live (null slot mem)
      rw [arrayComesBack, comesBack, decide_eq_false several, Bool.false_or, Bool.and_eq_true] at comes
      obtain translates | outside := free
      · obtain null | ⟨-, goes⟩ := releasable
        · exact absurd null several
        · have copied := copied_enter sound idle list entered held space hp inside hi translates
            (goes comes.1 comes.2 translates)
          exact Option.some.inj (taken.symm.trans copied)
      · exact absurd ⟨slot, mem, live, there⟩ outside
    · exact null_enter sound idle list entered held space hp inside hi taken element

end entered

/-- Leaving right after entering gives back what the array and its rows took, and the array keeps its bytes. -/
theorem undo_enter_array (sound : s.activation.link.Sound) (idle : s.activation.queue = {})
    (list : s.arguments.IsPointerArray a size) (apart : a.RowsApart s.host size)
    (releasable : a.Releasable settings s.host)
    (clear : s.activation.link.Clear (a.arraySections s.host size))
    (reliable : s.activation.link.accelerator.Reliable) (entered : Returns (enter settings) s u s')
    (space : ∀ m ∈ s'.activation.link.device.mappings, m.InSpace) (arguments : t.arguments = s'.arguments)
    (link : t.activation.link = s'.activation.link) (host : t.host = s.host) :
    ∃ t', Returns (leave settings) t () t' ∧ t'.activation.link.footprint = s.activation.link.footprint ∧
      t'.activation.link.Clear (a.arraySections s.host size) ∧
      ∀ slot ∈ a.slots, t'.host.readPointer slot = s.host.readPointer slot := by
  obtain ⟨same, places, held⟩ := arrayHeld_enter sound idle list entered apart clear
  have service := admits_sameService.enter.returns entered
  have held' : ArrayHeld settings a size t.host s.activation.link places t.activation.link := by
    rwa [host, link]
  have list' : t.arguments.IsPointerArray a size := by rwa [arguments, same]
  have reliable' : t.activation.link.accelerator.Reliable := by
    rw [link]
    exact Link.SameService.reliable service reliable
  have spacious : ∀ p ∈ places, p.InSpace := fun p hp => by
    have there := space _ ((held.outstanding.mappings _).2 (.inl ⟨p, hp, held.touches_pos hp, rfl⟩))
    exact ⟨there.host, there.device⟩
  obtain ⟨t₁, first⟩ : ∃ t₁, Returns (unmapRegion settings false a.unnested) t () t₁ :=
    exists_released_array held' list.array (host ▸ releasable.mild) spacious reliable'
  obtain ⟨remains, -⟩ := released_array held' list.array (host ▸ releasable.mild) first
  have service₁ := admits_sameService.toLeaves.unmapRegion.returns first
  have bytes : ∀ addr, a.hostSection.Holds addr → t₁.host.byte addr = s.host.byte addr := fun addr =>
    byte_array_released sound idle list entered held spacious releasable link host first
  rw [host, link] at remains
  obtain ⟨t', rest⟩ := exists_released_rows held apart releasable.mild (fun _ mem => mem) a.nodup_slots bytes
    remains spacious (Link.SameService.reliable service₁ reliable')
  obtain ⟨remains', kept, -⟩ := released_rows held apart releasable.mild (fun _ mem => mem) a.nodup_slots bytes
    remains rest
  refine ⟨t', (returns_leave_array list').2 ⟨t₁, first, rest⟩, remains'.outstanding.footprint,
    held.clear_of_remains remains', fun slot mem => ?_⟩
  refine HostMemory.readPointer_congr fun i hi => ?_
  have holds := Argument.holds_slot mem (Nat.le_add_right slot i) (Nat.add_lt_add_left hi slot)
  rw [kept _ fun other there live => apart.not_holds_row there live holds, bytes _ holds]

end Region

/-! ## Calls -/

namespace Platform

open CallM

variable {pl : Platform} {id : Int}

/-- Ending a region right after it began, where its argument is a pointer array and nothing on the device touches
the array and its rows, succeeds if the array can be released. It restores the mappings with their counts and
the live blocks of all devices, no pointer in the sections is remembered any more, and all pointers of the array
are as they were. -/
theorem dataEnd_pointerArray {arguments : ArgumentList} {a : Argument} {size : Nat} {s : CallState} {u : Unit}
    (reachable : pl.Reachable) (loaded : pl.LoadedFor id) (reliable : ∀ a ∈ pl.accelerators, a.Reliable)
    (list : arguments.IsPointerArray a size) (apart : a.RowsApart pl.host size)
    (releasable : a.Releasable pl.settings pl.host)
    (clear : ∀ dev l, Returns (deviceIndex id) pl dev pl → pl.link? dev = some l →
      l.Clear (a.arraySections pl.host size))
    (begun : Returns (dataBegin id) { platform := pl, arguments } u s)
    (space : ∀ dev l, s.platform.link? dev = some l → ∀ m ∈ l.device.mappings, m.InSpace) :
    ∃ s', Returns (dataEnd id) s () s' ∧ s'.platform.footprint = pl.footprint ∧
      (∀ dev l, Returns (deviceIndex id) pl dev pl → s'.platform.link? dev = some l →
        l.Clear (a.arraySections pl.host size)) ∧
      ∀ slot ∈ a.slots, s'.platform.host.readPointer slot = pl.host.readPointer slot := by
  obtain ⟨dev, l, l', r, began⟩ := began_of_dataBegin loaded begun
  have clear' : l'.Clear (a.arraySections pl.host size) :=
    (clear dev l began.index began.link).prepared (Device.along_prepare.returns began.prepare)
  have host : (CallState.region { platform := pl.setLink dev l', arguments } l').host = pl.host := host_setLink
  have host' : (reentry s dev r).host = pl.host := began.host_reentry.trans (began.host.symm.trans began.host_after)
  rw [← host] at apart releasable clear' host' ⊢
  obtain ⟨r', left, restored, gone, pointers⟩ := Region.undo_enter_array (t := reentry s dev r)
    (began.sound reachable) rfl list apart releasable clear' (began.reliable reliable) began.entered
    (space dev _ began.link?_after) began.arguments rfl host'
  obtain ⟨s', ended⟩ := began.dataEnd_of_leave left
  obtain ⟨r'', left', links, after⟩ := began.leave_of_dataEnd ended
  obtain ⟨-, rfl⟩ := left.unique left'
  refine ⟨s', ended, ?_, fun dev' k index hk => ?_, fun slot mem => ?_⟩
  · exact began.footprint_of_links links restored
  · obtain ⟨rfl, -⟩ := began.index.unique index
    rw [link?_congr links, link?_setLink began.link, Option.some.injEq] at hk
    rwa [← hk]
  · rw [after]
    exact pointers slot mem

/-- An array of two elements. -/
def twoElements (flags : List MapFlag) : Argument := ⟨64, 64, 16, .ofFlags flags⟩

/-- An array of two elements with rows of eight bytes. -/
def twoElementsList (flags : List MapFlag) : ArgumentList :=
  { arguments := [twoElements flags], descriptors := [.pointerArray 8] }

theorem slots_twoElements {flags : List MapFlag} : (twoElements flags).slots = [64, 72] := by
  change (List.range (16 / Word.bytes)).map (fun i => 64 + i * Word.bytes) = [64, 72]
  decide

/-- The first element points at a row behind the array, and the second one is null. -/
theorem rowsApart_twoElements {host : HostMemory} {flags : List MapFlag} (first : host.readPointer 64 = 128)
    (second : host.readPointer 72 = 0) : (twoElements flags).RowsApart host 8 := by
  have live : ∀ slot ∈ (twoElements flags).slots, host.readPointer slot ≠ 0 → slot = 64 := by
    intro slot mem live
    rw [slots_twoElements] at mem
    rcases List.mem_cons.1 mem with rfl | mem
    · rfl
    · rw [List.mem_singleton.1 mem] at live
      exact absurd second live
  have row : host.row 8 64 = ⟨128, 8⟩ := by rw [HostMemory.row, first]
  refine ⟨show 16 < Word.signBit by decide, fun e he => ?_, fun _ slot mem some => ?_,
    fun _ slot mem other mem' ne some some' => ?_⟩
  · rcases Argument.mem_arraySections.1 he with rfl | ⟨slot, mem, some, rfl | rfl⟩
    · exact show 80 ≤ Word.greatest by decide
    · rw [live slot mem some]
      decide
    · rw [live slot mem some, row]
      decide
  · rw [live slot mem some, row]
    exact .inl (show 80 ≤ 128 by decide)
  · exact absurd ((live slot mem some).trans (live other mem' some').symm) ne

/-- A platform whose host has an array of two elements, the second of them null, and a row. -/
def withRow : Platform :=
  oneDevice.performAll [.write 64 (Word.toBytes 128), .write 128 [1, 2, 3, 4, 5, 6, 7, 8]]

/-- The array is copied to the device and always comes back. -/
def exchangedFlags : List MapFlag := [.toDevice, .fromDevice, .always, .nested, .hasNested]

def exchangedPointers : ArgumentList := twoElementsList exchangedFlags

theorem dataEnd_pointerArray_exchangedPointers :
    ∃ s s', Returns (dataBegin 0) { platform := withRow, arguments := exchangedPointers } () s ∧
      Returns (dataEnd 0) s () s' ∧ s'.platform.footprint = withRow.footprint ∧
      s'.platform.host.readPointer 64 = 128 := by
  have begun : Returns (dataBegin 0) { platform := withRow, arguments := exchangedPointers } () _ :=
    returns_of_ok (by cbv)
  have first : withRow.host.readPointer 64 = 128 := by cbv
  have second : withRow.host.readPointer 72 = 0 := by cbv
  have list : exchangedPointers.IsPointerArray (twoElements exchangedFlags) 8 :=
    ⟨rfl, rfl, ⟨rfl, by decide, by decide, by decide, by decide, by decide⟩⟩
  have reliable : ∀ a ∈ withRow.accelerators, a.Reliable := by
    intro a ha call n
    rw [List.mem_singleton.1 ha]
    rfl
  have blank : ∀ dev l, withRow.link? dev = some l → l.device = { id := 0, unit := 0 } := fun _ _ hl =>
    device_of_oneDevice rfl hl
  have loaded : withRow.LoadedFor 0 := fun dev l _ hl => by rw [blank dev l hl]
  have clear : ∀ dev l, Returns (deviceIndex 0) withRow dev withRow → withRow.link? dev = some l →
      l.Clear ((twoElements exchangedFlags).arraySections withRow.host 8) := fun dev l _ hl =>
    .of_empty (by rw [blank dev l hl]; rfl) (by rw [blank dev l hl]; rfl)
  obtain ⟨s', ended, restored, -, pointers⟩ := dataEnd_pointerArray (.performAll (.fresh fresh_oneDevice))
    loaded reliable list (rowsApart_twoElements first second) (.inr ⟨by decide, fun _ _ _ => by decide⟩) clear
    begun fun dev l => inSpace_of_devices (by cbv)
  exact ⟨_, s', begun, ended, restored, (pointers 64 (by rw [slots_twoElements]; decide)).trans first⟩

end Platform

end Offloading
