import Offloading.Proofs.NestedLists
import Offloading.Proofs.ReadyAgain
/-!
# Ending a region with lists of plain regions

A region whose arguments stand for lists of plain regions gives back all that it took, on whatever order the
sections of a list are released. It can be ended without an error if its empty regions are anchored.
-/

namespace Offloading

/-! ## Entering and leaving -/

namespace Region

open RegionM

variable {settings : Settings} {s s' t : RegionState} {u : Unit}

private theorem range_eq_split {n i : Nat} {before after : List Nat}
    (split : List.range n = before ++ i :: after) : before = List.range i ∧ i < n := by
  have lt : before.length < n := by
    have := congrArg List.length split
    rw [List.length_range, List.length_append, List.length_cons] at this
    omega
  have there : i = before.length := by
    have := congrArg (fun l => l[before.length]?) split
    simpa [lt] using this.symm
  have prefix' := congrArg (List.take before.length) split
  rw [List.take_left, List.take_range, Nat.min_eq_left (Nat.le_of_lt lt)] at prefix'
  exact ⟨there ▸ prefix'.symm, there ▸ lt⟩

/-- Leaving a region gives back what entering it took, and it succeeds if the empty regions are anchored. -/
theorem undo_enter (sound : s.activation.link.Sound) (lists : s.arguments.ListsPlain)
    (few : (s.arguments.sectionsBefore s.arguments.size).length ≤ ReferenceCount.infinite.value / 2)
    (untouched : ∀ e ∈ s.arguments.sectionsBefore s.arguments.size,
      ∀ m ∈ s.activation.link.device.mappings, m.Untouched e)
    (words : ∀ e ∈ s.arguments.sectionsBefore s.arguments.size, e.stop ≤ Word.greatest)
    (reliable : s.activation.link.accelerator.Reliable) (entered : Returns (enter settings) s u s')
    (space : ∀ m ∈ s'.activation.link.device.mappings, m.InSpace) (arguments : t.arguments = s'.arguments)
    (link : t.activation.link = s'.activation.link) :
    (∀ v t', Returns (leave settings) t v t' →
      t'.activation.link.footprint = s.activation.link.footprint) ∧
    (s.arguments.Anchored → ∃ t', Returns (leave settings) t () t') := by
  have service := admits_sameService.enter.returns entered
  rw [enter, returns_get_bind, returns_bind] at entered
  obtain ⟨_, s₁, mapped, flushed⟩ := entered
  have sent := along_flush.returns flushed
  have frames := ((along_mapArguments _).returns mapped).arguments
  have alike : s.arguments.SameFrames t.arguments := by
    rw [arguments, sent.arguments]
    exact frames
  obtain ⟨places, n, taken, undo⟩ :=
    undo_mapArguments lists (Link.Taken.start (n := fun _ => 0) sound)
      (by rwa [List.length_nil, Nat.zero_add]) untouched words mapped
  have taken' := taken.still sent.link
  rw [List.append_nil] at taken' undo
  have held : s.activation.link.Held places n t.activation.link := by
    rw [link]
    refine ⟨taken'.toOccupied, taken'.fit, fun p hp => ?_, fun p hp => ?_,
      Link.SameService.reliable service reliable⟩
    · have there := space _ (taken'.mem hp (taken'.held p hp))
      exact ⟨there.host, there.device⟩
    · refine Nat.le_trans (taken'.counts p hp) (Nat.le_trans Mapping.touches_le_length ?_)
      rw [List.nil_append]
      exact few
  obtain ⟨left, leaves⟩ := undo t alike held
  refine ⟨fun v t' ran => ?_, fun anchored => ?_⟩
  · rw [leave, returns_get_bind, alike.size] at ran
    exact (left v t' ran).footprint
  · rw [leave]
    simp only [returns_get_bind]
    rw [alike.size]
    refine leaves fun before i after split => ?_
    obtain ⟨rfl, lt⟩ := range_eq_split split
    rw [List.nil_append]
    exact anchored i lt

end Region

/-! ## Calls -/

namespace Platform

open CallM

variable {pl : Platform} {id : Int}

/-- Ending a region right after it began, where all arguments stand for lists of plain regions that nothing
that is mapped meets, restores the mappings with their counts and the live blocks of all devices. It ends
without an error unless an empty region comes before the region that first holds its start. -/
theorem dataEnd_nestedLists {arguments : ArgumentList} {s : CallState} {u : Unit} (reachable : pl.Reachable)
    (loaded : pl.LoadedFor id) (reliable : ∀ a ∈ pl.accelerators, a.Reliable) (lists : arguments.ListsPlain)
    (few : (arguments.sectionsBefore arguments.size).length ≤ ReferenceCount.infinite.value / 2)
    (words : ∀ e ∈ arguments.sectionsBefore arguments.size, e.stop ≤ Word.greatest)
    (untouched : ∀ dev l, Returns (deviceIndex id) pl dev pl → pl.link? dev = some l →
      ∀ e ∈ arguments.sectionsBefore arguments.size, ∀ m ∈ l.device.mappings, m.Untouched e)
    (begun : Returns (dataBegin id) { platform := pl, arguments } u s)
    (space : ∀ dev l, s.platform.link? dev = some l → ∀ m ∈ l.device.mappings, m.InSpace) :
    (∀ v s', Returns (dataEnd id) s v s' → s'.platform.footprint = pl.footprint) ∧
      (arguments.Anchored → ∃ s', Returns (dataEnd id) s () s') := by
  obtain ⟨dev, l, l', r, began⟩ := began_of_dataBegin loaded begun
  have still := (Device.along_prepare.returns began.prepare).still
  have reliable' : l'.accelerator.Reliable := by
    obtain ⟨slot, -, -, ha⟩ := link?_eq_some_iff.1 began.link
    have schedule := Device.along_prepare_schedule.returns began.prepare
    intro call n
    exact (congrFun (congrFun schedule call) n).trans (reliable _ (List.mem_of_getElem? ha) call n)
  have untouched' : ∀ e ∈ arguments.sectionsBefore arguments.size, ∀ m ∈ l'.device.mappings,
      m.Untouched e := by
    rw [still.mappings]
    exact untouched dev l began.index began.link
  obtain ⟨restored, leaves⟩ := Region.undo_enter (t := reentry s dev r)
    (still.sound (reachable.sound.link began.link)) lists few untouched' words reliable' began.entered
    (space dev _ began.link?_after) began.arguments rfl
  refine ⟨fun v s' ended => ?_, fun anchored => ?_⟩
  · obtain ⟨r', left, links, -⟩ := began.leave_of_dataEnd ended
    rw [footprint_congr links]
    exact footprint_setLink began.link ((restored _ r' left).trans still.footprint)
  · obtain ⟨r', left⟩ := leaves anchored
    exact began.dataEnd_of_leave left

/-- An argument that stands for a section and two parts of it, the first of them empty, and another one. -/
def partsList : ArgumentList :=
  { arguments := [⟨64, 64, 8, .ofFlags [.nested, .hasNested]⟩, ⟨128, 128, 16, .ofFlags [.toDevice]⟩]
    descriptors := [.regions [⟨64, 64, 8, .ofFlags [.toDevice, .fromDevice]⟩,
      ⟨66, 66, 0, .ofFlags [.toDevice]⟩, ⟨66, 66, 4, .ofFlags [.toDevice, .fromDevice]⟩]] }

theorem dataEnd_nestedLists_partsList :
    ∃ s s', Returns (dataBegin 0) { platform := oneDevice, arguments := partsList } () s ∧
      Returns (dataEnd 0) s () s' ∧ s'.platform.footprint = oneDevice.footprint := by
  have begun : Returns (dataBegin 0) { platform := oneDevice, arguments := partsList } () _ :=
    returns_of_ok (by cbv)
  have sections : partsList.sectionsBefore partsList.size = [⟨64, 8⟩, ⟨66, 0⟩, ⟨66, 4⟩, ⟨128, 16⟩] := by
    decide
  have lists : partsList.ListsPlain := by
    refine ⟨by decide, fun index => ?_⟩
    rcases index with _ | _ | index
    · decide
    · decide
    · exact List.forall_mem_nil _
  have spacious : (exec (dataBegin 0)
      { platform := oneDevice, arguments := partsList }).2.platform.devices.all
      (fun slot => slot.device.mappings.entries.items.all fun m =>
        m.hostEnd ≤ Word.greatest && m.deviceBegin + m.length ≤ Word.modulus) = true := by
    cbv
  have reliable : ∀ a ∈ oneDevice.accelerators, a.Reliable := by
    intro a ha call n
    rw [List.mem_singleton.1 ha]
    rfl
  have blank : ∀ dev l, oneDevice.link? dev = some l → l.device = { id := 0, unit := 0 } := by
    intro dev l hl
    obtain ⟨slot, hs, device, -⟩ := link?_eq_some_iff.1 hl
    rw [← device, List.mem_singleton.1 (List.mem_of_getElem? hs)]
  have loaded : oneDevice.LoadedFor 0 := fun dev l _ hl => by rw [blank dev l hl]
  have untouched : ∀ dev l, Returns (deviceIndex 0) oneDevice dev oneDevice → oneDevice.link? dev = some l →
      ∀ e ∈ partsList.sectionsBefore partsList.size, ∀ m ∈ l.device.mappings, m.Untouched e := by
    intro dev l _ hl e _ m hm
    rw [blank dev l hl] at hm
    cases hm
  have space : ∀ dev l, (exec (dataBegin 0)
      { platform := oneDevice, arguments := partsList }).2.platform.link? dev = some l →
      ∀ m ∈ l.device.mappings, m.InSpace := by
    intro dev l hl m hm
    obtain ⟨slot, hs, device, -⟩ := link?_eq_some_iff.1 hl
    have inside := List.all_eq_true.1 (List.all_eq_true.1 spacious slot (List.mem_of_getElem? hs)) m
      (by rw [device]; exact hm)
    rw [Bool.and_eq_true, decide_eq_true_eq, decide_eq_true_eq] at inside
    exact ⟨inside.1, inside.2⟩
  obtain ⟨restored, ends⟩ := dataEnd_nestedLists (.fresh fresh_oneDevice) loaded reliable lists
    (by rw [sections]; decide) (by rw [sections]; decide) untouched begun space
  obtain ⟨s', ended⟩ := ends (by decide)
  exact ⟨_, s', begun, ended, restored _ s' ended⟩

end Platform

end Offloading
