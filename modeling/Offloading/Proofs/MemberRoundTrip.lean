import Offloading.Proofs.ReadyAgain
import Offloading.Proofs.SharedStructs
/-!
# Ending a region with a struct and its members

The members of a struct move exactly if nobody else holds the struct: to its new copy when the region begins, and
back when it ends. If somebody holds it already, then neither call moves a byte.
-/

namespace Offloading

/-- No byte was moved, neither to the device nor from there. -/
structure Link.Unmoved (l l' : Link) : Prop where
  transfers : l'.device.transfers = l.device.transfers
  memories : l'.accelerator.memories = l.accelerator.memories

namespace Platform

open CallM

variable {pl : Platform} {id : Int} {dev : Nat} {l l' k : Link} {arguments : ArgumentList} {s : CallState}
  {r : RegionState} {head : Argument} {m p : Mapping} {host : HostMemory}

/-- What happens when the region ends, after kernels and the host have worked, if nobody else held the struct. -/
theorem Began.dataEnd_sole (began : pl.Began id arguments s dev l l' r) (list : arguments.StructMembers head)
    (held : l'.SoleHeld (head.padded pl.settings).hostSection p r.activation.link)
    (work : r.activation.link.Transferred k) :
    (k.accelerator.Reliable →
      ∃ s', Returns (dataEnd id) { s with platform := s.platform.worked dev k host } () s') ∧
    ∀ s', Returns (dataEnd id) { s with platform := s.platform.worked dev k host } () s' →
      s'.platform.footprint = pl.footprint ∧
      k.CopiedOut arguments (head.padded pl.settings).hostSection p.deviceBegin host s'.platform.host := by
  have list' : (reentryWorked s dev k host).arguments.StructMembers head := list.congr began.sameFrames
  have held' : l'.SoleHeld (head.padded pl.settings).hostSection p
      (reentryWorked s dev k host).activation.link := held.transferred work
  refine ⟨fun reliable => ?_, fun s' ended => ?_⟩
  · obtain ⟨r', left⟩ := Region.exists_leave_sole list' held' reliable
    exact began.dataEnd_worked work left
  · obtain ⟨r', left, links, after⟩ := began.leave_of_dataEnd_worked work ended
    obtain ⟨restored, copied⟩ := Region.returns_leave_sole list' held' left
    rw [host_reentryWorked] at copied
    rw [after]
    exact ⟨began.footprint_of_links links restored, copied.congr began.sameFrames⟩

/-- What happens then if somebody else held the struct. -/
theorem Began.dataEnd_shared (began : pl.Began id arguments s dev l l' r) (list : arguments.StructMembers head)
    (held : l'.SharedHeld (head.padded pl.settings).hostSection m r.activation.link)
    (rest : r.activation.link = l'.withMappings r.activation.link.device.mappings)
    (finite : m.refCount.increment.isInfinite = true → m.refCount.isInfinite = true)
    (unforced : arguments.Unforced) (work : r.activation.link.Transferred k) :
    ∃ s' k', Returns (dataEnd id) { s with platform := s.platform.worked dev k host } () s' ∧
      s'.platform.footprint = pl.footprint ∧ s'.platform.link? dev = some k' ∧ k.Unmoved k' ∧
      s'.platform.host = host := by
  have held' : l'.SharedHeld (head.padded pl.settings).hostSection m k := held.congr (by rw [work.still.mappings])
  obtain ⟨r', left, same, entries, unchanged⟩ := Region.leave_shared (t := reentryWorked s dev k host)
    (list.congr began.sameFrames) held' finite (unforced.congr began.sameFrames)
  obtain ⟨s', ended⟩ := began.dataEnd_worked work left
  obtain ⟨_, left', links, after⟩ := began.leave_of_dataEnd_worked work ended
  obtain ⟨-, same'⟩ := left'.unique left
  subst same'
  obtain ⟨unit, -, blocks⟩ := Link.footprint_eq_iff.1 work.still.footprint
  have restored : r'.activation.link.footprint = l'.footprint := by
    refine Link.footprint_eq_iff.2 ⟨?_, entries, ?_⟩
    · rw [same]
      refine unit.trans ?_
      rw [rest]
      rfl
    · rw [same]
      refine blocks.trans ?_
      rw [rest]
      rfl
  refine ⟨s', r'.activation.link, ended, began.footprint_of_links links restored, ?_, ?_, ?_⟩
  · rw [link?_congr links, link?_setLink began.link]
  · rw [same]
    exact ⟨rfl, rfl⟩
  · rw [after, unchanged, host_reentryWorked]

/-- Ending a region whose arguments are a struct and its members. If nothing touched the padded section of the
struct before, then the struct got a copy that holds the host's bytes of the members that go to the device, and
zeros elsewhere. Whatever kernels and the host do then, ending the region copies back the members that come from
the device and nothing else, and all mappings are what they were before; it cannot fail unless the device does. If
a mapping covered the section, then neither call moves a byte, unless a member always moves, and the count of the
mapping is in the end what it was. -/
theorem dataEnd_structMembers {u : Unit} (reachable : pl.Reachable) (loaded : pl.LoadedFor id)
    (list : arguments.StructMembers head)
    (begun : Returns (dataBegin id) { platform := pl, arguments } u s)
    (space : ∀ dev l, s.platform.link? dev = some l → ∀ m ∈ l.device.mappings, m.InSpace) :
    ∃ dev l l₁, Returns (deviceIndex id) pl dev pl ∧ pl.link? dev = some l ∧ s.platform.link? dev = some l₁ ∧
      s.platform.host = pl.host ∧
      (l.Clear [(head.padded pl.settings).hostSection] → ∃ target,
        l₁.device.translate? (head.padded pl.settings).start (head.padded pl.settings).size = some target ∧
        l₁.CopiedIn arguments (head.padded pl.settings).hostSection target pl.host ∧
        ∀ k host, l₁.Transferred k →
          (k.accelerator.Reliable →
            ∃ s', Returns (dataEnd id) { s with platform := s.platform.worked dev k host } () s') ∧
          ∀ s', Returns (dataEnd id) { s with platform := s.platform.worked dev k host } () s' →
            s'.platform.footprint = pl.footprint ∧
            k.CopiedOut arguments (head.padded pl.settings).hostSection target host s'.platform.host) ∧
      ∀ m ∈ l.device.mappings, m.hostBegin ≤ (head.padded pl.settings).start →
        (head.padded pl.settings).hostSection.stop ≤ m.hostEnd →
        (m.refCount.increment.isInfinite = true → m.refCount.isInfinite = true) → arguments.Unforced →
          l.Unmoved l₁ ∧ ∀ k host, l₁.Transferred k → ∃ s' k',
            Returns (dataEnd id) { s with platform := s.platform.worked dev k host } () s' ∧
            s'.platform.footprint = pl.footprint ∧ s'.platform.link? dev = some k' ∧ k.Unmoved k' ∧
            s'.platform.host = host := by
  obtain ⟨dev, l, l', r, began⟩ := began_of_dataBegin loaded begun
  have prepared := Device.along_prepare.returns began.prepare
  have sound : l'.Sound := began.sound reachable
  have host : (CallState.region { platform := pl.setLink dev l', arguments } l').host = pl.host := host_setLink
  refine ⟨dev, l, r.activation.link, began.index, began.link, began.link?_after, began.host_after, fun clear => ?_,
    fun m hm lower upper finite unforced => ?_⟩
  · obtain ⟨p, held, bytes⟩ := Region.byte_enter_sole sound rfl list (clear.prepared prepared) began.entered
      (space dev _ began.link?_after)
    rw [host] at bytes
    exact ⟨p.deviceBegin, held.translate?, bytes, fun _ _ => began.dataEnd_sole list held⟩
  · obtain ⟨_, device⟩ := prepared.device
    have hm' : m ∈ l'.device.mappings := by
      rw [device]
      exact hm
    obtain ⟨held, rest, -⟩ := Region.sharedHeld_enter sound rfl list hm' lower upper unforced began.entered
    refine ⟨⟨?_, ?_⟩, fun _ _ => began.dataEnd_shared list held rest finite unforced⟩
    · rw [rest]
      change l'.device.transfers = _
      rw [device]
    · rw [rest]
      exact (Prod.mk.inj prepared.memories).1

/-- A struct of twelve bytes that starts behind a multiple of eight, with a member that goes to the device and one
that comes back. -/
def memberList : ArgumentList where
  arguments := [⟨68, 68, 12, .ofFlags [.targetParam]⟩,
    ⟨68, 68, 4, (MapType.ofFlags [.toDevice]).withMemberOf 0⟩,
    ⟨68, 72, 4, (MapType.ofFlags [.fromDevice]).withMemberOf 0⟩]

theorem structMembers_memberList : memberList.StructMembers ⟨68, 68, 12, .ofFlags [.targetParam]⟩ where
  first := rfl
  several := by decide
  plain := ⟨rfl, by decide, by decide, by decide, by decide⟩
  nonempty := by decide
  toDevice := by decide
  fromDevice := by decide
  member i a ha := by
    rcases i with _ | _ | i
    · cases ha
      exact ⟨rfl, by decide, by decide⟩
    · cases ha
      exact ⟨rfl, by decide, by decide⟩
    · cases ha
  inside i a ha := by
    rcases i with _ | _ | i
    · cases ha
      decide
    · cases ha
      decide
    · cases ha
  word := by decide

/-- A platform whose host has the struct. -/
def withStruct : Platform :=
  oneDevice.performAll [.write 64 [1, 2, 3, 4, 5, 6, 7, 8, 9, 10, 11, 12, 13, 14, 15, 16]]

/-- The same after a region has begun that holds the struct. -/
def holdingStruct : Platform := withStruct.performAll [.dataBegin 0 memberList]

theorem dataEnd_structMembers_memberList :
    (∃ s dev l₁ target s', Returns (dataBegin 0) { platform := withStruct, arguments := memberList } () s ∧
      s.platform.link? dev = some l₁ ∧ l₁.CopiedIn memberList ⟨64, 16⟩ target withStruct.host ∧
      Returns (dataEnd 0) s () s' ∧ s'.platform.footprint = withStruct.footprint ∧
      l₁.CopiedOut memberList ⟨64, 16⟩ target withStruct.host s'.platform.host) ∧
    ∃ s dev l l₁ s', Returns (dataBegin 0) { platform := holdingStruct, arguments := memberList } () s ∧
      holdingStruct.link? dev = some l ∧ s.platform.link? dev = some l₁ ∧ l.Unmoved l₁ ∧
      Returns (dataEnd 0) s () s' ∧ s'.platform.footprint = holdingStruct.footprint ∧
      s'.platform.host = holdingStruct.host := by
  have reachable : withStruct.Reachable := .performAll (.fresh fresh_oneDevice)
  constructor
  · obtain ⟨s, same⟩ : ∃ s, s = (exec (dataBegin 0) { platform := withStruct, arguments := memberList }).2 :=
      ⟨_, rfl⟩
    have begun : Returns (dataBegin 0) { platform := withStruct, arguments := memberList } () s :=
      same ▸ returns_of_ok (by cbv)
    have blank : ∀ dev l, withStruct.link? dev = some l → l.device = { id := 0, unit := 0 } := fun _ _ hl =>
      device_of_oneDevice rfl hl
    have loaded : withStruct.LoadedFor 0 := fun dev l _ hl => by rw [blank dev l hl]
    obtain ⟨dev, l, l₁, -, hl, hl₁, host, fresh, -⟩ := dataEnd_structMembers reachable loaded
      structMembers_memberList begun fun dev l => inSpace_of_devices (by rw [same]; cbv)
    have clear : l.Clear [⟨64, 16⟩] := .of_empty (by rw [blank dev l hl]; rfl) (by rw [blank dev l hl]; rfl)
    have schedules : s.platform.accelerators.map (·.schedule) = [fun _ _ => false] := by
      rw [same]
      cbv
    have reliable : l₁.accelerator.Reliable := by
      obtain ⟨slot, -, -, ha⟩ := link?_eq_some_iff.1 hl₁
      have mem : l₁.accelerator.schedule ∈ [fun _ _ => false] := by
        rw [← schedules]
        exact List.mem_map_of_mem (List.mem_of_getElem? ha)
      intro call n
      rw [List.mem_singleton.1 mem]
    obtain ⟨target, -, copied, ends⟩ := fresh clear
    obtain ⟨succeeds, ends⟩ := ends l₁ s.platform.host (Lasting.refl _)
    obtain ⟨s', ended⟩ := succeeds reliable
    obtain ⟨restored, back⟩ := ends s' ended
    rw [worked_self hl₁] at ended
    exact ⟨s, dev, l₁, target, s', begun, hl₁, copied, ended, restored, host ▸ back⟩
  · obtain ⟨s, same⟩ : ∃ s, s = (exec (dataBegin 0) { platform := holdingStruct, arguments := memberList }).2 :=
      ⟨_, rfl⟩
    have begun : Returns (dataBegin 0) { platform := holdingStruct, arguments := memberList } () s :=
      same ▸ returns_of_ok (by cbv)
    have reachable' : holdingStruct.Reachable := reachable.performAll
    have devices : holdingStruct.devices.map
        (fun slot => (slot.device.pending, slot.device.mappings.entries.items)) =
        [(false, [⟨68, 64, 80, 0xd00000000000, ⟨1⟩⟩])] := by cbv
    have held : ∀ dev l, holdingStruct.link? dev = some l → (l.device.pending, l.device.mappings.entries.items) =
        (false, [⟨68, 64, 80, 0xd00000000000, ⟨1⟩⟩]) := by
      intro dev l hl
      obtain ⟨slot, hs, device, -⟩ := link?_eq_some_iff.1 hl
      rw [← device, ← List.mem_singleton, ← devices]
      exact List.mem_map_of_mem (List.mem_of_getElem? hs)
    have loaded : holdingStruct.LoadedFor 0 := fun dev l _ hl => (Prod.mk.inj (held dev l hl)).1
    obtain ⟨dev, l, l₁, -, hl, hl₁, host, -, shared⟩ := dataEnd_structMembers reachable' loaded
      structMembers_memberList begun fun dev l => inSpace_of_devices (by rw [same]; cbv)
    have mem : (⟨68, 64, 80, 0xd00000000000, ⟨1⟩⟩ : Mapping) ∈ l.device.mappings.entries.items := by
      rw [(Prod.mk.inj (held dev l hl)).2]
      exact List.mem_singleton_self _
    have unforced : memberList.Unforced := by
      intro i a ha
      rcases i with _ | _ | i
      · cases ha
        decide
      · cases ha
        decide
      · cases ha
    have padded : (⟨68, 68, 12, .ofFlags [.targetParam]⟩ : Argument).padded holdingStruct.settings =
        ⟨68, 64, 16, .ofFlags [.targetParam]⟩ := by cbv
    rw [padded] at shared
    obtain ⟨unmoved, ends⟩ := shared _ mem (by decide) (by decide) (by decide) unforced
    obtain ⟨s', -, ended, restored, -, -, unchanged⟩ := ends l₁ s.platform.host (Lasting.refl _)
    rw [worked_self hl₁] at ended
    exact ⟨s, dev, l, l₁, s', begun, hl, hl₁, unmoved, ended, restored, unchanged.trans host⟩

end Platform

end Offloading
