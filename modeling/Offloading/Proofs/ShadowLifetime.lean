import Mathlib
import Offloading.Proofs.Reachable
/-!
# How long shadows live

A shadow goes away with the mapping that its pointer lies in, except that ending an association leaves
it behind. So all shadows are mapped throughout a run of explicit maps exactly if no call of the run
ends an association with patched pointers.
-/

namespace Offloading

namespace Device

variable {l : Link} {first : Nat}

/-- The section at `first` is associated, and some patched pointer is mapped there and nowhere else. -/
def Strands (d : Device) (first : Nat) : Prop :=
  ∃ m, (d.mappings.lookup first 0).mapping? = some m ∧ m.refCount.isInfinite = true ∧
    ∃ s ∈ d.shadows, ∀ n ∈ d.mappings, n.contains s.hostSlot = true ↔ n = m

theorem exec_disassociate {m : Mapping} (hm : (l.device.mappings.lookup first 0).mapping? = some m)
    (inf : m.refCount.isInfinite = true) :
    (exec (disassociate first) l).2 = l.withMappings (l.device.mappings.remove m.hostBegin).2 := by
  rw [disassociate, DeviceM.exec_device_bind, hm]
  dsimp only
  rw [if_pos inf]
  rfl

theorem exec_disassociate_fails (h : ∀ m, (l.device.mappings.lookup first 0).mapping? = some m →
    m.refCount.isInfinite = false) : (exec (disassociate first) l).2 = l := by
  rw [disassociate, DeviceM.exec_device_bind]
  cases hm : (l.device.mappings.lookup first 0).mapping? with
  | none => rfl
  | some m =>
      dsimp only
      rw [h m hm]
      rfl

private theorem covers_remove {t : MappingTable} {m : Mapping} {addr : Nat} (hm : m ∈ t) :
    (t.remove m.hostBegin).2.Covers addr ↔ ∃ n, (n ∈ t ∧ n ≠ m) ∧ n.contains addr = true := by
  refine exists_congr fun n => and_congr_left fun _ => ?_
  rw [MappingTable.mem_remove hm]
  refine and_congr_right fun hn => not_congr ⟨AddressMap.eq_of_address_eq hn hm, ?_⟩
  rintro rfl
  rfl

/-- The shadows of a device stay mapped when an association ends, unless it strands one of them. -/
theorem tidy_disassociate_iff (ht : l.Tidy) :
    (exec (disassociate first) l).2.Tidy ↔ ¬ l.device.Strands first := by
  by_cases ends : ∃ m, (l.device.mappings.lookup first 0).mapping? = some m ∧
      m.refCount.isInfinite = true
  · obtain ⟨m, hm, inf⟩ := ends
    have held := MappingTable.mem_of_lookup hm
    rw [exec_disassociate hm inf]
    constructor
    · rintro tidy ⟨m', hm', -, s, hs, only⟩
      rw [hm] at hm'
      cases hm'
      obtain ⟨n, ⟨hn, other⟩, inside⟩ := (covers_remove held).1 (tidy s hs)
      exact other ((only n hn).1 inside)
    · intro safe s hs
      refine Classical.byContradiction fun lost => safe ⟨m, hm, inf, s, hs, fun n hn => ?_⟩
      have only : ∀ n ∈ l.device.mappings, n.contains s.hostSlot = true → n = m := by
        intro n hn inside
        refine Classical.byContradiction fun other => lost ?_
        exact (covers_remove held).2 ⟨n, ⟨hn, other⟩, inside⟩
      refine ⟨only n hn, ?_⟩
      rintro rfl
      obtain ⟨n', hn', inside⟩ := ht s hs
      rwa [only n' hn' inside] at inside
  · have fails : ∀ m, (l.device.mappings.lookup first 0).mapping? = some m →
        m.refCount.isInfinite = false := by
      intro m hm
      exact Bool.eq_false_iff.2 fun inf => ends ⟨m, hm, inf⟩
    rw [exec_disassociate_fails fails]
    refine ⟨?_, fun _ => ht⟩
    rintro - ⟨m, hm, inf, -⟩
    exact ends ⟨m, hm, inf⟩

end Device

namespace Platform

variable {pl : Platform} {dev : Nat} {l l' : Link} {id : Int} {first : Nat}

theorem tidy_setLink_iff (hl : pl.link? dev = some l) (ht : pl.Tidy) :
    (pl.setLink dev l').Tidy ↔ l'.Tidy := by
  obtain ⟨slot, hs, -, -⟩ := link?_eq_some_iff.1 hl
  constructor
  · intro tidy
    refine tidy { slot with device := l'.device } ?_
    rw [setLink, hs]
    obtain ⟨lt, -⟩ := List.getElem?_eq_some_iff.1 hs
    exact List.mem_set lt _
  · intro tidy slot' hs'
    rcases mem_devices_setLink hs' with hs' | device
    · exact ht slot' hs'
    · rw [device]
      exact tidy

/-- The call ends an association and strands a shadow. -/
def Strands (pl : Platform) : Call → Prop
  | .disassociate id first =>
    ∃ dev pl' l, Returns (ready id) pl dev pl' ∧ pl'.link? dev = some l ∧ l.device.Strands first
  | _ => False

theorem tidy_disassociate_iff (hs : pl.Sound) (ht : pl.Tidy) :
    (pl.perform (.disassociate id first)).Tidy ↔ ¬ pl.Strands (.disassociate id first) := by
  change (exec (ready id >>= fun dev => onDevice dev (Device.disassociate first)) pl).2.Tidy ↔ _
  have prepared := (orderly_ready id pl hs).2 ht
  rw [exec_bind]
  rcases hr : exec (ready id) pl with ⟨e | dev, pl'⟩
  · rw [hr] at prepared
    refine ⟨?_, fun _ => prepared⟩
    rintro - ⟨_, _, _, h, -⟩
    rw [Returns, hr] at h
    cases h
  · rw [hr] at prepared
    have ran : Returns (ready id) pl dev pl' := hr
    dsimp only
    cases hl : pl'.link? dev with
    | none =>
        rw [onDevice, exec_bind_error (exec_link_none hl)]
        refine ⟨?_, fun _ => prepared⟩
        rintro - ⟨dev', pl'', l, h, hl', -⟩
        obtain ⟨rfl, rfl⟩ := ran.unique h
        rw [hl] at hl'
        cases hl'
    | some l =>
        rw [exec_onDevice hl]
        rw [tidy_setLink_iff hl prepared, Device.tidy_disassociate_iff (prepared.link hl)]
        refine not_congr ⟨fun h => ⟨dev, pl', l, ran, hl, h⟩, ?_⟩
        rintro ⟨dev', pl'', l', h, hl', strands⟩
        obtain ⟨rfl, rfl⟩ := ran.unique h
        rw [hl] at hl'
        cases hl'
        exact strands

/-- After one more call all shadows are mapped, unless the call strands one. -/
theorem tidy_perform_iff {c : Call} (explicit : c.Explicit) (hs : pl.Sound) (ht : pl.Tidy) :
    (pl.perform c).Tidy ↔ ¬ pl.Strands c := by
  cases c with
  | disassociate id first => exact tidy_disassociate_iff hs ht
  | _ => exact ⟨fun _ h => h, fun _ => (Call.orderly_perform explicit rfl hs).2 ht⟩

theorem tidy_performAll_iff {calls : List Call} (explicit : ∀ c ∈ calls, c.Explicit)
    (hs : pl.Sound) (ht : pl.Tidy) :
    (∀ k ≤ calls.length, (pl.performAll (calls.take k)).Tidy) ↔
      ∀ k c, calls[k]? = some c → ¬ (pl.performAll (calls.take k)).Strands c := by
  induction calls generalizing pl with
  | nil =>
      refine ⟨fun _ k c h => ?_, fun _ k _ => ?_⟩
      · rw [List.getElem?_nil] at h
        cases h
      · rw [List.take_nil]
        exact ht
  | cons c rest ih =>
      have later : (pl.perform c).Tidy → _ :=
        ih (fun d hd => explicit d (List.mem_cons_of_mem c hd)) (c.sound_perform hs)
      have here := tidy_perform_iff (explicit c (List.mem_cons_self ..)) hs ht
      constructor
      · intro tidy k d hd
        have first : (pl.perform c).Tidy := tidy 1 (by simp)
        cases k with
        | zero =>
            cases hd
            exact here.1 first
        | succ k =>
            refine (later first).1 (fun j hj => ?_) k d hd
            exact tidy (j + 1) (Nat.succ_le_succ hj)
      · intro safe k hk
        cases k with
        | zero => exact ht
        | succ k =>
            have first := here.2 (safe 0 c rfl)
            exact (later first).2 (fun j d hd => safe (j + 1) d hd) k (Nat.le_of_succ_le_succ hk)

/-- In a run of explicit maps from a fresh platform, the slot of every patched pointer lies in a live
mapping at all times exactly if no call ends an association while a pointer is patched that only the
associated section holds. -/
theorem shadows_mapped_iff {calls : List Call} (fresh : pl.Fresh)
    (explicit : ∀ c ∈ calls, c.Explicit) :
    (∀ k ≤ calls.length, (pl.performAll (calls.take k)).Tidy) ↔
      ∀ k c, calls[k]? = some c → ¬ (pl.performAll (calls.take k)).Strands c :=
  tidy_performAll_iff explicit fresh.sound fresh.tidy

/-- User memory is associated with a section, a pointer in the section is patched, and the section is
given back. -/
def strandingRun : List Call :=
  let l : ArgumentList :=
    { arguments := [⟨0x10000100, 0x10000200, 8, .ofFlags [.toDevice, .pointerAndObject]⟩] }
  [.allocate 0 0 32, .associate 0 0x10000100 0xd00000000000 32, .dataBegin 0 l, .dataEnd 0 l,
    .disassociate 0 0x10000100]

/-- The last call of the run leaves a shadow without a mapping. -/
theorem strandingRun_strands :
    (oneDevice.Fresh ∧ ∀ c ∈ strandingRun, c.Explicit) ∧
      ∃ k c, strandingRun[k]? = some c ∧ (oneDevice.performAll (strandingRun.take k)).Strands c := by
  have explicit : ∀ c ∈ strandingRun, c.Explicit := by
    have one : ArgumentList.Explicit { arguments :=
        [⟨0x10000100, 0x10000200, 8, .ofFlags [.toDevice, .pointerAndObject]⟩] } := by
      refine ⟨fun a ha _ => ?_, fun _ hd => nomatch hd⟩
      rw [List.mem_singleton.1 ha]
      rfl
    intro c hc
    simp only [strandingRun, List.mem_cons, List.not_mem_nil, or_false] at hc
    rcases hc with rfl | rfl | rfl | rfl | rfl
    · trivial
    · trivial
    · exact one
    · trivial
    · trivial
  refine ⟨⟨fresh_oneDevice, explicit⟩, Classical.byContradiction fun safe => ?_⟩
  have tidy := (shadows_mapped_iff fresh_oneDevice explicit).2
    (fun k c hc strands => safe ⟨k, c, hc, strands⟩) 5 (by decide)
  have left : (oneDevice.performAll strandingRun).devices[0]?.map
      (fun slot => (slot.device.shadows.items.map (·.hostSlot), slot.device.mappings.entries.items)) =
      some ([0x10000100], []) := by
    cbv
  obtain ⟨slot, hslot, view⟩ := Option.map_eq_some_iff.1 left
  rw [Prod.mk.injEq] at view
  obtain ⟨s, hs, -⟩ := List.mem_map.1 (view.1 ▸ List.mem_singleton.2 rfl)
  obtain ⟨m, hm, -⟩ := tidy slot (List.mem_of_getElem? hslot) s hs
  have : m ∈ slot.device.mappings.entries.items := hm
  rw [view.2] at this
  cases this

end Platform

end Offloading
