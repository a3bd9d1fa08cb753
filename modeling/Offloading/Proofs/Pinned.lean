import Offloading.Proofs.BalancedRuns
import Offloading.Proofs.Reclamation
/-!
# Pinned mappings

Associated memory and global variables are mapped with infinite counts. Whatever regions do on a device,
these mappings stay as they are, also if a release is forced. A region releases the block of a finite
mapping or of its launch and no other one, so it never releases the memory behind a pinned mapping.
-/

namespace Offloading

namespace Link

variable {l l' : Link}

/-- More may have been done for the device, but no block was to be released. -/
structure Withholds (l l' : Link) : Prop where
  unit : l'.device.unit = l.device.unit
  services : ∃ done, l'.services = l.services ++ done ∧ ∀ s ∈ done, s.released? = none

instance : Lasting Withholds where
  refl l := ⟨rfl, [], (List.append_nil _).symm, fun _ h => (nomatch h)⟩
  trans := by
    rintro l l₁ l₂ ⟨unit, done, services, none⟩ ⟨unit', done', services', none'⟩
    refine ⟨unit'.trans unit, done ++ done', ?_, fun s hs => ?_⟩
    · rw [services', services, List.append_assoc]
    · exact (List.mem_append.1 hs).elim (none s) (none' s)

theorem withholds_of_services (unit : l'.device.unit = l.device.unit)
    (same : l'.accelerator.servicesOf l.device.unit = l.services) : l.Withholds l' := by
  refine ⟨unit, [], ?_, fun _ h => (nomatch h)⟩
  rw [List.append_nil, services, unit, same]

end Link

namespace Device

open DeviceM

private theorem withholds_counted {α β : Type} {l : Link} {wrap : AcceleratorError → DeviceError}
    {x : AcceleratorM α} {service : Service} {f : TransferStats → TransferStats} {k : α → DeviceM β}
    (counted : Counted l service x f k) : l.Withholds (exec (call wrap x >>= k) l).2 := by
  refine ⟨(steps_settles.counted counted).unit, ?_⟩
  rcases services_counted counted with same | more
  · exact ⟨[], same.trans (List.append_nil _).symm, fun _ hs => (nomatch hs)⟩
  · refine ⟨[service], more, fun s hs => ?_⟩
    rw [List.mem_singleton.1 hs]
    exact counted.amounts.released

/-- Only freeing releases a block. -/
theorem steps_withholds : Steps Link.Withholds where
  quiet unit _ same := Link.withholds_of_services unit same.apart.servicesOf
  counted := withholds_counted
  allocate l :=
    ⟨(steps_settles.allocate l).unit, [], services_allocate.trans (List.append_nil _).symm,
      fun _ hs => (nomatch hs)⟩

/-- A release of a section releases no block, or that of a finite mapping. -/
private theorem services_unmap {l : Link} {first size : Nat} {force : Bool} :
    l.Withholds (exec (unmap first size force) l).2 ∨
      ∃ m ∈ l.device.mappings, m.IsFinite ∧
        (exec (unmap first size force) l).2.services = l.services ++ [.released m.deviceBegin] := by
  rw [unmap, exec_device_bind]
  cases hm : (l.device.mappings.lookup first size).mapping? with
  | none => exact .inl (Lasting.refl l)
  | some m =>
      dsimp only
      cases infinite : m.refCount.isInfinite with
      | true => exact .inl (Lasting.refl l)
      | false =>
          rw [if_neg Bool.false_ne_true]
          by_cases more : 0 < (if force then ReferenceCount.one else m.refCount).decrement.value
          · rw [if_pos more]
            exact .inl (steps_withholds.modifyMappings l)
          · rw [if_neg more, exec_removeMapping]
            exact .inr ⟨m, MappingTable.mem_of_lookup hm, infinite, services_free⟩

end Device

namespace Link

variable {l l' : Link} {m : Mapping}

/-- No operation touches a mapping with an infinite count, unless it takes user memory back. -/
theorem Changed.pinned_stays (changed : l.Changed l') (hm : m ∈ l.device.mappings)
    (infinite : m.refCount.isInfinite = true) : m ∈ l'.device.mappings := by
  have other : ∀ e : Mapping, e.IsFinite → m ≠ e := by
    rintro _ finite rfl
    rw [Mapping.IsFinite, infinite] at finite
    cases finite
  cases changed with
  | idle failed idle => exact (MappingTable.mem_congr idle.entries).2 hm
  | recounted e c he same served entries memory =>
      by_cases here : m.hostBegin = e.hostBegin
      · have : m = e := AddressMap.eq_of_address_eq hm he here
        subst this
        refine (mem_of_insert entries).2 (.inl ?_)
        rw [same infinite]
      · exact (mem_of_insert entries).2 (.inr ⟨hm, here⟩)
  | mapped e _ _ free finite nonempty served entries before allocated after =>
      exact (mem_of_insert entries).2 (.inr ⟨hm, free m hm⟩)
  | pinned e free _ served entries memory =>
      exact (mem_of_insert entries).2 (.inr ⟨hm, free m hm⟩)
  | released e _ _ he finite served entries before freed after =>
      exact (mem_of_erase he entries).2 ⟨hm, other e finite⟩
  | lost e he finite served entries memory why =>
      exact (mem_of_erase he entries).2 ⟨hm, other e finite⟩

end Link

namespace Tenancy

variable {u u' : Tenancy} {l l' : Link} {mine mine' : List Nat}

/-- The block at the address is that of a finite mapping, or it belongs to the launch. -/
def Owns (u : Tenancy) (addr : Nat) : Prop :=
  addr ∈ u.scratch ∨ ∃ m ∈ u.link.device.mappings, m.IsFinite ∧ m.deviceBegin = addr

/-- Pinned mappings stay, and at most one block is released, which was owned before. -/
structure Pins (u u' : Tenancy) : Prop where
  sound : u'.link.Sound
  pinned : ∀ m ∈ u.link.device.mappings, m.refCount.isInfinite = true →
    m ∈ u'.link.device.mappings
  released : u.link.Withholds u'.link ∨
    ∃ addr, u.Owns addr ∧ u'.link.services = u.link.services ++ [.released addr]

private theorem pins_of_mappings (sound : l'.Sound) (same : l'.device.mappings = l.device.mappings)
    (withholds : l.Withholds l') : Pins ⟨l, mine⟩ ⟨l', mine'⟩ :=
  ⟨sound, fun _ hm _ => same.symm ▸ hm, .inl withholds⟩

private theorem pins_of_still (still : l.Still l') (sound : l.Sound) (withholds : l.Withholds l') :
    Pins ⟨l, mine⟩ ⟨l', mine'⟩ := pins_of_mappings (still.sound sound) still.mappings withholds

private theorem pins_of_moved (moved : l.Moved l') (sound : l.Sound) (withholds : l.Withholds l') :
    Pins ⟨l, mine⟩ ⟨l', mine'⟩ := by
  obtain ⟨_, _, device⟩ := moved.device
  exact pins_of_mappings (moved.extended.toGrown.sound sound) (by rw [device]) withholds

private theorem pins_of_changed (changed : l.Changed l') (sound : l'.Sound)
    (withholds : l.Withholds l') : Pins ⟨l, mine⟩ ⟨l', mine'⟩ :=
  ⟨sound, fun _ => changed.pinned_stays, .inl withholds⟩

/-- Whatever a region does, pinned mappings stay, and it only releases what it owns. -/
theorem Deed.pins (deed : u.Deed u') (sound : u.link.Sound) : u.Pins u' := by
  cases deed with
  | operate l mine op =>
      cases op with
      | submit target content =>
          exact pins_of_moved (Device.along_submit l).toMoved sound (Device.steps_withholds.submit l)
      | submitBatch chunks =>
          exact pins_of_moved (Device.along_submitBatch l).toMoved sound
            (Device.steps_withholds.submitBatch l)
      | retrieve target size =>
          exact pins_of_moved (Device.along_retrieve l).toMoved sound
            (Device.steps_withholds.retrieve l)
      | recordShadow shadow =>
          exact pins_of_still (Device.along_recordShadow_still l) sound
            (Device.steps_withholds.recordShadow l)
      | visitShadows lower upper erase =>
          exact pins_of_still (Device.along_visitShadows_still l) sound
            (Device.steps_withholds.visitShadows l)
      | map first base size implicit updateRef =>
          exact pins_of_changed (Device.changed_map sound.mappings)
            ((Device.along_map l).toGrown.sound sound) (Device.steps_withholds.map l)
      | hold first size updateRef =>
          exact pins_of_changed Device.changed_hold ((Device.along_hold l).sound sound)
            (Device.steps_withholds.hold l)
      | unmap first size force =>
          refine ⟨(Device.along_unmap l).sound sound, fun _ => Device.changed_unmap.pinned_stays, ?_⟩
          refine Device.services_unmap.imp_right ?_
          rintro ⟨m, hm, finite, services⟩
          exact ⟨m.deviceBegin, .inr ⟨m, hm, finite, rfl⟩, services⟩
      | launch entry arguments offsets kind =>
          exact pins_of_moved (Device.along_launch l).toMoved sound (Device.steps_withholds.launch l)
  | @refused l l' e size mine h =>
      have moved : l.Moved (exec (Device.allocate size) l).2 := Device.along_allocate l
      have withholds : l.Withholds (exec (Device.allocate size) l).2 := Device.steps_withholds.allocate l
      rw [h] at moved withholds
      exact pins_of_moved moved sound withholds
  | adopted mine h =>
      exact pins_of_moved (Device.along_allocate.returns h) sound
        (Device.steps_withholds.allocate.returns h)
  | @freed addr mine mine' l own kept sub =>
      have moved : l.Moved (exec (Device.free addr) l).2 := Device.along_free l
      obtain ⟨_, _, device⟩ := moved.device
      refine ⟨moved.extended.toGrown.sound sound, fun m hm _ => ?_,
        .inr ⟨addr, .inl own, Device.services_free⟩⟩
      rw [device]
      exact hm

theorem Move.pins (move : u.Move u') (sound : u.link.Sound) : u.Pins u' := by
  cases move with
  | deed h => exact h.pins sound
  | prepared l mine =>
      exact pins_of_still (Device.along_prepare l).still sound (Device.steps_withholds.prepare l)
  | loaded l mine image =>
      have places : Accelerator.Places l.device.unit l.accelerator
          (exec (Accelerator.load l.device.unit image) l.accelerator).2 :=
        Accelerator.places_load l.accelerator
      obtain ⟨done, placed, services, blocks⟩ := places
      refine pins_of_mappings ⟨sound.mappings, (blocks sound.accelerator).1⟩ rfl
        ⟨rfl, done, services, fun s hs => ?_⟩
      obtain ⟨addr, rfl⟩ := placed s hs
      rfl
  | placed l mine first target size =>
      exact pins_of_changed (Device.changed_mapGlobal sound.mappings)
        ((Device.along_mapGlobal l).toGrown.sound sound) (Device.steps_withholds.mapGlobal l)
  | flagged l mine pending =>
      exact pins_of_mappings ⟨sound.mappings, sound.accelerator⟩ rfl
        (Link.withholds_of_services rfl rfl)

theorem Turn.pins (turn : u.Turn u') (sound : u.link.Sound) : u.Pins u' := by
  cases turn with
  | move h => exact h.pins sound
  | elsewhere mine apart wellFormed =>
      exact pins_of_mappings ⟨sound.mappings, wellFormed sound.accelerator⟩ rfl
        (Link.withholds_of_services rfl apart.servicesOf)

/-- Pinned mappings stay. Each block that was to be released was owned just before that. -/
structure PinsThroughout (u u' : Tenancy) : Prop where
  sound : u'.link.Sound
  pinned : ∀ m ∈ u.link.device.mappings, m.refCount.isInfinite = true →
    m ∈ u'.link.device.mappings
  released : ∃ done, u'.link.services = u.link.services ++ done ∧
    ∀ earlier addr later, done = earlier ++ .released addr :: later →
      ∃ w, u.Course w ∧ w.Course u' ∧ w.link.services = u.link.services ++ earlier ∧ w.Owns addr

/-- One turn after the other, pinned mappings stay. -/
theorem Course.pins (course : u.Course u') (sound : u.link.Sound) : u.PinsThroughout u' := by
  induction course with
  | refl =>
      refine ⟨sound, fun _ hm _ => hm, [], (List.append_nil _).symm, fun earlier addr later h => ?_⟩
      exact absurd (congrArg List.length h) (by simp)
  | @tail v u' course turn ih =>
      obtain ⟨sound, pinned, done, services, owned⟩ := ih
      have last := turn.pins sound
      have here : v.Course u' := .single turn
      have later_owned : ∀ earlier addr later, done = earlier ++ .released addr :: later →
          ∃ w, u.Course w ∧ w.Course u' ∧ w.link.services = u.link.services ++ earlier ∧ w.Owns addr := by
        intro earlier addr later h
        obtain ⟨w, before, after, at_, owns⟩ := owned earlier addr later h
        exact ⟨w, before, Lasting.trans after here, at_, owns⟩
      refine ⟨last.sound, fun m hm infinite => last.pinned m (pinned m hm infinite) infinite, ?_⟩
      rcases last.released with ⟨-, more, services', none⟩ | ⟨addr, owns, services'⟩
      · refine ⟨done ++ more, by rw [services', services, List.append_assoc], fun earlier addr later h => ?_⟩
        rcases append_cases h with ⟨rest, split, -⟩ | ⟨between, -, split⟩
        · exact later_owned earlier addr rest split
        · have := none (.released addr) (split ▸ List.mem_append_right _ List.mem_cons_self)
          cases this
      · refine ⟨done ++ [.released addr], by rw [services', services, List.append_assoc],
          fun earlier addr' later h => ?_⟩
        rcases append_cases h with ⟨rest, split, -⟩ | ⟨between, rfl, split⟩
        · exact later_owned earlier addr' rest split
        · cases between with
          | nil =>
              cases split
              exact ⟨v, course, here, by rw [services, List.append_nil], owns⟩
          | cons x rest => exact absurd (congrArg List.length split) (by simp)

end Tenancy

/-- Whether the act runs a region or works on the mappings of a device, and not a call that takes user
memory back or looks after libraries. -/
def Act.isRegional : Act → Bool
  | .call (.dataBegin ..) | .call (.dataEnd ..) | .call (.dataUpdate ..) | .call (.target ..) => true
  | .use _ (.operate _) => true
  | _ => false

namespace Platform

variable {pl : Platform} {dev : Nat} {l : Link} {a : Act} {acts : List Act}

theorem course_act (regional : a.isRegional = true) : pl.EachMoves Link.Course (pl.act a) := by
  cases a with
  | call c =>
      cases c with
      | dataBegin id l => exact course_dataBegin ⟨pl, l⟩
      | dataEnd id l => exact course_dataEnd ⟨pl, l⟩
      | dataUpdate id l => exact course_dataUpdate ⟨pl, l⟩
      | target id l hostAddr kind => exact course_target ⟨pl, l⟩
      | _ => cases regional
  | use dev use =>
      cases use with
      | operate op =>
          cases hl : pl.link? dev with
          | none =>
              rw [act, hl]
              exact Lasting.refl (R := EachMoves Link.Course) pl
          | some l =>
              rw [act, hl]
              exact course_setLink hl (Link.moves_of_chain (Tenancy.Deed.operate l [] op).chain)
      | _ => cases regional

theorem course_actAll (regional : ∀ a ∈ acts, a.isRegional = true) :
    pl.EachMoves Link.Course (pl.actAll acts) := by
  induction acts generalizing pl with
  | nil => exact Lasting.refl (R := EachMoves Link.Course) pl
  | cons a rest ih =>
      exact Lasting.trans (R := EachMoves Link.Course) (course_act (regional a List.mem_cons_self))
        (ih fun b hb => regional b (List.mem_cons_of_mem a hb))

/-- However regions enter, leave, refresh and launch, whatever is mapped, held, moved and unmapped
besides, and whether it succeeds or not: each pinned mapping of a device stays with its section, device
address and count, and each block that the device asked its accelerator to release was at that moment
the block of a finite mapping or of a launch. -/
theorem pinned_actAll (sound : pl.Sound) (separate : pl.Separate)
    (regional : ∀ a ∈ acts, a.isRegional = true) (hl : pl.link? dev = some l) :
    ∃ l', (pl.actAll acts).link? dev = some l' ∧
      (∀ m ∈ l.device.mappings, m.refCount.isInfinite = true → m ∈ l'.device.mappings) ∧
      ∃ done, l'.services = l.services ++ done ∧
        ∀ earlier addr later, done = earlier ++ .released addr :: later →
          ∃ w : Tenancy, Tenancy.Course ⟨l, []⟩ w ∧ w.Course ⟨l', []⟩ ∧
            w.link.services = l.services ++ earlier ∧ w.Owns addr := by
  have moved := (course_actAll regional separate).link dev
  rw [hl] at moved
  cases h : (pl.actAll acts).link? dev with
  | none =>
      rw [h] at moved
      cases moved
  | some l' =>
      rw [h] at moved
      cases moved with
      | some course =>
          have pins := Tenancy.Course.pins course (sound.link hl)
          exact ⟨l', rfl, pins.pinned, pins.released⟩

/-- The user's memory is mapped to 32 bytes. -/
private def associated : Platform := oneDevice.perform (.associate 0 64 0x5000 32)

/-- A release is forced that meets the user's memory. Then a section is mapped, and a region wants it and
the user's memory deleted. -/
private def forcedRun : List Act :=
  [.use 0 (.operate (.unmap 60 8 true)),
    .call (.dataBegin 0 ⟨[⟨200, 200, 8, .ofFlags [.toDevice]⟩, ⟨64, 64, 32, .ofFlags [.toDevice]⟩], []⟩),
    .call (.dataEnd 0 ⟨[⟨200, 200, 8, .ofFlags [.delete]⟩, ⟨64, 64, 32, .ofFlags [.delete]⟩], []⟩)]

private theorem link_associated : (associated.link? 0).map (fun l =>
      (l.device.mappings.entries.items, l.services)) =
    some ([⟨64, 64, 96, 0x5000, .infinite⟩], []) := by
  cbv

private theorem link_forcedRun : ((associated.actAll forcedRun).link? 0).map (fun l =>
      (l.device.mappings.entries.items, l.services)) =
    some ([⟨64, 64, 96, 0x5000, .infinite⟩], [.submitted 8, .released 0xd00000000000]) := by
  cbv

/-- The user's memory stays mapped, and the block that is released is not the user's. -/
theorem pinned_actAll_forcedRun :
    (associated.Sound ∧ associated.Separate ∧ ∀ a ∈ forcedRun, a.isRegional = true) ∧
    ∃ l l', associated.link? 0 = some l ∧ (associated.actAll forcedRun).link? 0 = some l' ∧
      (⟨64, 64, 96, 0x5000, .infinite⟩ : Mapping) ∈ l.device.mappings ∧
      (⟨64, 64, 96, 0x5000, .infinite⟩ : Mapping) ∈ l'.device.mappings ∧
      ∃ w : Tenancy, Tenancy.Course ⟨l, []⟩ w ∧ w.Course ⟨l', []⟩ ∧
        w.link.services = [.submitted 8] ∧ w.Owns 0xd00000000000 := by
  have sound : associated.Sound := ((Reachable.fresh fresh_oneDevice).perform _).sound
  have separate : associated.Separate := by
    have places : associated.places = [(0, 0)] := by cbv
    rw [Separate, places]
    exact List.nodup_singleton _
  have regional : ∀ a ∈ forcedRun, a.isRegional = true := by decide
  obtain ⟨l, hl, before⟩ := Option.map_eq_some_iff.1 link_associated
  obtain ⟨items, services⟩ := Prod.mk.inj before
  obtain ⟨l', hl', pinned, done, services', owned⟩ := pinned_actAll sound separate regional hl
  have after := link_forcedRun
  rw [hl', Option.map_some, Option.some.injEq] at after
  have mapped : (⟨64, 64, 96, 0x5000, .infinite⟩ : Mapping) ∈ l.device.mappings := by
    change _ ∈ l.device.mappings.entries.items
    rw [items]
    exact List.mem_cons_self
  rw [(Prod.mk.inj after).2, services, List.nil_append] at services'
  obtain ⟨w, first, second, here, owns⟩ := owned [.submitted 8] 0xd00000000000 [] services'.symm
  refine ⟨⟨sound, separate, regional⟩, l, l', hl, hl', mapped, pinned _ mapped rfl, w, first, second, ?_, owns⟩
  rw [here, services]
  rfl

end Platform

end Offloading
