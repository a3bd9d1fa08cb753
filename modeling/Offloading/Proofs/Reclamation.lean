import Offloading.Proofs.Deeds
import Offloading.Proofs.Reachable
/-!
# Reclamation of device memory

Whichever step of a launch fails, the blocks that it allocated do not get lost: each of them backs a
mapping, or it was released, or its release was tried and failed.
-/

namespace Offloading

namespace Accelerator

variable {a a' : Accelerator} {unit : Int} {addr : Nat} {m : DeviceMemory}

/-- A live block of the device starts at the address. -/
def Live (a : Accelerator) (unit : Int) (addr : Nat) : Prop :=
  ∃ m, a.memory? unit = some m ∧ ∃ b ∈ m.blocks, b.start = addr

theorem live_iff (h : a.memory? unit = some m) :
    a.Live unit addr ↔ ∃ size, (addr, size) ∈ m.extents := by
  constructor
  · rintro ⟨_, same, b, hb, rfl⟩
    rw [h, Option.some.injEq] at same
    subst same
    exact ⟨_, DeviceMemory.mem_extents.2 ⟨b, hb, rfl⟩⟩
  · rintro ⟨size, hp⟩
    obtain ⟨b, hb, same⟩ := DeviceMemory.mem_extents.1 hp
    exact ⟨m, h, b, hb, congrArg Prod.fst same⟩

theorem live_congr (h : a'.memory? unit = a.memory? unit) :
    a'.Live unit addr ↔ a.Live unit addr := by
  rw [Live, Live, h]

/-- Blocks stay live if no memory changes its layout. -/
theorem live_of_layouts (h : a'.layouts = a.layouts) : a'.Live unit addr → a.Live unit addr := by
  rintro ⟨m', hm', b, hb, rfl⟩
  obtain ⟨m, hm, same⟩ := memory?_of_layouts h hm'
  have extents : m.extents = m'.extents := congrArg (fun layout => layout.2.2.2) same
  refine (live_iff hm).2 ⟨b.bytes.length, ?_⟩
  rw [extents]
  exact DeviceMemory.mem_extents.2 ⟨b, hb, rfl⟩

/-- A release is counted, whether it succeeds or not. -/
theorem calls_delete : (exec (delete unit addr) a).2.calls = a.calls.add .delete := by
  have counted : (exec (release unit addr) a).2.calls = a.calls.add .delete := by
    rw [release, exec_note_bind, exec_attempt_bind]
    split
    · rfl
    · refine along_memory_bind (R := Fixed Accelerator.calls) (fun a m _ => ?_)
        ((a.noted unit (.released addr)).counted .delete)
      exact Along.bind_at (x := setMemory _ _) (by rfl) fun _ => Along.ite Along.pure Along.throw
  change (exec (tryCatch (release unit addr) _) a).2.calls = _
  rw [exec_tryCatch]
  rcases h : exec (release unit addr) a with ⟨e | _, a'⟩
  · rw [h] at counted
    exact counted
  · rw [h] at counted
    exact counted

end Accelerator

theorem Device.calls_free {l : Link} {addr : Nat} :
    (exec (Device.free addr) l).2.accelerator.calls = l.accelerator.calls.add .delete := by
  have counted : (exec (Accelerator.delete l.device.unit addr) l.accelerator).2.calls =
    l.accelerator.calls.add .delete := Accelerator.calls_delete
  change (exec (DeviceM.call (.releaseFailed l.device.id addr)
    (Accelerator.delete l.device.unit addr) >>= _) l).2.accelerator.calls = _
  rw [exec_bind, DeviceM.lifts_call l, ← counted]
  rcases exec (Accelerator.delete l.device.unit addr) l.accelerator with ⟨e | _, a⟩
  · rfl
  · rfl

namespace Tenancy

variable {u u' u'' : Tenancy} {l l' : Link} {mine : List Nat} {addr : Nat}

/-- A live block of the device starts at the address. -/
def Live (u : Tenancy) (addr : Nat) : Prop := u.link.accelerator.Live u.link.device.unit addr

/-- A mapping or the user needs the block at the address. -/
def Holds (u : Tenancy) (addr : Nat) : Prop :=
  (∃ e ∈ u.link.device.mappings, e.deviceBegin = addr) ∨ addr ∈ u.scratch

/-- No block gets lost: what is live afterwards was not needed before, or it is needed now, or it
could not be released. -/
structure Reclaims (u u' : Tenancy) (failed : List Nat) : Prop where
  unit : u'.link.device.unit = u.link.device.unit
  others : ∀ unit ≠ u.link.device.unit, ∀ addr,
    u'.link.accelerator.Live unit addr → u.link.accelerator.Live unit addr
  failedReleases : u'.link.accelerator.failedReleases =
    u.link.accelerator.failedReleases ++ failed.map (Prod.mk u.link.device.unit)
  accounted : ∀ addr, u'.Live addr →
    (u.Live addr ∧ ¬ u.Holds addr) ∨ u'.Holds addr ∨ addr ∈ failed

/-- On a sound device no block gets lost, and the device stays sound. -/
def Thrifty (u u' : Tenancy) : Prop :=
  u.link.Sound → u'.link.Sound ∧ ∃ failed, u.Reclaims u' failed

/-- If every live block stays live or is needed, and whatever was needed still is. -/
theorem Reclaims.of_served {failed : List Nat} (served : u.link.Served u'.link failed)
    (live : ∀ addr, u'.Live addr → u.Live addr ∨ u'.Holds addr)
    (holds : ∀ addr, u'.Live addr → u.Holds addr → u'.Holds addr ∨ addr ∈ failed) :
    u.Reclaims u' failed := by
  refine ⟨served.unit, fun unit other addr there => ?_, served.failedReleases, fun addr there => ?_⟩
  · exact (Accelerator.live_congr (served.others unit other)).1 there
  · rcases live addr there with before | needed
    · by_cases held : u.Holds addr
      · exact .inr (holds addr there held)
      · exact .inl ⟨before, held⟩
    · exact .inr (.inl needed)

theorem Reclaims.trans {failed failed' : List Nat} (h : u.Reclaims u' failed)
    (h' : u'.Reclaims u'' failed') : u.Reclaims u'' (failed ++ failed') := by
  refine ⟨h'.unit.trans h.unit, fun unit other addr there => ?_, ?_, fun addr there => ?_⟩
  · exact h.others unit other addr (h'.others unit (h.unit ▸ other) addr there)
  · rw [h'.failedReleases, h.failedReleases, h.unit, List.map_append, List.append_assoc]
  · rcases h'.accounted addr there with ⟨between, free⟩ | held | lost
    · rcases h.accounted addr between with before | held | lost
      · exact .inl before
      · exact absurd held free
      · exact .inr (.inr (List.mem_append_left _ lost))
    · exact .inr (.inl held)
    · exact .inr (.inr (List.mem_append_right _ lost))

/-- Nothing gets lost where mappings and blocks stay. -/
theorem Reclaims.of_still (h : l.Still l') : Reclaims ⟨l, mine⟩ ⟨l', mine⟩ [] := by
  refine ⟨h.unit, fun _ _ _ => Accelerator.live_of_layouts h.layouts, ?_, fun addr there => ?_⟩
  · rw [h.failedReleases]
    exact (List.append_nil _).symm
  · have before : Live ⟨l, mine⟩ addr := by
      change l'.accelerator.Live l'.device.unit addr at there
      rw [h.unit] at there
      exact Accelerator.live_of_layouts h.layouts there
    by_cases held : Holds ⟨l, mine⟩ addr
    · refine .inr (.inl ?_)
      rwa [Holds, h.mappings]
    · exact .inl ⟨before, held⟩

instance : Lasting Thrifty where
  refl _ sound := ⟨sound, [], .of_still (Lasting.refl _)⟩
  trans h h' sound := by
    obtain ⟨sound', failed, reclaims⟩ := h sound
    obtain ⟨sound'', failed', reclaims'⟩ := h' sound'
    exact ⟨sound'', _, reclaims.trans reclaims'⟩

theorem thrifty_of_still (h : l.Still l') : Thrifty ⟨l, mine⟩ ⟨l', mine⟩ :=
  fun sound => ⟨h.sound sound, [], .of_still h⟩

/-! ## Operations -/

private theorem live_of_memory (memory : l'.memory? = l.memory?) :
    Live ⟨l', mine⟩ addr → Live ⟨l, mine⟩ addr := by
  rintro ⟨m, hm, there⟩
  exact ⟨m, memory.symm.trans hm, there⟩

private theorem live_iff_extents {m : DeviceMemory} (hm : l.memory? = some m) :
    Live ⟨l, mine⟩ addr ↔ ∃ size, (addr, size) ∈ m.extents := Accelerator.live_iff hm

/-- An operation on mappings loses no block, whoever else needs some. -/
theorem reclaims_of_changed (changed : l.Changed l') (sound : l.Sound) :
    ∃ failed, Reclaims ⟨l, mine⟩ ⟨l', mine⟩ failed := by
  cases changed with
  | idle failed idle =>
      refine ⟨failed, .of_served idle.toServed (fun addr there => .inl ?_)
        fun addr _ held => .inl ?_⟩
      · exact live_of_memory idle.memory? there
      · refine held.imp_left ?_
        rintro ⟨e, he, rfl⟩
        exact ⟨e, (MappingTable.mem_congr idle.entries).2 he, rfl⟩
  | recounted e c he infinite served entries memory =>
      refine ⟨[], .of_served served (fun addr there => .inl ?_) fun addr _ held => .inl ?_⟩
      · exact live_of_memory memory there
      · refine held.imp_left ?_
        rintro ⟨n, hn, rfl⟩
        by_cases same : n.hostBegin = e.hostBegin
        · have : n = e := AddressMap.eq_of_address_eq hn he same
          subst this
          exact ⟨_, (Link.mem_of_insert entries).2 (.inl rfl), rfl⟩
        · exact ⟨n, (Link.mem_of_insert entries).2 (.inr ⟨hn, same⟩), rfl⟩
  | mapped e m m' free fin nonempty served entries before allocated after =>
      have wf := sound.accelerator.memory before
      refine ⟨[], .of_served served (fun addr there => ?_) fun addr _ held => .inl ?_⟩
      · obtain ⟨size, hp⟩ := (live_iff_extents after).1 there
        rw [wf.extents_allocate allocated] at hp
        rcases List.mem_cons.1 hp with new | old
        · refine .inr (.inl ⟨e, (Link.mem_of_insert entries).2 (.inl rfl), ?_⟩)
          rw [(DeviceMemory.allocate_eq_some allocated).1]
          exact (congrArg Prod.fst new).symm
        · exact .inl ((live_iff_extents before).2 ⟨size, old⟩)
      · refine held.imp_left ?_
        rintro ⟨n, hn, rfl⟩
        exact ⟨n, (Link.mem_of_insert entries).2 (.inr ⟨hn, free n hn⟩), rfl⟩
  | pinned e free infinite served entries memory =>
      refine ⟨[], .of_served served (fun addr there => .inl ?_) fun addr _ held => .inl ?_⟩
      · exact live_of_memory memory there
      · refine held.imp_left ?_
        rintro ⟨n, hn, rfl⟩
        exact ⟨n, (Link.mem_of_insert entries).2 (.inr ⟨hn, free n hn⟩), rfl⟩
  | released e m m' he fin served entries before freed after =>
      have gone : ∀ addr, Live ⟨l', mine⟩ addr → Live ⟨l, mine⟩ addr ∧ addr ≠ e.deviceBegin := by
        intro addr there
        obtain ⟨size, hp⟩ := (live_iff_extents after).1 there
        rw [DeviceMemory.extents_free freed, List.mem_filter, bne_iff_ne] at hp
        exact ⟨(live_iff_extents before).2 ⟨size, hp.1⟩, hp.2⟩
      refine ⟨[], .of_served served (fun addr there => .inl (gone addr there).1)
        fun addr there held => .inl ?_⟩
      refine held.imp_left ?_
      rintro ⟨n, hn, rfl⟩
      refine ⟨n, (Link.mem_of_erase he entries).2 ⟨hn, ?_⟩, rfl⟩
      rintro rfl
      exact (gone _ there).2 rfl
  | lost e he fin served entries memory why =>
      refine ⟨[e.deviceBegin], .of_served served (fun addr there => .inl ?_) fun addr _ held => ?_⟩
      · exact live_of_memory memory there
      · rcases held with ⟨n, hn, rfl⟩ | user
        · by_cases same : n = e
          · subst same
            exact .inr (List.mem_singleton_self _)
          · exact .inl (.inl ⟨n, (Link.mem_of_erase he entries).2 ⟨hn, same⟩, rfl⟩)
        · exact .inl (.inr user)

/-- A new block belongs to the user. -/
theorem thrifty_of_allocate {size : Nat} (h : Returns (Device.allocate size) l addr l') :
    Thrifty ⟨l, mine⟩ ⟨l', mine ++ [addr]⟩ := by
  intro sound
  have sound' := (Device.along_allocate.returns h).extended.toGrown.sound sound
  obtain ⟨m, m', before, allocated, wrote⟩ := Device.returns_allocate h
  have after := wrote.memory? before
  refine ⟨sound', [], .of_served (Device.served_of_allocate h) (fun a there => ?_)
    fun a _ held => .inl ?_⟩
  · obtain ⟨size, hp⟩ := (live_iff_extents after).1 there
    rw [(sound.accelerator.memory before).extents_allocate allocated] at hp
    rcases List.mem_cons.1 hp with new | old
    · refine .inr (.inr (List.mem_append_right _ (List.mem_singleton.2 ?_)))
      rw [(DeviceMemory.allocate_eq_some allocated).1]
      exact congrArg Prod.fst new
    · exact .inl ((live_iff_extents before).2 ⟨size, old⟩)
  · rw [Holds, wrote.mappings]
    exact held.imp_right (List.mem_append_left _)

/-- The user may forget a block that he tried to free. -/
theorem thrifty_of_free {mine' : List Nat} (kept : ∀ a ∈ mine, a = addr ∨ a ∈ mine') :
    Thrifty ⟨l, mine⟩ ⟨(exec (Device.free addr) l).2, mine'⟩ := by
  intro sound
  have sound' : (exec (Device.free addr) l).2.Sound :=
    (Device.along_free l).extended.toGrown.sound sound
  rcases h : exec (Device.free addr) l with ⟨e | _, l'⟩
  · obtain ⟨idle, -⟩ := Device.free_error h
    rw [h] at sound'
    refine ⟨sound', [addr], .of_served idle.toServed (fun a there => .inl ?_) fun a _ held => ?_⟩
    · exact live_of_memory idle.memory? there
    · rcases held with ⟨e, he, start⟩ | user
      · exact .inl (.inl ⟨e, (MappingTable.mem_congr idle.entries).2 he, start⟩)
      · rcases kept a user with rfl | still
        · exact .inr (List.mem_singleton_self _)
        · exact .inl (.inr still)
  · obtain ⟨m, m', before, freed, wrote⟩ := Device.returns_free h
    rw [h] at sound'
    have gone : ∀ a, Live ⟨l', mine'⟩ a → Live ⟨l, mine⟩ a ∧ a ≠ addr := by
      intro a there
      obtain ⟨size, hp⟩ := (live_iff_extents (wrote.memory? before)).1 there
      rw [DeviceMemory.extents_free freed, List.mem_filter, bne_iff_ne] at hp
      exact ⟨(live_iff_extents before).2 ⟨size, hp.1⟩, hp.2⟩
    refine ⟨sound', [], .of_served (Device.served_of_free h) (fun a there => .inl (gone a there).1)
      fun a there held => .inl ?_⟩
    rcases held with ⟨e, he, start⟩ | user
    · exact .inl ⟨e, wrote.mappings.symm ▸ he, start⟩
    · exact .inr ((kept a user).resolve_left (gone a there).2)

/-- Whatever a region does, it loses no block. -/
theorem Deed.thrifty {u u' : Tenancy} (deed : u.Deed u') : u.Thrifty u' := by
  cases deed with
  | operate l mine op =>
      cases op with
      | submit target content => exact thrifty_of_still (Device.along_submit l).still
      | submitBatch chunks => exact thrifty_of_still (Device.along_submitBatch l).still
      | retrieve target size => exact thrifty_of_still (Device.along_retrieve l).still
      | recordShadow shadow => exact thrifty_of_still (Device.along_recordShadow_still l)
      | visitShadows lower upper erase => exact thrifty_of_still (Device.along_visitShadows_still l)
      | map first base size implicit updateRef =>
          exact fun sound => ⟨(Device.along_map l).toGrown.sound sound,
            reclaims_of_changed (Device.changed_map sound.mappings) sound⟩
      | hold first size updateRef =>
          exact fun sound => ⟨(Device.along_hold l).sound sound,
            reclaims_of_changed Device.changed_hold sound⟩
      | unmap first size force =>
          exact fun sound => ⟨(Device.along_unmap l).sound sound,
            reclaims_of_changed Device.changed_unmap sound⟩
      | launch entry arguments offsets kind => exact thrifty_of_still (Device.along_launch l).still
  | @refused l l' e size mine h =>
      intro sound
      have moved : l.Moved (exec (Device.allocate size) l).2 := Device.along_allocate l
      have sound' := moved.extended.toGrown.sound sound
      rw [h] at sound'
      exact ⟨sound', reclaims_of_changed (.idle [] (Device.allocate_error h)) sound⟩
  | adopted mine h => exact thrifty_of_allocate h
  | freed l own kept sub => exact thrifty_of_free kept

end Tenancy

namespace Region

open RegionM

/-- All blocks were asked to be released, and the releases of those in `failed` failed. -/
structure Attempted (blocks failed : List Nat) (l l' : Link) : Prop where
  unit : l'.device.unit = l.device.unit
  calls : l'.accelerator.calls.delete = l.accelerator.calls.delete + blocks.length
  failedReleases : l'.accelerator.failedReleases =
    l.accelerator.failedReleases ++ failed.map (Prod.mk l.device.unit)
  sublist : failed.Sublist blocks
  freed : ∀ addr ∈ blocks, addr ∈ failed ∨ ¬ l'.accelerator.Live l.device.unit addr
  shrunk : ∀ addr, l'.accelerator.Live l.device.unit addr → l.accelerator.Live l.device.unit addr

theorem attempted_free (l : Link) (addr : Nat) :
    ∃ failed, Attempted [addr] failed l (exec (Device.free addr) l).2 := by
  have counted : (exec (Device.free addr) l).2.accelerator.calls.delete =
      l.accelerator.calls.delete + 1 := by
    rw [Device.calls_free]
    rfl
  rcases h : exec (Device.free addr) l with ⟨e | _, l'⟩
  · rw [h] at counted
    obtain ⟨idle, -⟩ := Device.free_error h
    refine ⟨[addr], idle.unit, counted, idle.failedReleases, .refl _, fun a ha => .inl ha, ?_⟩
    exact fun a => (Accelerator.live_congr (Accelerator.memory?_congr idle.memories)).1
  · rw [h] at counted
    obtain ⟨m, m', before, freed, wrote⟩ := Device.returns_free h
    have served := Device.served_of_free h
    have gone : ∀ a, l'.accelerator.Live l.device.unit a →
        l.accelerator.Live l.device.unit a ∧ a ≠ addr := by
      intro a there
      rw [← served.unit] at there
      obtain ⟨size, hp⟩ := (Accelerator.live_iff (wrote.memory? before)).1 there
      rw [DeviceMemory.extents_free freed, List.mem_filter, bne_iff_ne] at hp
      exact ⟨(Accelerator.live_iff before).2 ⟨size, hp.1⟩, hp.2⟩
    refine ⟨[], served.unit, counted, served.failedReleases, List.nil_sublist _,
      fun a ha => .inr fun there => ?_, fun a there => (gone a there).1⟩
    exact (gone a there).2 (List.mem_singleton.1 ha)

theorem Attempted.append {l l' l'' : Link} {blocks blocks' failed failed' : List Nat}
    (h : Attempted blocks failed l l') (h' : Attempted blocks' failed' l' l'') :
    Attempted (blocks ++ blocks') (failed ++ failed') l l'' := by
  obtain ⟨unit, calls, failedReleases, sublist, freed, shrunk⟩ := h'
  rw [h.unit] at failedReleases freed shrunk
  refine ⟨unit.trans h.unit, ?_, ?_, h.sublist.append sublist, fun addr ha => ?_,
    fun addr there => h.shrunk addr (shrunk addr there)⟩
  · rw [calls, h.calls, List.length_append, Nat.add_assoc]
  · rw [failedReleases, h.failedReleases, List.map_append, List.append_assoc]
  · rcases List.mem_append.1 ha with ha | ha
    · exact (h.freed addr ha).imp (List.mem_append_left _)
        fun dead there => dead (shrunk addr there)
    · exact (freed addr ha).imp_left (List.mem_append_right _)

theorem freeAll_attempts {blocks : List Nat} {s : RegionState} :
    ∃ failed, Attempted blocks failed s.activation.link
      (exec (freeAll blocks) s).2.activation.link := by
  induction blocks generalizing s with
  | nil =>
      exact ⟨[], rfl, rfl, (List.append_nil _).symm, .refl _, fun _ h => (nomatch h), fun _ h => h⟩
  | cons target rest ih =>
      rw [exec_freeAll_cons]
      obtain ⟨failed, first⟩ := attempted_free s.activation.link target
      obtain ⟨failed', others⟩ :=
        ih (s := s.withLink (exec (Device.free target) s.activation.link).2)
      exact ⟨_, first.append others⟩

/-- A region whose launch owns no block yet loses none. -/
theorem thrifty_run {settings : Settings} {entry : Nat} {kind : LaunchKind} {s : RegionState}
    (none : Unburdened s) :
    Tenancy.Thrifty ⟨s.activation.link, []⟩
      ⟨(exec (run settings entry kind) s).2.activation.link, []⟩ :=
  (chain_run none).lift Tenancy.Deed.thrifty

end Region

namespace Platform

open CallM

variable {pl pl' : Platform} {dev : Nat} {l l' : Link} {id : Int} {s : CallState}

/-- At most the device at the position changes, and no block of it gets lost. -/
def ThriftyOn (dev : Nat) (pl pl' : Platform) : Prop :=
  pl'.links = pl.links ∨ ∃ l l', pl.link? dev = some l ∧ pl'.links = (pl.setLink dev l').links ∧
    Tenancy.Thrifty ⟨l, []⟩ ⟨l', []⟩

/-- Each block of an accelerator that is live now and was not before backs a mapping of the device
that it lies on, or releasing it was tried in between and failed. -/
def Accounts (pl : Platform) (position : Nat) (before now : Accelerator) : Prop :=
  ∃ failed, now.failedReleases = before.failedReleases ++ failed ∧
    ∀ unit addr, now.Live unit addr → ¬ before.Live unit addr →
      (∃ slot ∈ pl.devices, slot.accelerator = position ∧ slot.device.unit = unit ∧
        ∃ e ∈ slot.device.mappings, e.deviceBegin = addr) ∨ (unit, addr) ∈ failed

/-- No block of any accelerator got lost. -/
def LosesNoBlock (pl pl' : Platform) : Prop :=
  ∀ i before now, pl.accelerators[i]? = some before → pl'.accelerators[i]? = some now →
    pl'.Accounts i before now

theorem Accounts.refl (pl : Platform) (i : Nat) (a : Accelerator) : pl.Accounts i a a :=
  ⟨[], (List.append_nil _).symm, fun _ _ live dead => absurd live dead⟩

theorem links_setLink_congr (h : pl'.links = pl.links) :
    (pl'.setLink dev l).links = (pl.setLink dev l).links := by
  rw [links, links, Prod.mk.injEq] at h
  rw [setLink, setLink, h.1]
  split
  · exact Prod.ext h.1 h.2
  · rename_i slot _
    change (_, pl'.accelerators.set slot.accelerator _) = (_, pl.accelerators.set _ _)
    rw [h.2]

instance : Lasting (ThriftyOn dev) where
  refl _ := .inl rfl
  trans {pl pl' pl''} h h' := by
    rcases h with same | ⟨l, l', hl, same, thrifty⟩
    · rcases h' with same' | ⟨k, k', hk, same', thrifty'⟩
      · exact .inl (same'.trans same)
      · rw [link?_congr same] at hk
        exact .inr ⟨k, k', hk, same'.trans (links_setLink_congr same), thrifty'⟩
    · rcases h' with same' | ⟨k, k', hk, same', thrifty'⟩
      · exact .inr ⟨l, l', hl, same'.trans same, thrifty⟩
      · rw [link?_congr same, link?_setLink hl, Option.some.injEq] at hk
        subst hk
        exact .inr ⟨l, k', hl, same'.trans (links_setLink_setLink same),
          Lasting.trans thrifty thrifty'⟩

/-- What holds of one device holds of the platform. -/
theorem ThriftyOn.losesNoBlock (h : ThriftyOn dev pl pl') (sound : pl.Sound) :
    pl.LosesNoBlock pl' := by
  intro i a a' ha ha'
  have untouched : pl'.accelerators[i]? = pl.accelerators[i]? → pl'.Accounts i a a' := by
    intro same
    rw [same, ha, Option.some.injEq] at ha'
    exact ha' ▸ .refl pl' i a
  rcases h with same | ⟨l, l', hl, same, thrifty⟩
  · exact untouched (by rw [(Prod.mk.inj same).2])
  · obtain ⟨-, failed, reclaims⟩ := thrifty (sound.link hl)
    obtain ⟨slot, hs, device, hacc⟩ := link?_eq_some_iff.1 hl
    obtain ⟨lt, -⟩ := List.getElem?_eq_some_iff.1 hs
    rw [setLink, hs] at same
    obtain ⟨devices, accelerators⟩ := Prod.mk.inj same
    by_cases other : slot.accelerator = i
    · subst other
      obtain ⟨here, -⟩ := List.getElem?_eq_some_iff.1 hacc
      rw [ha, Option.some.injEq] at hacc
      rw [accelerators, List.getElem?_set_self here, Option.some.injEq] at ha'
      subst hacc ha'
      refine ⟨failed.map (Prod.mk l.device.unit), reclaims.failedReleases, ?_⟩
      intro unit addr live dead
      by_cases other : unit = l.device.unit
      · subst other
        have live' : Tenancy.Live ⟨l', []⟩ addr := by
          rw [Tenancy.Live, reclaims.unit]
          exact live
        rcases reclaims.accounted addr live' with ⟨before, -⟩ | (⟨e, he, start⟩ | mine) | lost
        · exact absurd before dead
        · refine .inl ⟨{ slot with device := l'.device }, ?_, rfl, reclaims.unit, e, he, start⟩
          rw [devices]
          exact List.mem_set lt _
        · cases mine
        · exact .inr (List.mem_map_of_mem lost)
      · exact absurd (reclaims.others unit other addr live) dead
    · refine untouched ?_
      rw [accelerators]
      exact List.getElem?_set_ne other

/-! ## Calls -/

theorem thriftyOn_onDevice {α : Type} {x : DeviceM α} (hx : Along Link.Still x) :
    Along (ThriftyOn dev) (onDevice dev x) :=
  along_onDevice fun _ l hl => .inr ⟨l, _, hl, rfl, Tenancy.thrifty_of_still (hx l)⟩

/-- If no library waits, preparing is all that checking a device does. -/
theorem thriftyOn_checkReady {run : Nat → PlatformM Unit}
    (loaded : ∀ l, pl.link? dev = some l → l.device.pending = false) :
    ThriftyOn dev pl (exec (checkReady dev run) pl).2 := by
  refine Along.bind_returns ?_ fun _ pl₁ h => ?_
  · exact thriftyOn_onDevice (Device.along_prepare.mono Link.Prepared.still) pl
  · obtain ⟨l, l', hl, ran, rfl⟩ := returns_onDevice.1 h
    have pending := (Device.along_prepare.returns ran).still.pending.trans (loaded l hl)
    rw [exec_bind_ok (exec_link (link?_setLink hl)), pending]
    exact Lasting.refl _

theorem thriftyOn_ready (id : Int) (loaded : ∀ slot ∈ pl.devices, slot.device.pending = false) :
    ∃ dev, ThriftyOn dev pl (exec (ready id) pl).2 ∧
      ∀ d pl', Returns (ready id) pl d pl' → d = dev := by
  have same : pl = (exec (deviceIndex id) pl).2 := along_deviceIndex (R := Eq) id pl
  rcases hi : exec (deviceIndex id) pl with ⟨e | dev, pl₁⟩
  · rw [hi] at same
    refine ⟨0, ?_, fun d pl' h => ?_⟩
    · rw [ready, exec_bind_error hi, same]
      exact Lasting.refl _
    · rw [Returns, ready, exec_bind_error hi] at h
      cases h
  · rw [hi] at same
    subst same
    refine ⟨dev, ?_, fun d pl' h => (index_of_ready h).unique hi |>.1.symm⟩
    rw [ready, exec_bind_ok hi]
    refine Along.bind_at (thriftyOn_checkReady fun l hl => ?_) fun _ => Along.pure
    obtain ⟨slot, hs, device, -⟩ := link?_eq_some_iff.1 hl
    rw [← device]
    exact loaded slot (List.mem_of_getElem? hs)

/-- The same for the platform of a call. -/
def CallThriftyOn (dev : Nat) (s s' : CallState) : Prop := ThriftyOn dev s.platform s'.platform

instance : Lasting (CallThriftyOn dev) where
  refl s := Lasting.refl s.platform
  trans h h' := Lasting.trans (R := ThriftyOn dev) h h'

theorem thriftyOn_of_links {α : Type} {x : PlatformM α} (hx : Along (Fixed links) x) :
    Along (CallThriftyOn dev) (onPlatform x) :=
  lifts_onPlatform.along hx fun _ _ same => .inl same

theorem along_resolveEntry_links {device hostAddr : Nat} :
    Along (Fixed links) (resolveEntry device hostAddr) :=
  along_resolveEntry fun _ _ => rfl

theorem thriftyOn_runRegion {hostAddr : Nat} {kind : LaunchKind} :
    Along (CallThriftyOn dev) (runRegion dev hostAddr kind) := by
  refine CallM.along_link_bind fun s l _ => Along.bind ?_ (fun entry => ?_) s
  · exact thriftyOn_of_links along_resolveEntry_links
  · refine along_inRegion fun s l hl => .inr ⟨l, _, hl, rfl, ?_⟩
    exact Region.thrifty_run (show Region.Unburdened (s.region l) from rfl)

theorem thriftyOn_target {hostAddr : Nat} {kind : LaunchKind}
    (loaded : ∀ slot ∈ s.platform.devices, slot.device.pending = false) :
    ∃ dev, ThriftyOn dev s.platform (exec (target id hostAddr kind) s).2.platform := by
  obtain ⟨dev, ready, index⟩ := thriftyOn_ready id loaded
  refine ⟨dev, Along.bind_returns (R := CallThriftyOn dev) ?_ fun d s₁ h => ?_⟩
  · rw [lifts_onPlatform s]
    exact ready
  · obtain ⟨pl, ran, -⟩ := lifts_onPlatform.returns.1 h
    obtain rfl := index d pl ran
    refine Along.bind_at (thriftyOn_runRegion s₁) fun _ => thriftyOn_of_links ?_
    refine Along.modify fun pl => ?_
    split
    · rfl
    · rfl

/-- However a call with a kernel ends, and whichever accelerator calls fail, no block gets lost, and
all blocks of a launch are asked to be released even if some releases fail. -/
theorem target_losesNoBlock {hostAddr : Nat} {kind : LaunchKind} (sound : s.platform.Sound)
    (loaded : ∀ slot ∈ s.platform.devices, slot.device.pending = false) :
    s.platform.LosesNoBlock (exec (target id hostAddr kind) s).2.platform ∧
      ∀ r : RegionState, (exec Region.freeScratch r).2.scratch = [] ∧
        ∃ failed, Region.Attempted r.scratch failed r.activation.link
          (exec Region.freeScratch r).2.activation.link := by
  obtain ⟨dev, thrifty⟩ : ∃ dev, ThriftyOn dev s.platform
      (exec (target id hostAddr kind) s).2.platform := thriftyOn_target loaded
  refine ⟨thrifty.losesNoBlock sound, fun r => ⟨Region.scratch_freeScratch, ?_⟩⟩
  exact Region.freeAll_attempts (s := { r with scratch := [] })

/-- A library with a kernel that does nothing. -/
def idleLibrary : LibraryDescription where
  hostSymbols := [⟨"idle", 0x500, 0⟩]
  images := [some [⟨"idle", 0, 0⟩]]

/-- Every release fails on this platform. One library is loaded. -/
def reluctant : Platform :=
  { oneDevice with
    accelerators := [{ Accelerator.ofDevices 1 1024 with
      kernels := [⟨"idle", fun _ => pure ()⟩]
      schedule := fun call _ => call == CallKind.delete }] }
  |>.performAll [.register idleLibrary, .dataBegin 0 {}]

/-- A call whose kernel gets a byte of its own. -/
def privateCall : CallState where
  platform := reluctant
  arguments := { arguments := [⟨0x1000, 0x1000, 1, .ofFlags [.privateCopy, .targetParam]⟩] }

/-- The private copy stays on the device, and its release is known to have failed. -/
theorem target_losesNoBlock_private :
    (privateCall.platform.Sound ∧
      ∀ slot ∈ privateCall.platform.devices, slot.device.pending = false) ∧
    (exec (target 0 0x500 .single) privateCall).2.platform.accelerators.map
      (fun a => (a.liveBlocks 0, a.failedReleases)) = [(1, [(0, 0xd00000000000)])] ∧
    privateCall.platform.LosesNoBlock (exec (target 0 0x500 .single) privateCall).2.platform := by
  have sound : privateCall.platform.Sound := by
    refine sound_performAll ⟨fun slot hs => ?_, fun a ha => ?_⟩
    · rw [List.mem_singleton.1 hs]
      exact MappingTable.wellFormed_empty
    · rw [List.mem_singleton.1 ha]
      exact Accelerator.wellFormed_ofDevices rfl
  have loaded : ∀ slot ∈ privateCall.platform.devices, slot.device.pending = false := by
    have none : (privateCall.platform.devices.all fun slot => !slot.device.pending) = true := by cbv
    intro slot hs
    simpa using List.all_eq_true.1 none slot hs
  have leaked : (exec (target 0 0x500 .single) privateCall).2.platform.accelerators.map
      (fun a => (a.liveBlocks 0, a.failedReleases)) = [(1, [(0, 0xd00000000000)])] := by cbv
  exact ⟨⟨sound, loaded⟩, leaked, (target_losesNoBlock sound loaded).1⟩

end Platform

end Offloading
