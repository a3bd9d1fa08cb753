import Mathlib
import Offloading.Proofs.DevicePointers
import Offloading.Proofs.KernelFree
import Offloading.Proofs.Places
/-!
# Device pointers through a run

In a run of calls without kernels every call works on one device and leaves the memories of all others
alone. So what the phases of a region do to the patched pointers of one device carries over to the
platform: after every call of the run, the copy of every patched pointer holds its device value.
-/

namespace Offloading

namespace Platform

open CallM Region

variable {pl pl' : Platform} {dev d : Nat} {id : Int} {l k : Link} {args : ArgumentList} {c : Call}
  {calls : List Call} {s s' : RegionState}

/-- A call that works on one device leaves the other devices and their memories as they are. -/
theorem link?_setLink_ne (separate : pl.Separate) (hl : pl.link? dev = some l) (confined : l.Confined k)
    (other : d ≠ dev) {m : Link} (hm : (pl.setLink dev k).link? d = some m) :
    ∃ n, pl.link? d = some n ∧ m.device = n.device ∧ m.memory? = n.memory? := by
  obtain ⟨slot, hs, device, ha⟩ := link?_eq_some_iff.1 hl
  obtain ⟨slot', hs', device', ha'⟩ := link?_eq_some_iff.1 hm
  rw [setLink, hs] at hs' ha'
  rw [List.getElem?_set_ne (Ne.symm other)] at hs'
  by_cases together : slot'.accelerator = slot.accelerator
  · obtain ⟨lt, -⟩ := List.getElem?_eq_some_iff.1 ha
    rw [together, List.getElem?_set_self lt, Option.some.injEq] at ha'
    refine ⟨⟨m.device, l.accelerator⟩, link?_eq_some_iff.2 ⟨slot', hs', device', ?_⟩, rfl, ?_⟩
    · rw [together]
      exact ha
    · have apart := separate.unit_ne hs hs' other together
      rw [device, device'] at apart
      rw [Link.memory?, Link.memory?, ← ha']
      exact confined.others apart
  · rw [List.getElem?_set_ne (Ne.symm together)] at ha'
    exact ⟨m, link?_eq_some_iff.2 ⟨slot', hs', device', ha'⟩, rfl, rfl⟩

/-! ## Patched pointers of a platform -/

/-- All patched pointers lie in mapped sections and hold their device values. -/
structure Patched (pl : Platform) : Prop where
  sound : pl.Sound
  loaded : pl.Loaded
  separate : pl.Separate
  roomy : ∀ slot ∈ pl.devices, slot.device.Roomy
  links : ∀ dev l, pl.link? dev = some l → l.Patched

theorem Fresh.patched (h : pl.Fresh) : pl.Patched := by
  have empty : ∀ slot ∈ pl.devices, ∃ id unit, slot.device = { id, unit } := by
    obtain ⟨config, accelerators, created, -⟩ := h
    obtain ⟨strategy, -, -, rfl⟩ := ofAccelerators_eq_ok created
    exact fun slot hs => device_of_mem_slots hs
  refine ⟨h.sound, h.loaded, h.separate, fun slot hs => ?_, fun dev l hl => ?_⟩
  · obtain ⟨id, unit, same⟩ := empty slot hs
    rw [same]
    exact ⟨fun _ hm => (nomatch hm), fun _ hm => (nomatch hm), fun _ hx => (nomatch hx)⟩
  · obtain ⟨slot, hs, device, -⟩ := link?_eq_some_iff.1 hl
    obtain ⟨id, unit, same⟩ := empty slot (List.mem_of_getElem? hs)
    rw [device] at same
    have mappings : ∀ m, m ∉ l.device.mappings := fun m hm => by
      rw [same] at hm
      cases hm
    have shadows : ∀ x, x ∉ l.device.shadows := fun x hx => by
      rw [same] at hx
      cases hx
    exact ⟨h.sound.link hl, ⟨fun m hm => absurd hm (mappings m), fun m hm => absurd hm (mappings m)⟩,
      fun x hx => absurd hx (shadows x), fun x hx => absurd hx (shadows x)⟩

theorem Patched.of_links (h : pl.Patched) (links : pl'.links = pl.links) : pl'.Patched := by
  obtain ⟨devices, accelerators⟩ := Prod.mk.inj links
  refine ⟨h.sound.of_same devices accelerators, ?_, ?_, ?_, fun dev l hl => ?_⟩
  · rw [Loaded, devices]
    exact h.loaded
  · rw [Separate, places_congr links]
    exact h.separate
  · rw [devices]
    exact h.roomy
  · exact h.links dev l (link?_congr links ▸ hl)

theorem roomy_link (h : ∀ slot ∈ pl.devices, slot.device.Roomy) (hl : pl.link? dev = some l) :
    l.device.Roomy := by
  obtain ⟨slot, hs, device, -⟩ := link?_eq_some_iff.1 hl
  exact device ▸ h slot (List.mem_of_getElem? hs)

namespace RanPhase

variable (ran : pl.RanPhase pl' dev s s') (h : pl.Patched)

include ran h

/-- The region starts with what the device had. -/
theorem patched_start : s.activation.link.Patched ∧ s.activation.link.device.Roomy := by
  obtain ⟨l, hl, prepared⟩ := ran.prepared
  have memories := congrArg Prod.fst prepared.memories
  have memory : s.activation.link.memory? = l.memory? := by
    rw [Link.memory?, Link.memory?, prepared.still.unit, Accelerator.memory?_congr memories]
  exact ⟨(h.links dev l hl).congr (ran.sound h.sound) prepared.still.mappings prepared.shadows memory,
    (roomy_link h.roomy hl).congr prepared.still.mappings prepared.shadows⟩

/-- What the region leaves on its device is all that the call changes. -/
theorem patched (sound : pl'.Sound) (loaded : pl'.Loaded)
    (roomy : ∀ slot ∈ pl'.devices, slot.device.Roomy)
    (left : s'.activation.link.Patched ∧ s.activation.link.Confined s'.activation.link) :
    pl'.Patched := by
  obtain ⟨patched, confined⟩ := left
  obtain ⟨l, hl, prepared⟩ := ran.prepared
  have memories := congrArg Prod.fst prepared.memories
  have confined : l.Confined s'.activation.link :=
    Lasting.trans (Link.Confined.of_memories prepared.still.unit memories) confined
  refine ⟨sound, loaded, ?_, roomy, fun d k hk => ?_⟩
  · rw [Separate, places_congr ran.links, places_setLink hl confined.unit]
    exact h.separate
  · by_cases here : d = dev
    · subst here
      rw [ran.link?, Option.some.injEq] at hk
      exact hk ▸ patched
    · have there := sound.link hk
      rw [link?_congr ran.links] at hk
      obtain ⟨n, hn, device, memory⟩ := link?_setLink_ne h.separate hl confined here hk
      refine (h.links d n hn).congr there ?_ ?_ memory
      · rw [device]
      · rw [device]

end RanPhase

/-! ## Runs -/

/-- The call maps, releases or refreshes sections and succeeds, or it writes to host memory. -/
def Succeeds (pl : Platform) : Call → Prop
  | .dataBegin id args => ∃ s, Returns (dataBegin id) ⟨pl, args⟩ () s
  | .dataEnd id args => ∃ s, Returns (dataEnd id) ⟨pl, args⟩ () s
  | .dataUpdate id args => ∃ n s, Returns (dataUpdate id) ⟨pl, args⟩ n s
  | .write .. => True
  | _ => False

/-- The call copies a section of the host over the pointer in the slot and does not patch the pointer
afterwards, or it cuts the pointer. -/
def Damages (pl : Platform) (dev : Nat) (c : Call) (slot : Nat) : Prop :=
  match c with
  | .dataBegin id args => ∃ s, pl.start? dev id args = some s ∧
      Smears pl.settings (placements pl.settings s) slot
  | .dataUpdate id args => ∃ s, pl.start? dev id args = some s ∧ ∃ t ∈ refreshes s, t.Cuts slot
  | _ => False

/-- The call succeeds and maps nothing implicitly. Afterwards sections and patched pointers are where they
may be, and the call damages none of these pointers. -/
structure Proper (pl : Platform) (c : Call) : Prop where
  succeeds : pl.Succeeds c
  explicit : c.Explicit
  roomy : ∀ slot ∈ (pl.perform c).devices, slot.device.Roomy
  clean : ∀ dev l, (pl.perform c).link? dev = some l →
    ∀ x ∈ l.device.shadows, ¬ pl.Damages dev c x.hostSlot

theorem Proper.free (h : pl.Proper c) : c.KernelFree := by
  cases c with
  | target | register => exact h.succeeds.elim
  | _ => trivial

/-- A call of one phase that returns has run its region, and the region has returned. -/
theorem start?_of_returns {α β : Type} {x : Settings → RegionM α} {f : α → CallM β} {b : β}
    {after : CallState} (loaded : pl.Loaded)
    (h : Returns (onPlatform (ready id) >>= fun d => inRegion d x >>= f) ⟨pl, args⟩ b after) :
    ∃ dev s a s', pl.start? dev id args = some s ∧ Returns (x pl.settings) s a s' := by
  obtain ⟨dev, _, hr, h⟩ := returns_bind.1 h
  obtain ⟨pl₁, ready, rfl⟩ := lifts_onPlatform.returns.1 hr
  obtain ⟨a, _, ran, -⟩ := returns_bind.1 h
  obtain ⟨k, s', hk, ran, -⟩ := returns_inRegion.1 ran
  obtain ⟨l₀, l₁, -, -, rfl⟩ := returns_ready ready fun _ => loaded.link
  rw [settings_setLink] at ran
  exact ⟨dev, _, a, s', start?_of_ready ready hk, ran⟩

/-- A proper call leaves all patched pointers with their device values. -/
theorem patched_perform (h : pl.Patched) (direct : pl.settings.config.translatesOnDevice = false)
    (proper : pl.Proper c) : (pl.perform c).Patched := by
  have sound := c.sound_perform h.sound
  have loaded := (perform_kept h.loaded proper.free).1
  cases c with
  | dataBegin id args =>
      obtain ⟨_, succeeds⟩ := proper.succeeds
      obtain ⟨dev, s, u, s', begun, entered⟩ := start?_of_returns h.loaded succeeds
      have ran := ranPhase_of_begun (c := .dataBegin id args) h.loaded trivial begun
      have after : Call.finish pl.settings s (.dataBegin id args) = s' := congrArg Prod.snd entered
      rw [after] at ran
      obtain ⟨patched, -⟩ := ran.patched_start h
      obtain ⟨_, _, -, -, rfl⟩ := start?_eq_some begun
      refine ran.patched h sound loaded proper.roomy
        (patched_enter patched rfl proper.explicit direct entered (roomy_link proper.roomy ran.link?) ?_)
      exact fun x hx smears => proper.clean dev _ ran.link? x hx ⟨_, begun, smears⟩
  | dataEnd id args =>
      obtain ⟨_, succeeds⟩ := proper.succeeds
      obtain ⟨dev, s, -, -, begun, -⟩ := start?_of_returns h.loaded succeeds
      have ran := ranPhase_of_begun (c := .dataEnd id args) h.loaded trivial begun
      obtain ⟨patched, roomy⟩ := ran.patched_start h
      exact ran.patched h sound loaded proper.roomy (patched_leave pl.settings patched roomy)
  | dataUpdate id args =>
      obtain ⟨n, _, succeeds⟩ := proper.succeeds
      obtain ⟨dev, s, n, s', begun, refreshed⟩ := start?_of_returns h.loaded succeeds
      have ran := ranPhase_of_begun (c := .dataUpdate id args) h.loaded trivial begun
      have after : Call.finish pl.settings s (.dataUpdate id args) = s' := congrArg Prod.snd refreshed
      rw [after] at ran
      obtain ⟨patched, roomy⟩ := ran.patched_start h
      refine ran.patched h sound loaded proper.roomy (patched_refresh patched roomy refreshed ?_)
      intro t ht x hx cuts
      rw [← (along_refresh.returns refreshed).link.extended.shadows] at hx
      exact proper.clean dev _ ran.link? x hx ⟨s, begun, t, ht, cuts⟩
  | write first content => exact h.of_links rfl
  | _ => exact proper.succeeds.elim

theorem patched_performAll (h : pl.Patched) (direct : pl.settings.config.translatesOnDevice = false)
    (proper : ∀ before c after, calls = before ++ c :: after → (pl.performAll before).Proper c) :
    (pl.performAll calls).Patched := by
  induction calls generalizing pl with
  | nil => exact h
  | cons c rest ih =>
      have first := proper [] c rest rfl
      obtain ⟨-, settings⟩ := perform_kept h.loaded first.free
      refine ih (patched_perform h direct first) (settings ▸ direct) fun before d after split => ?_
      exact proper (c :: before) d after (congrArg (c :: ·) split)

/-- In a run without kernels and without translation on devices, in which every call is proper, the copy
of every patched pointer holds its device value after every call. -/
theorem pointers_stay_patched {x : ShadowPointer} (fresh : pl.Fresh)
    (direct : pl.settings.config.translatesOnDevice = false)
    (proper : ∀ before c after, calls = before ++ c :: after → (pl.performAll before).Proper c)
    (hl : (pl.performAll calls).link? dev = some l) (hx : x ∈ l.device.shadows) :
    ∃ m, l.memory? = some m ∧ m.read x.deviceSlot Word.bytes = .ok (Word.toBytes x.deviceValue) :=
  ((patched_performAll fresh.patched direct proper).links dev l hl).read hx

/-- Sends the struct of `holderList` to the device. -/
def structList : ArgumentList := { arguments := [⟨64, 64, 32, .ofFlags [.toDevice]⟩] }

/-- The struct of `holderList` gets a pointer, is mapped, and is sent to the device again. -/
def sendingRun : List Call :=
  [.write 64 (Word.toBytes 128), .dataBegin 0 holderList, .dataUpdate 0 structList]

private def pointed : Platform := oneDevice.perform (.write 64 (Word.toBytes 128))

private def mapped : Platform := pointed.perform (.dataBegin 0 holderList)

private def sent : Platform := mapped.perform (.dataUpdate 0 structList)

private theorem layout_pointed : pointed.devices.map (·.device.layout) = [([], [])] := by cbv

private theorem layout_mapped : mapped.devices.map (·.device.layout) =
    [([(128, 144, 0xd00000000080), (64, 96, 0xd00000000000)], [64])] := by cbv

private theorem layout_sent : sent.devices.map (·.device.layout) =
    [([(128, 144, 0xd00000000080), (64, 96, 0xd00000000000)], [64])] := by cbv

private theorem entered_holderList : (exec (dataBegin 0) ⟨pointed, holderList⟩).1 = .ok () := by cbv

private theorem refreshed_struct : (exec (dataUpdate 0) ⟨mapped, structList⟩).1 = .ok 1 := by cbv

private theorem placed_holderList :
    (pointed.start? 0 0 holderList).map (fun s => (placements pointed.settings s).map fun p =>
      (p.first, p.size, p.pointer?.map (·.hostSlot))) = some [(64, 32, none), (128, 16, some 64)] := by
  cbv

private theorem turns_struct : (mapped.start? 0 0 structList).map
    (fun s => (refreshes s).map (·.region.start)) = some [64] := by cbv

private theorem roomy_sendingRun {pl : Platform} {layout : List (Nat × Nat × Nat) × List Nat}
    (h : pl.devices.map (·.device.layout) = [layout])
    (known : layout = ([], []) ∨
      layout = ([(128, 144, 0xd00000000080), (64, 96, 0xd00000000000)], [64])) :
    ∀ slot ∈ pl.devices, slot.device.Roomy := by
  intro slot hs
  have here : slot.device.layout ∈ pl.devices.map (·.device.layout) := List.mem_map_of_mem hs
  rw [h, List.mem_singleton] at here
  rcases known with rfl | rfl
  · exact Device.roomy_of_layout here (by decide) (by decide)
  · exact Device.roomy_of_layout here (by decide) (by decide)

/-- Where the patched pointers are in `sendingRun`. -/
private theorem slot_sendingRun {pl : Platform} {sections : List (Nat × Nat × Nat)} {dev : Nat}
    {l : Link} {x : ShadowPointer} (h : pl.devices.map (·.device.layout) = [(sections, [64])])
    (hl : pl.link? dev = some l) (hx : x ∈ l.device.shadows) : x.hostSlot = 64 := by
  obtain ⟨slot, hs, device, -⟩ := link?_eq_some_iff.1 hl
  have here : slot.device.layout ∈ pl.devices.map (·.device.layout) :=
    List.mem_map_of_mem (List.mem_of_getElem? hs)
  rw [h, List.mem_singleton, device] at here
  have held : x.hostSlot ∈ l.device.layout.2 := List.mem_map_of_mem hx
  rw [here] at held
  exact List.mem_singleton.1 held

/-- The pointer in the struct is patched after the struct was copied. -/
private theorem clean_holderList {dev : Nat} : ¬ pointed.Damages dev (.dataBegin 0 holderList) 64 := by
  rintro ⟨s, begun, earlier, p, later, split, copies, unpatched⟩
  obtain ⟨s', begun', placed⟩ := Option.map_eq_some_iff.1 placed_holderList
  obtain rfl := start?_unique begun begun'
  rw [begun, Option.some.injEq] at begun'
  subst begun'
  rw [split, List.map_append, List.map_cons] at placed
  rcases earlier with _ | ⟨_, earlier⟩
  · -- the pointer comes with the second placement
    obtain ⟨-, placed⟩ := List.cons.inj placed
    obtain ⟨q, rfl, view⟩ := List.map_eq_singleton_iff.1 placed
    simp only [Prod.mk.injEq, Option.map_eq_some_iff] at view
    obtain ⟨-, -, pointer⟩ := view
    refine unpatched q ?_ pointer
    cases pointed.settings.strategy with
    | immediate => exact List.mem_cons_of_mem _ (List.mem_singleton_self q)
    | bulk => exact List.mem_append_right _ (List.mem_cons_of_mem _ (List.mem_singleton_self q))
  · -- the second placement is not over the pointer
    have second : (p.first, p.size, p.pointer?.map (·.hostSlot)) ∈ [(128, 16, some 64)] := by
      rw [← (List.cons.inj placed).2]
      exact List.mem_append_right _ (List.mem_cons_self ..)
    simp only [List.mem_singleton, Prod.mk.injEq] at second
    obtain ⟨-, lower, -⟩ := copies
    rw [second.1] at lower
    exact absurd lower (by decide)

/-- The struct is sent from its beginning. -/
private theorem clean_structList {dev : Nat} : ¬ mapped.Damages dev (.dataUpdate 0 structList) 64 := by
  rintro ⟨s, begun, t, ht, -, cut, -⟩
  obtain ⟨s', begun', starts⟩ := Option.map_eq_some_iff.1 turns_struct
  obtain rfl := start?_unique begun begun'
  rw [begun, Option.some.injEq] at begun'
  subst begun'
  have start : t.region.start ∈ [64] := starts ▸ List.mem_map_of_mem ht
  rw [List.mem_singleton.1 start] at cut
  exact absurd cut (Nat.lt_irrefl 64)

private theorem explicit_holderList : holderList.Explicit := by
  refine ⟨fun a ha _ => ?_, fun _ hd => nomatch hd⟩
  rcases List.mem_cons.1 ha with rfl | ha
  · rfl
  · rw [List.mem_singleton.1 ha]
    decide

private theorem proper_holderList : pointed.Proper (.dataBegin 0 holderList) where
  succeeds := ⟨_, returns_of_ok entered_holderList⟩
  explicit := explicit_holderList
  roomy := roomy_sendingRun layout_mapped (.inr rfl)
  clean dev l hl x hx := by
    rw [slot_sendingRun layout_mapped hl hx]
    exact clean_holderList

private theorem proper_structList : mapped.Proper (.dataUpdate 0 structList) where
  succeeds := ⟨1, _, returns_of_ok refreshed_struct⟩
  explicit := trivial
  roomy := roomy_sendingRun layout_sent (.inr rfl)
  clean dev l hl x hx := by
    rw [slot_sendingRun layout_sent hl hx]
    exact clean_structList

private theorem proper_sendingRun : ∀ before c after, sendingRun = before ++ c :: after →
    (oneDevice.performAll before).Proper c
  | [], c, after, split => by
      simp only [sendingRun, List.nil_append, List.cons.injEq] at split
      obtain ⟨rfl, -⟩ := split
      exact ⟨trivial, trivial, roomy_sendingRun layout_pointed (.inl rfl), fun _ _ _ _ _ h => h⟩
  | [a], c, after, split => by
      simp only [sendingRun, List.cons_append, List.nil_append, List.cons.injEq] at split
      obtain ⟨rfl, rfl, -⟩ := split
      rw [performAll, List.foldl_cons, List.foldl_nil]
      exact proper_holderList
  | [a, b], c, after, split => by
      simp only [sendingRun, List.cons_append, List.nil_append, List.cons.injEq] at split
      obtain ⟨rfl, rfl, rfl, -⟩ := split
      rw [performAll, List.foldl_cons, List.foldl_cons, List.foldl_nil]
      exact proper_structList
  | a :: b :: d :: _, c, after, split => by simp [sendingRun] at split

theorem pointers_stay_patched_sendingRun :
    ∃ l, (oneDevice.performAll sendingRun).link? 0 = some l ∧ ∃ x ∈ l.device.shadows, x.hostSlot = 64 ∧
      ∃ m, l.memory? = some m ∧ m.read x.deviceSlot Word.bytes = .ok (Word.toBytes x.deviceValue) := by
  have found : ((oneDevice.performAll sendingRun).link? 0).map (fun l =>
      l.device.shadows.items.map (·.hostSlot)) = some [64] := by cbv
  obtain ⟨l, hl, slots⟩ := Option.map_eq_some_iff.1 found
  obtain ⟨x, only, slot⟩ := List.map_eq_singleton_iff.1 slots
  have hx : x ∈ l.device.shadows := AddressMap.mem_items.1 (only ▸ List.mem_singleton_self x)
  exact ⟨l, hl, x, hx, slot,
    pointers_stay_patched fresh_oneDevice rfl proper_sendingRun hl hx⟩

end Platform

end Offloading
