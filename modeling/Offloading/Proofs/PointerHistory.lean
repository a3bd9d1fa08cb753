import Mathlib
import Offloading.Proofs.HostPointers
import Offloading.Proofs.KernelFree
import Offloading.Proofs.Recording
/-!
# Pointers through a run

A run of calls without kernels takes its turns on a device one after the other. From the call that
patches a pointer on, the device remembers what the host had in the slot, until the slot is patched
again, its mapping goes away, or a turn strays. So when the section around the slot is copied back, the
host gets its own pointer and not the address that the device works with.
-/

namespace Offloading

theorem Turn.keeps {settings : Settings} {t : Turn} {slot : Nat} (ran : Region.Ran settings t)
    (bound : slot < Word.greatest) (straight : ¬ t.Strays settings slot)
    (live : t.after.activation.link.device.mappings.Covers slot) (hs : t.link.Sound) :
    t.after.activation.link.Sound ∧ t.link.device.Keeps slot t.after.activation.link.device :=
  (t.retains ran bound straight hs).imp_right fun kept => (kept live).2

namespace Platform

open Region

variable {pl : Platform} {dev slot value : Nat} {c : Call} {calls : List Call} {t turn : Turn}
  {earlier later : List Turn}

/-- The turns of a call on a device. -/
def turns (pl : Platform) (dev : Nat) (c : Call) : List Turn :=
  match pl.begun? dev c, c with
  | some s, .dataEnd .. => releases pl.settings s
  | some s, .dataUpdate .. => refreshes s
  | _, _ => []

/-- The turns of calls on a device, in the order in which they are taken. -/
def history (pl : Platform) (dev : Nat) : List Call → List Turn
  | [] => []
  | c :: rest => pl.turns dev c ++ (pl.perform c).history dev rest

/-- The device remembers that the host had the value in the slot. -/
def Recalls (pl : Platform) (dev slot value : Nat) : Prop :=
  ∃ shadows, pl.shadows? dev = some shadows ∧
    ∃ x ∈ shadows, x.hostSlot = slot ∧ x.hostValue = value

/-- The call patches the pointer in the slot: it is a call that maps the pointer, and afterwards the
device remembers what the host has in the slot. -/
def Patches (pl : Platform) (dev : Nat) (c : Call) (slot : Nat) : Prop :=
  match c with
  | .dataBegin .. =>
    ∃ s, pl.begun? dev c = some s ∧ Points pl.settings s slot (pl.host.readPointer slot) ∧
      (pl.perform c).Recalls dev slot (pl.host.readPointer slot)
  | _ => False

/-- A call whose region is entered patches all pointers that it maps. -/
theorem patches_of_entered {id : Int} {l : ArgumentList} {s s' : RegionState} (sound : pl.Sound)
    (loaded : pl.Loaded) (direct : pl.settings.config.translatesOnDevice = false)
    (begun : pl.begun? dev (.dataBegin id l) = some s)
    (entered : Returns (enter pl.settings) s () s') (points : Points pl.settings s slot value) :
    pl.Patches dev (.dataBegin id l) slot := by
  have ran := ranPhase_of_begun (c := .dataBegin id l) loaded trivial begun
  have read : value = pl.host.readPointer slot := ran.host ▸ points.value
  have after : Call.finish pl.settings s (.dataBegin id l) = s' := congrArg Prod.snd entered
  obtain ⟨x, hx, same, held⟩ := recorded_enter (ran.sound sound) ran.idle direct entered points
  exact ⟨s, begun, read ▸ points, _, after ▸ ran.shadows', x, hx, same, held.trans read⟩

/-- The slot is mapped after the turn, and the turn did not stray. -/
def Spared (settings : Settings) (slot : Nat) (t : Turn) : Prop :=
  t.after.activation.link.device.mappings.Covers slot ∧ ¬ t.Strays settings slot

/-- A sound state stays sound, and what is remembered of the slot stays. -/
def Preserves (slot : Nat) (s s' : RegionState) : Prop :=
  s.activation.link.Sound → s'.activation.link.Sound ∧
    s.activation.link.device.Keeps slot s'.activation.link.device

instance : Lasting (Preserves slot) where
  refl _ hs := ⟨hs, Device.keeps_of_eq rfl⟩
  trans h h' hs := by
    obtain ⟨hs', kept⟩ := h hs
    obtain ⟨hs'', kept'⟩ := h' hs'
    exact ⟨hs'', fun x hx here => kept' x (kept x hx here) here⟩

theorem turned_of_spared {settings : Settings} (ran : Ran settings t) (bound : slot < Word.greatest)
    (spared : Spared settings slot t) : Turned (Preserves slot) t :=
  t.keeps ran bound spared.2 spared.1

/-- A call whose turns spare the slot, and that does not patch it, leaves what is remembered of it. -/
theorem recalls_perform (sound : pl.Sound) (loaded : pl.Loaded) (free : c.KernelFree)
    (bound : slot < Word.greatest) (recalls : pl.Recalls dev slot value)
    (last : ¬ pl.Patches dev c slot) (spared : ∀ t ∈ pl.turns dev c, Spared pl.settings slot t) :
    (pl.perform c).Recalls dev slot value := by
  obtain ⟨shadows, known, x, hx, rfl, rfl⟩ := recalls
  cases begun : pl.begun? dev c with
  | none => exact ⟨shadows, (shadows?_perform loaded free begun).trans known, x, hx, rfl, rfl⟩
  | some s =>
      have ran := ranPhase_of_begun loaded free begun
      rw [ran.shadows, Option.some.injEq] at known
      subst known
      have kept : ∀ s', Preserves x.hostSlot s s' → x ∈ s'.activation.link.device.shadows :=
        fun s' preserved => (preserved (ran.sound sound)).2 x hx rfl
      simp only [turns, begun] at spared
      -- only entering adds shadows, and it records what the call points at
      cases c with
      | dataBegin id l =>
          have recorded := records_enter pl.settings ran.idle
          obtain ⟨y, hy, same⟩ := recorded.kept x hx
          refine ⟨_, ran.shadows', y, hy, same, ?_⟩
          rcases recorded.shadows y hy with old | points
          · rw [AddressMap.eq_of_address_eq old hx same]
          · have read := points.value
            rw [same] at points read
            rw [ran.host] at read
            exact absurd ⟨s, begun, read ▸ points, _, ran.shadows', y, hy, same, read⟩ last
      | dataEnd id l =>
          refine ⟨_, ran.shadows', x, kept _ (along_leave_of_turns fun t ht => ?_), rfl, rfl⟩
          exact turned_of_spared (ran_of_mem_releases ht) bound (spared t ht)
      | dataUpdate id l =>
          refine ⟨_, ran.shadows', x, kept _ (along_refresh_of_turns fun t ht => ?_), rfl, rfl⟩
          exact turned_of_spared (ran_of_mem_refreshes ht) bound (spared t ht)
      | _ => cases begun

/-- When a turn of a call comes and the turns before spared the slot, it is still remembered. -/
theorem recalls_before (sound : pl.Sound) (loaded : pl.Loaded) (free : c.KernelFree)
    (bound : slot < Word.greatest) (recalls : pl.Recalls dev slot value)
    (h : pl.turns dev c = earlier ++ turn :: later)
    (spared : ∀ t ∈ earlier, Spared pl.settings slot t) :
    Ran pl.settings turn ∧
      ∃ x ∈ turn.link.device.shadows, x.hostSlot = slot ∧ x.hostValue = value := by
  obtain ⟨shadows, known, x, hx, rfl, rfl⟩ := recalls
  have member : turn ∈ pl.turns dev c := h ▸ by simp
  have first : ∀ {t}, t ∈ earlier → t ∈ pl.turns dev c := fun ht => h ▸ List.mem_append_left _ ht
  cases begun : pl.begun? dev c with
  | none =>
      simp only [turns, begun] at member
      cases member
  | some s =>
      have ran := ranPhase_of_begun loaded free begun
      rw [ran.shadows, Option.some.injEq] at known
      subst known
      have known : ∀ t : Turn, Preserves x.hostSlot s t.before → x ∈ t.link.device.shadows :=
        fun t preserved => (preserved (ran.sound sound)).2 x hx rfl
      cases c with
      | dataEnd id l =>
          simp only [turns, begun] at h member first
          have preserved := before_releases (R := Preserves x.hostSlot) h fun t ht =>
            turned_of_spared (ran_of_mem_releases (first ht)) bound (spared t ht)
          exact ⟨ran_of_mem_releases member, x, known turn preserved, rfl, rfl⟩
      | dataUpdate id l =>
          simp only [turns, begun] at h member first
          have preserved := before_refreshes (R := Preserves x.hostSlot) h fun t ht =>
            turned_of_spared (ran_of_mem_refreshes (first ht)) bound (spared t ht)
          exact ⟨ran_of_mem_refreshes member, x, known turn preserved, rfl, rfl⟩
      | _ =>
          simp only [turns, begun] at member
          cases member

/-- When a turn of a run comes, the turns before spared the slot and it was not patched meanwhile, it
is still remembered. -/
theorem recalls_history (sound : pl.Sound) (loaded : pl.Loaded) (free : ∀ c ∈ calls, c.KernelFree)
    (bound : slot < Word.greatest) (recalls : pl.Recalls dev slot value)
    (last : ∀ before c after, calls = before ++ c :: after →
      ¬ (pl.performAll before).Patches dev c slot)
    (h : pl.history dev calls = earlier ++ turn :: later)
    (spared : ∀ t ∈ earlier, Spared pl.settings slot t) :
    Ran pl.settings turn ∧
      ∃ x ∈ turn.link.device.shadows, x.hostSlot = slot ∧ x.hostValue = value := by
  induction calls generalizing pl earlier with
  | nil => exact absurd h (by simp [history])
  | cons c rest ih =>
      obtain ⟨first, others⟩ := List.forall_mem_cons.1 free
      rw [history] at h
      rcases append_cases h with ⟨_, here, -⟩ | ⟨between, rfl, there⟩
      · exact recalls_before sound loaded first bound recalls here spared
      · obtain ⟨spared, spared'⟩ := List.forall_mem_append.1 spared
        obtain ⟨loaded', settings⟩ := perform_kept loaded first
        have recalls' := recalls_perform sound loaded first bound recalls (last [] c rest rfl) spared
        rw [← settings] at spared' ⊢
        refine ih (c.sound_perform sound) loaded' others recalls' (fun before d after split => ?_)
          there spared'
        exact last (c :: before) d after (congrArg (c :: ·) split)

theorem performAll_kept (loaded : pl.Loaded) (free : ∀ c ∈ calls, c.KernelFree) :
    (pl.performAll calls).Loaded ∧ (pl.performAll calls).settings = pl.settings := by
  induction calls generalizing pl with
  | nil => exact ⟨loaded, rfl⟩
  | cons c rest ih =>
      obtain ⟨first, others⟩ := List.forall_mem_cons.1 free
      obtain ⟨loaded', settings⟩ := perform_kept loaded first
      obtain ⟨loaded'', settings'⟩ := ih loaded' others
      exact ⟨loaded'', settings'.trans settings⟩

/-- In a run without kernels and without translation on devices, let a call patch the pointer in a slot,
and no later call of the run. As long as the slot stays mapped and no turn strays, whenever a section
around the slot is copied from the device, the host finds its own pointer in the slot afterwards, unless
some other patched slot is too close. -/
theorem host_pointer_survives {before after : List Call} {first size : Nat} (fresh : pl.Fresh)
    (free : ∀ d ∈ before ++ c :: after, d.KernelFree)
    (direct : pl.settings.config.translatesOnDevice = false) (bound : slot < Word.greatest)
    (patched : (pl.performAll before).Patches dev c slot)
    (last : ∀ between d rest, after = between ++ d :: rest →
      ¬ (pl.performAll (before ++ c :: between)).Patches dev d slot)
    (h : (pl.performAll (before ++ [c])).history dev after = earlier ++ turn :: later)
    (spared : ∀ t ∈ earlier, Spared pl.settings slot t)
    (copies : turn.CopiesBack pl.settings first size)
    (inside : first ≤ slot ∧ slot + Word.bytes ≤ first + size)
    (alone : ∀ x ∈ turn.link.device.shadows, x.hostSlot ≠ slot →
      slot + Word.bytes ≤ x.hostSlot ∨ x.hostSlot + Word.bytes ≤ slot) :
    turn.after.host.read slot Word.bytes =
      Word.toBytes ((pl.performAll before).host.readPointer slot) := by
  have recalls : (pl.performAll (before ++ [c])).Recalls dev slot
      ((pl.performAll before).host.readPointer slot) := by
    rw [performAll, List.foldl_append]
    cases c with
    | dataBegin id l =>
        obtain ⟨s, -, -, recalls⟩ := patched
        exact recalls
    | _ => exact patched.elim
  have runs : ∀ calls, pl.performAll (before ++ c :: calls) =
      (pl.performAll (before ++ [c])).performAll calls := by
    intro calls
    rw [List.append_cons, performAll, List.foldl_append]
    rfl
  have first : ∀ d ∈ before ++ [c], d.KernelFree := fun d hd => free d (by
    rw [List.append_cons]
    exact List.mem_append_left _ hd)
  obtain ⟨loaded, settings⟩ := performAll_kept fresh.loaded first
  rw [← settings] at spared direct copies
  obtain ⟨ran, x, hx, rfl, value⟩ := recalls_history (sound_performAll fresh.sound) loaded
    (fun d hd => free d (by simp [hd])) bound recalls
    (fun between d rest split => runs between ▸ last between d rest split) h spared
  rw [← value]
  exact turn.host_after ran direct copies hx inside fun y hy other =>
    alone y hy fun same => other (AddressMap.eq_of_address_eq hy hx same)

/-- The struct of `holderList` gets a pointer and is mapped. -/
def patchingRun : List Call := [.write 64 (Word.toBytes 128), .dataBegin 0 holderList]

/-- Refreshes the struct of `holderList` on the host. -/
def refreshHolder : Call := .dataUpdate 0 { arguments := [⟨64, 64, 32, .ofFlags [.fromDevice]⟩] }

theorem host_pointer_survives_refreshHolder :
    ∃ turn, (oneDevice.performAll patchingRun).history 0 [refreshHolder] = [turn] ∧
      turn.CopiesBack oneDevice.settings 64 32 ∧
      turn.after.host.read 64 Word.bytes = Word.toBytes 128 := by
  let pl := oneDevice.performAll [.write 64 (Word.toBytes 128)]
  have taken : ((oneDevice.performAll patchingRun).history 0 [refreshHolder]).map (fun t =>
        ((t.kind, t.region), t.link.device.translate? 64 32,
          (exec (Device.retrieve 0xd00000000000 32) t.link).1.toOption.isSome,
          t.link.device.shadows.items.map (·.hostSlot))) =
      [((.refresh, ⟨64, 64, 32, .ofFlags [.fromDevice]⟩), some 0xd00000000000, true, [64])] := by
    cbv
  have mapped : (pl.begun? 0 (.dataBegin 0 holderList)).map (fun s =>
        ((placements pl.settings s).map fun p => (p.pointer?.map (·.hostSlot), p.base),
          (exec (enter pl.settings) s).1)) =
      some ([(none, 64), (some 64, 128)], .ok ()) := by
    cbv
  have pointer : pl.host.readPointer 64 = 128 := by cbv
  obtain ⟨turn, only, view⟩ := List.map_eq_singleton_iff.1 taken
  simp only [Prod.mk.injEq] at view
  obtain ⟨⟨kind, region⟩, found, retrieved, slots⟩ := view
  have copies : turn.CopiesBack oneDevice.settings 64 32 := by
    rw [Turn.CopiesBack, kind, region]
    rcases hr : exec (Device.retrieve 0xd00000000000 32) turn.link with ⟨e | content, l⟩
    · rw [hr] at retrieved
      cases retrieved
    · exact ⟨rfl, rfl, rfl, _, content, l, found, hr⟩
  have patched : pl.Patches 0 (.dataBegin 0 holderList) 64 := by
    obtain ⟨s, begun, view⟩ := Option.map_eq_some_iff.1 mapped
    obtain ⟨placed, entered⟩ := Prod.mk.inj view
    have second : ((some 64, 128) : Option Nat × Nat) ∈ [(none, 64), (some 64, 128)] := by simp
    rw [← placed] at second
    obtain ⟨p, hp, value⟩ := List.mem_map.1 second
    obtain ⟨slot, base⟩ := Prod.mk.inj value
    obtain ⟨q, hq, slot⟩ := Option.map_eq_some_iff.1 slot
    have free : ∀ c ∈ [Call.write 64 (Word.toBytes 128)], c.KernelFree := by simp [Call.KernelFree]
    exact patches_of_entered (sound_performAll fresh_oneDevice.sound)
      (performAll_kept fresh_oneDevice.loaded free).1 rfl begun (returns_of_ok entered)
      ⟨p, hp, q, hq, slot, base⟩
  refine ⟨turn, only, copies, ?_⟩
  rw [← pointer]
  have free : ∀ d ∈ [Call.write 64 (Word.toBytes 128), .dataBegin 0 holderList, refreshHolder],
      d.KernelFree := by simp [Call.KernelFree, refreshHolder]
  have last : ∀ between d rest, [refreshHolder] = between ++ d :: rest →
      ¬ (oneDevice.performAll ([.write 64 (Word.toBytes 128)] ++
        .dataBegin 0 holderList :: between)).Patches 0 d 64 := by
    intro between d rest split
    obtain rfl : refreshHolder = d := by
      rcases between with _ | ⟨_, between⟩
      · exact (List.cons.inj split).1
      · simp at split
    exact id
  have taken : (oneDevice.performAll ([.write 64 (Word.toBytes 128)] ++
      [.dataBegin 0 holderList])).history 0 [refreshHolder] = [] ++ turn :: [] := only
  refine host_pointer_survives fresh_oneDevice free rfl (by decide) patched last taken
    (fun _ h => absurd h List.not_mem_nil) copies (by decide) fun x hx other => absurd ?_ other
  have slot : x.hostSlot ∈ turn.link.device.shadows.items.map (·.hostSlot) := List.mem_map_of_mem hx
  rw [slots] at slot
  exact List.mem_singleton.1 slot

/-- User memory is associated with a section, a pointer in the section is patched, the section is
deleted, which the association survives, and then refreshed. The deleting turn strays. -/
def strayingRun : List Call :=
  let whole (flags : List MapFlag) : ArgumentList :=
    { arguments := [⟨0x10000100, 0x10000100, 32, .ofFlags flags⟩] }
  [.write 0x10000100 (Word.toBytes 0x10000200), .allocate 0 0 32,
    .associate 0 0x10000100 0xd00000000000 32,
    .dataBegin 0
      { arguments := [⟨0x10000100, 0x10000200, 8, .ofFlags [.toDevice, .pointerAndObject]⟩] },
    .dataEnd 0 (whole [.delete]), .dataUpdate 0 (whole [.fromDevice])]

/-- After a turn that strays the host gets the device address. -/
example : (oneDevice.performAll strayingRun).host.readPointer 0x10000100 = 0xd00000000080 := by cbv

end Platform

end Offloading
