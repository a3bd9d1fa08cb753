import Offloading.Proofs.Loading
import Offloading.Proofs.SharedSections
import Offloading.Proofs.StrategyAgreement
/-!
# Getting a device ready

What a call does before it turns to its region. Whether libraries wait to be loaded or not, every device
keeps its mappings with their counts and device addresses. The global variables of waiting libraries may
be mapped besides, and constructors may run, but they map nothing.
-/

namespace Offloading

namespace Library

/-- None of the library's global variables has a byte in a section of the family. -/
def Misses (library : Library) (family : SectionFamily) : Prop :=
  ∀ g ∈ library.table.hostSymbols, g.isGlobal = true →
    ∀ s ∈ family, g.addr + g.size ≤ s.first ∨ s.stop ≤ g.addr

end Library

namespace Link

variable {l l' : Link} {family : SectionFamily}

/-- All mappings stay as they are while time passes, and no section of the family is mapped. -/
structure Advanced (family : SectionFamily) (l l' : Link) : Prop extends l.Aged l' where
  sound : l'.Sound
  keeps : ∀ m ∈ l.device.mappings, m ∈ l'.device.mappings
  misses : ∀ m ∈ l'.device.mappings, m ∈ l.device.mappings ∨ ∀ s ∈ family, m.Misses s

/-- A sound device stays sound and keeps its mappings. -/
def Advances (family : SectionFamily) (l l' : Link) : Prop := l.Sound → l.Advanced family l'

instance : Lasting (Advances family) where
  refl l sound := ⟨Lasting.refl l, sound, fun _ hm => hm, fun _ hm => .inl hm⟩
  trans h h' sound := by
    have first := h sound
    have second := h' first.sound
    refine ⟨Lasting.trans first.toAged second.toAged, second.sound,
      fun m hm => second.keeps m (first.keeps m hm), fun m hm => ?_⟩
    exact (second.misses m hm).elim (first.misses m) .inr

theorem advances_of_mappings (kept : Kept Sound l l') (aged : l.Aged l')
    (same : l'.device.mappings = l.device.mappings) : l.Advances family l' :=
  fun sound => ⟨aged, kept sound, fun _ hm => same ▸ hm, fun _ hm => .inl (same ▸ hm)⟩

theorem Still.advances (h : l.Still l') : l.Advances family l' :=
  advances_of_mappings h.sound h.aged h.mappings

theorem Moved.advances (h : l.Moved l') (aged : l.Aged l') : l.Advances family l' := by
  obtain ⟨_, _, device⟩ := h.device
  refine advances_of_mappings h.extended.toGrown.sound aged ?_
  rw [device]

/-- Every section of the family is held as often as before. -/
theorem Shares.advanced {listed : List HostSection} (h : l.Shares family listed)
    (advanced : l.Advanced family l') : l'.Shares family listed := by
  refine ⟨advanced.sound, fun s hs => ⟨fun none m hm => ?_, fun some => ?_⟩⟩
  · exact (advanced.misses m hm).elim ((h.hosts s hs).free none m) fun misses => misses s hs
  · obtain ⟨m, hm, own, count⟩ := (h.hosts s hs).held some
    exact ⟨m, advanced.keeps m hm, own, count⟩

end Link

namespace Device

open DeviceM

variable {first target size : Nat} {family : SectionFamily}

end Device

namespace Region

open RegionM

variable {settings : Settings} {s : RegionState} {entry : Nat} {kind : LaunchKind}
  {family : SectionFamily}

/-- A region without arguments launches its kernel and does nothing else. -/
theorem step_run_nil {R : Link → Link → Prop} {H : HostMemory → HostMemory → Prop} [Lasting R]
    [Lasting H] (launches : Launches R) (none : s.arguments = {}) (idle : s.activation.queue = {}) :
    Step R H s (exec (run settings entry kind) s).2 := by
  have freed : Along (Step R H) freeScratch := launches.freeScratch
  have launched : Along (Step R H) (do
      try
        stageAndLaunch settings entry kind
      catch e =>
        let _ ← freeScratch
        throw e) :=
    Along.tryCatch launches.stageAndLaunch fun _ => freed.bind fun _ => Along.throw
  rw [run, exec_bind_ok (exec_enter_nil none idle)]
  refine Along.bind_returns (R := Step R H) (launched s) fun _ s₁ h₁ => ?_
  refine Along.bind_returns (freed s₁) fun failure s₂ h₂ => ?_
  have still : s₂.arguments = {} := by
    rw [(freed.returns h₂).arguments, (launched.returns h₁).arguments, none]
  cases failure with
  | some e => exact Lasting.refl s₂
  | none =>
      have left : exec (leave settings) s₂ = (.ok (), s₂) := by
        rw [leave, exec_get_bind, still]
        rfl
      dsimp only
      rw [left]
      exact Lasting.refl s₂

end Region

namespace Platform

open CallM

variable {pl pl' : Platform} {dev d : Nat} {id : Int} {l l' k : Link} {family : SectionFamily}

/-- The libraries that wait to be loaded have no global variable where the sections lie. -/
def Clear (family : SectionFamily) (pl : Platform) : Prop :=
  ∀ library ∈ pl.libraries, library.Waits → library.Misses family

/-- All devices advanced under the same settings. -/
structure Advanced (family : SectionFamily) (pl pl' : Platform) : Prop where
  sound : pl'.Sound
  clear : pl'.Clear family
  settings : pl'.settings = pl.settings
  links : ∀ dev l', pl'.link? dev = some l' → ∃ l, pl.link? dev = some l ∧ l.Advances family l'

/-- All devices of a sound platform advance, if no waiting library is in the way. -/
def Advances (family : SectionFamily) (pl pl' : Platform) : Prop :=
  pl.Sound → pl.Clear family → pl.Advanced family pl'

instance : Lasting (Advances family) where
  refl _ sound clear := ⟨sound, clear, rfl, fun _ l' hl' => ⟨l', hl', Lasting.refl l'⟩⟩
  trans h h' sound clear := by
    have first := h sound clear
    have second := h' first.sound first.clear
    refine ⟨second.sound, second.clear, second.settings.trans first.settings, fun dev l'' hl'' => ?_⟩
    obtain ⟨l', hl', advances'⟩ := second.links dev l'' hl''
    obtain ⟨l, hl, advances⟩ := first.links dev l' hl'
    exact ⟨l, hl, Lasting.trans advances advances'⟩

/-- A call that works on one device leaves the tables of all others, and what happens to their memories
happens on the same accelerator. -/
theorem link?_setLink_other (hl : pl.link? dev = some l) (other : d ≠ dev)
    (hk : (pl.setLink dev l').link? d = some k) :
    ∃ n, pl.link? d = some n ∧ k.device = n.device ∧
      (k.accelerator = n.accelerator ∨
        (n.accelerator = l.accelerator ∧ k.accelerator = l'.accelerator)) := by
  obtain ⟨slot, hs, -, ha⟩ := link?_eq_some_iff.1 hl
  obtain ⟨slot', hs', device, ha'⟩ := link?_eq_some_iff.1 hk
  rw [setLink, hs] at hs' ha'
  rw [List.getElem?_set_ne (Ne.symm other)] at hs'
  by_cases together : slot'.accelerator = slot.accelerator
  · obtain ⟨lt, -⟩ := List.getElem?_eq_some_iff.1 ha
    rw [together, List.getElem?_set_self lt, Option.some.injEq] at ha'
    refine ⟨⟨k.device, l.accelerator⟩, link?_eq_some_iff.2 ⟨slot', hs', device, ?_⟩, rfl, .inr ⟨rfl, ?_⟩⟩
    · rw [together]
      exact ha
    · exact ha'.symm
  · rw [List.getElem?_set_ne (Ne.symm together)] at ha'
    exact ⟨k, link?_eq_some_iff.2 ⟨slot', hs', device, ha'⟩, rfl, .inl rfl⟩

section parts

variable {α : Type}

end parts

/-- A constructor's kernel is looked up, and then a region without arguments runs it. -/
theorem along_runConstructor_nil {R : Platform → Platform → Prop} [Lasting R] {hostAddr : Nat}
    (cached : ∀ pl entryCache, R pl { pl with entryCache })
    (region : ∀ pl l entry, pl.link? dev = some l →
      R pl (CallState.resume { platform := pl } dev (exec (Region.run pl.settings entry .single)
        (CallState.region { platform := pl } l)).2).platform) :
    Along R (runConstructor dev hostAddr) := by
  have : Lasting fun s s' : CallState => R s.platform s'.platform :=
    ⟨fun s => Lasting.refl s.platform, fun h h' => Lasting.trans (R := R) h h'⟩
  intro pl
  show R pl (exec (runRegion dev hostAddr .single) { platform := pl }).2.platform
  cases hl : pl.link? dev with
  | none =>
      rw [runRegion, exec_bind_error (CallM.exec_link_none (s := { platform := pl }) hl)]
      exact Lasting.refl pl
  | some l =>
      rw [runRegion, exec_bind_ok (CallM.exec_link (s := { platform := pl }) hl)]
      refine Along.bind_returns (R := fun s s' : CallState => R s.platform s'.platform)
        (s := { platform := pl }) ?_ fun entry s₁ h₁ => ?_
      · exact along_resolveEntry cached pl
      · obtain ⟨pl₁, -, rfl⟩ := lifts_onPlatform.returns.1 h₁
        cases hl₁ : pl₁.link? dev with
        | none =>
            rw [exec_inRegion_none (s := { platform := pl₁ }) hl₁]
            exact Lasting.refl pl₁
        | some l₁ =>
            rw [exec_inRegion (s := { platform := pl₁ }) hl₁]
            exact region pl₁ l₁ entry hl₁

end Platform

end Offloading
