import Mathlib
import Offloading.Proofs.Loading
import Offloading.Proofs.Reachable
/-!
# The entry cache

A host function that was looked up once is found in the cache from then on. Libraries come and go behind
the cache and are loaded on more devices, and still each lookup gives what it would give without the cache:
a cached entry always names the first library that declares the function.
-/

namespace Offloading

namespace SymbolTable

variable {t : SymbolTable} {hostAddr : Nat}

/-- Whether a host symbol lies at the address. -/
def declares (t : SymbolTable) (hostAddr : Nat) : Bool :=
  t.hostSymbols.any fun s => s.addr == hostAddr

/-- The position of the first host symbol at the address, if there is one. -/
def position (t : SymbolTable) (hostAddr : Nat) : Nat :=
  t.hostSymbols.findIdx fun s => s.addr == hostAddr

theorem position_lt (h : t.declares hostAddr = true) :
    t.position hostAddr < t.hostSymbols.length := by
  rw [declares, List.any_eq_true] at h
  exact List.findIdx_lt_length_of_exists h

theorem indexOf?_eq :
    t.indexOf? hostAddr = if t.declares hostAddr then some (t.position hostAddr) else none := by
  cases h : t.declares hostAddr with
  | true => exact List.findIdx?_eq_some_iff_findIdx_eq.2 ⟨position_lt h, rfl⟩
  | false => exact List.findIdx?_eq_none_iff.2 (by simpa [declares] using h)

/-- As many symbols are loaded on a device as the library declares. -/
def Matched (t : SymbolTable) : Prop :=
  ∀ device symbols, t.target? device = some symbols → symbols.length = t.hostSymbols.length

theorem matched_ofDescription (d : LibraryDescription) (numDevices : Nat) :
    (ofDescription d numDevices).Matched := by
  intro device symbols h
  have none : (ofDescription d numDevices).target? device = none := by
    simp [target?, ofDescription, List.getElem?_replicate]
    split <;> rfl
  rw [none] at h
  cases h

theorem Matched.load {device : Nat} {symbols : Image} (h : t.Matched)
    (length : symbols.length = t.hostSymbols.length) : (t.load device symbols).Matched := by
  intro device' symbols' h'
  simp only [target?, SymbolTable.load, List.getElem?_set] at h'
  split at h'
  · split at h'
    · cases h'
      exact length
    · cases h'
  · exact h device' symbols' h'

end SymbolTable

/-- The number of the library and the host symbols that it declares, which never change. -/
def Library.signature (l : Library) : Nat × List Symbol := (l.id, l.table.hostSymbols)

namespace Platform

variable {pl pl' pl'' : Platform} {dev device hostAddr : Nat} {slot : EntrySlot}
  {libraries libraries' : List Library}

/-- The address of the kernel for a host function on a device, looked up without the cache: in the first
library that declares the function, the symbol loaded at the first position where it does. -/
def uncachedEntry (libraries : List Library) (device hostAddr : Nat) : Except OffloadError Nat :=
  match libraries.find? fun l => l.table.declares hostAddr with
  | none => .error (.entryTableExhausted hostAddr)
  | some l =>
    match l.table.target? device with
    | none => .error (.entryTableExhausted hostAddr)
    | some symbols => .ok (symbols.getD (l.table.position hostAddr) default).addr

/-! ## Finding a host function -/

theorem findEntry?_eq :
    findEntry? hostAddr libraries =
      (libraries.find? fun l => l.table.declares hostAddr).map fun l =>
        ⟨l.id, l.table.position hostAddr⟩ := by
  induction libraries with
  | nil => rfl
  | cons l rest ih =>
      rw [ findEntry?, SymbolTable.indexOf?_eq, List.find?_cons]
      cases l.table.declares hostAddr with
      | true => rfl
      | false => simpa using ih

/-- A later library does not change what is found. -/
theorem findEntry?_append (h : findEntry? hostAddr libraries = some slot) :
    findEntry? hostAddr (libraries ++ libraries') = some slot := by
  rw [findEntry?_eq, List.find?_append, Option.map_or, ← findEntry?_eq, h]
  rfl

/-- Forgetting another library does not change what is found. -/
theorem findEntry?_filter {id : Nat} (h : findEntry? hostAddr libraries = some slot)
    (other : slot.library ≠ id) :
    findEntry? hostAddr (libraries.filter fun l => l.id != id) = some slot := by
  induction libraries with
  | nil => cases h
  | cons l rest ih =>
      rw [ findEntry?] at h
      cases found : l.table.indexOf? hostAddr with
      | some index =>
          rw [found] at h
          cases h
          rw [List.filter_cons_of_pos (by simpa using other), findEntry?, found]
      | none =>
          rw [found] at h
          rw [List.filter_cons]
          split
          · rw [ findEntry?, found]
            exact ih h
          · exact ih h

/-- What is found depends only on what the libraries declare. -/
theorem findEntry?_congr (h : libraries'.map Library.signature = libraries.map Library.signature) :
    findEntry? hostAddr libraries' = findEntry? hostAddr libraries := by
  have all : ∀ ls : List Library, findEntry? hostAddr ls =
      (ls.map Library.signature).findSome? fun sig =>
        (sig.2.findIdx? fun s => s.addr == hostAddr).map (EntrySlot.mk sig.1) := by
    intro ls
    induction ls with
    | nil => rfl
    | cons l rest ih =>
        have here : (l.signature.2.findIdx? fun s => s.addr == hostAddr) =
            l.table.indexOf? hostAddr := rfl
        rw [ findEntry?, List.map_cons, List.findSome?_cons, ih, here]
        cases l.table.indexOf? hostAddr with
        | some index => rfl
        | none => rfl
  rw [all, all, h]

/-! ## Coherence -/

/-- Every library has a number of its own, each one is loaded with all its symbols, and the cache agrees
with the libraries. -/
structure Coherent (pl : Platform) : Prop where
  ids : (pl.libraries.map Library.id).Pairwise (· < ·)
  bound : ∀ l ∈ pl.libraries, l.id < pl.nextLibrary
  matched : ∀ l ∈ pl.libraries, l.table.Matched
  cache : ∀ hostAddr slot, (hostAddr, slot) ∈ pl.entryCache →
    findEntry? hostAddr pl.libraries = some slot

theorem Coherent.of_entries (h : pl.Coherent) (same : pl'.entries = pl.entries) : pl'.Coherent := by
  simp only [entries, Prod.mk.injEq] at same
  obtain ⟨libraries, cache, next⟩ := same
  constructor
  · simpa [libraries] using h.ids
  · simpa [libraries, next] using h.bound
  · simpa [libraries] using h.matched
  · simpa [libraries, cache] using h.cache

theorem coherent_register (h : pl.Coherent) (d : LibraryDescription) :
    (pl.register d).2.Coherent where
  ids := by
    simp only [register, List.map_append, List.map_cons, List.map_nil, List.pairwise_append]
    refine ⟨h.ids, List.pairwise_singleton .., fun i hi j hj => ?_⟩
    obtain ⟨l, hl, rfl⟩ := List.mem_map.1 hi
    rw [List.mem_singleton.1 hj]
    exact h.bound l hl
  bound l hl := by
    rcases List.mem_append.1 hl with old | new
    · exact Nat.lt_succ_of_lt (h.bound l old)
    · rw [List.mem_singleton.1 new]
      exact Nat.lt_succ_self _
  matched l hl := by
    rcases List.mem_append.1 hl with old | new
    · exact h.matched l old
    · rw [List.mem_singleton.1 new]
      exact SymbolTable.matched_ofDescription d pl.listed
  cache hostAddr slot hs := findEntry?_append (h.cache hostAddr slot hs)

theorem coherent_unregister (h : pl.Coherent) (id : Nat) : (pl.unregister id).2.Coherent := by
  rw [unregister]
  split
  · constructor
    · exact h.ids.sublist (List.filter_sublist.map _)
    · exact fun l hl => h.bound l (List.mem_filter.1 hl).1
    · exact fun l hl => h.matched l ((List.mem_filter.1 hl).1)
    · intro hostAddr slot hs
      obtain ⟨old, other⟩ := List.mem_filter.1 hs
      exact findEntry?_filter (h.cache hostAddr slot old) (by simpa using other)
  · exact h

/-- Noting that a library is loaded changes nothing that it declares. -/
theorem coherent_load {position : Nat} {library : Library} {symbols : Image} (h : pl.Coherent)
    (at_ : pl.libraries[position]? = some library)
    (length : symbols.length = library.table.hostSymbols.length) :
    Coherent { pl with libraries := pl.libraries.set position (library.loadedOn device symbols) } := by
  have ids : (pl.libraries.set position (library.loadedOn device symbols)).map Library.id =
      pl.libraries.map Library.id := Accelerator.map_set_of_same at_ rfl
  have signatures : (pl.libraries.set position (library.loadedOn device symbols)).map
      Library.signature = pl.libraries.map Library.signature := Accelerator.map_set_of_same at_ rfl
  have mem := List.mem_of_getElem? at_
  constructor
  · rw [ids]
    exact h.ids
  · intro l hl
    rcases List.mem_or_eq_of_mem_set hl with old | rfl
    · exact h.bound l old
    · exact h.bound library mem
  · intro l hl
    rcases List.mem_or_eq_of_mem_set hl with old | rfl
    · exact h.matched l old
    · exact (h.matched library mem).load length
  · intro hostAddr slot hs
    rw [findEntry?_congr signatures]
    exact h.cache hostAddr slot hs

theorem Coherent.loading {n position : Nat} {r : Except OffloadError (List Nat)} (h : pl.Coherent)
    (hl : Loading n position pl pl' r) : pl'.Coherent := by
  cases hl with
  | skipped same => exact h.of_entries same
  | failed e same => exact h.of_entries same
  | loaded library symbols at_ waiting image length now =>
      exact (coherent_load h at_ length).of_entries now

theorem coherent_loadLibrary {position : Nat} :
    Along (Kept Coherent) (loadLibrary dev position) := by
  intro pl h
  cases hl : pl.link? dev with
  | some l => exact h.loading (loading_loadLibrary hl)
  | none =>
      rw [exec_loadLibrary_none hl]
      exact h

/-! ## Looking up -/

/-- What a lookup in the cache gives is what a search gives, and it leaves the libraries alone. -/
theorem exec_entrySlot (hostAddr : Nat) (h : pl.Coherent) :
    ∃ pl', pl'.Coherent ∧ pl'.libraries = pl.libraries ∧
      exec (entrySlot hostAddr) pl =
        (match findEntry? hostAddr pl.libraries with
          | some slot => .ok slot
          | none => .error (.entryTableExhausted hostAddr), pl') := by
  rw [entrySlot, exec_get_bind]
  cases cached : pl.entryCache.lookup hostAddr with
  | some slot =>
      obtain ⟨before, after, here, -⟩ := List.lookup_eq_some_iff.1 cached
      rw [h.cache hostAddr slot (by simp [here])]
      exact ⟨pl, h, rfl, rfl⟩
  | none =>
      cases found : findEntry? hostAddr pl.libraries with
      | none => exact ⟨pl, h, rfl, rfl⟩
      | some slot =>
          refine ⟨{ pl with entryCache := (hostAddr, slot) :: pl.entryCache }, ?_, rfl, rfl⟩
          refine ⟨h.ids, h.bound, h.matched, fun addr slot' hs => ?_⟩
          rcases List.mem_cons.1 hs with same | old
          · cases same
            exact found
          · exact h.cache addr slot' old

theorem find?_of_ids {l : Library} (ids : (libraries.map Library.id).Pairwise (· < ·))
    (hl : l ∈ libraries) : libraries.find? (fun l' => l'.id == l.id) = some l := by
  induction libraries with
  | nil => cases hl
  | cons l' rest ih =>
      rw [List.map_cons, List.pairwise_cons] at ids
      rcases List.mem_cons.1 hl with rfl | later
      · simp
      · have before : l'.id < l.id := ids.1 _ (List.mem_map_of_mem later)
        rw [List.find?_cons_of_neg (by simp; omega)]
        exact ih ids.2 later

/-- A lookup through a coherent cache gives what a lookup without it gives. -/
theorem Coherent.resolveEntry (h : pl.Coherent) :
    (exec (resolveEntry device hostAddr) pl).1 = uncachedEntry pl.libraries device hostAddr ∧
      (exec (resolveEntry device hostAddr) pl).2.Coherent := by
  obtain ⟨pl', coherent, same, run⟩ := exec_entrySlot hostAddr h
  rw [findEntry?_eq] at run
  rw [Platform.resolveEntry, uncachedEntry]
  cases found : pl.libraries.find? fun l => l.table.declares hostAddr with
  | none =>
      rw [found] at run
      rw [exec_bind_error run]
      exact ⟨rfl, coherent⟩
  | some l =>
      rw [found] at run
      rw [exec_bind_ok run, exec_get_bind, same]
      have declares : l.table.declares hostAddr = true := by
        simpa using List.find?_some found
      have mem : l ∈ pl.libraries := List.mem_of_find?_eq_some found
      dsimp only
      rw [find?_of_ids h.ids mem, Option.bind_some, SymbolTable.targetSymbol?]
      cases loaded : l.table.target? device with
      | none => exact ⟨rfl, coherent⟩
      | some symbols =>
          have inside : l.table.position hostAddr < symbols.length := by
            rw [h.matched l mem device symbols loaded]
            exact SymbolTable.position_lt declares
          dsimp only
          rw [Option.bind_some, List.getD_eq_getElem?_getD, List.getElem?_eq_getElem inside]
          exact ⟨rfl, coherent⟩

theorem coherent_checkReady {run : Nat → PlatformM Unit} (h : ∀ c, Along (Kept Coherent) (run c)) :
    Along (Kept Coherent) (checkReady dev run) := by
  apply along_checkReady
  · exact fun pl hp => hp.of_entries (entries_onDevice pl)
  · exact fun position => coherent_loadLibrary
  · exact fun pl log hp => hp.of_entries rfl
  · exact h
  · exact fun pl hp => hp.of_entries (entries_onDevice pl)

/-! ## Any use of the registry -/

/-- What may happen to a platform: libraries come and go, host functions are looked up, devices are
checked, which runs constructors that themselves use the platform, and anything else that leaves the
libraries and the cache alone. -/
inductive Uses : Platform → Platform → Prop where
  | register (pl : Platform) (d : LibraryDescription) : Uses pl (pl.register d).2
  | unregister (pl : Platform) (id : Nat) : Uses pl (pl.unregister id).2
  | check (pl : Platform) (dev : Nat) (run : Nat → PlatformM Unit)
      (constructors : ∀ c pl, Uses pl (exec (run c) pl).2) : Uses pl (exec (checkReady dev run) pl).2
  | resolve (pl : Platform) (device hostAddr : Nat) : Uses pl (exec (resolveEntry device hostAddr) pl).2
  | elsewhere (pl pl' : Platform) (same : pl'.entries = pl.entries) : Uses pl pl'
  | trans (pl pl' pl'' : Platform) (first : Uses pl pl') (second : Uses pl' pl'') : Uses pl pl''

theorem Uses.coherent (h : Uses pl pl') : pl.Coherent → pl'.Coherent := by
  induction h with
  | register pl d => exact fun h => coherent_register h d
  | unregister pl id => exact fun h => coherent_unregister h id
  | check pl dev run constructors ih => exact coherent_checkReady ih pl
  | resolve pl device hostAddr => exact fun h => h.resolveEntry.2
  | elsewhere pl pl' same => exact fun h => h.of_entries same
  | trans pl pl' pl'' first second ih ih' => exact fun h => ih' (ih h)

instance : Lasting Uses where
  refl pl := .elsewhere pl pl rfl
  trans h h' := .trans _ _ _ h h'

/-- The region of a constructor uses the platform in these ways. -/
theorem uses_runConstructor : Along Uses (runConstructor dev hostAddr) :=
  along_runConstructor (fun {pl pl'} same => .elsewhere pl pl' same)
    fun device pl => .resolve pl device hostAddr

/-- Preparing a device for a call uses the platform in these ways. -/
theorem uses_ready (id : Int) : Along Uses (ready id) :=
  (along_deviceIndex id).bind fun dev => Along.bind
    (fun pl => .check pl dev (runConstructor dev) fun _ => uses_runConstructor) fun _ => Along.pure

/-- However a platform without libraries was used, the kernel found for a host function is the one that a
lookup without a cache finds. -/
theorem resolveEntry_uncached (empty : pl.libraries = []) (uncached : pl.entryCache = [])
    (uses : Uses pl pl') (device hostAddr : Nat) :
    (exec (resolveEntry device hostAddr) pl').1 = uncachedEntry pl'.libraries device hostAddr := by
  have coherent : pl.Coherent := by
    constructor
    · simp [empty]
    · simp [empty]
    · simp [empty]
    · simp [uncached]
  exact (uses.coherent coherent).resolveEntry.1

/-- A library with a kernel at an address that others may declare too. -/
def sharedLibrary (images : List (Option Image)) : LibraryDescription where
  hostSymbols := [⟨"idle", 0x500, 0⟩]
  images := images

/-- A device with a kernel that does nothing. -/
def idleDevice : Platform :=
  { oneDevice with
    accelerators := [{ Accelerator.ofDevices 1 1024 with kernels := [⟨"idle", fun _ => pure ()⟩] }] }

/-- Two libraries declare the same kernel, and the first one has no image for the device. The kernel was
looked up in vain, and the first library was forgotten. -/
def twoLibraries : Platform :=
  let pl := (idleDevice.register (sharedLibrary [none])).2
  let pl := (pl.register (sharedLibrary [some [⟨"idle", 0, 0⟩]])).2
  let pl := (exec (ready 0) pl).2
  let pl := (exec (resolveEntry 0 0x500) pl).2
  (pl.unregister 0).2

/-- The kernel of the second library is found. -/
theorem resolveEntry_uncached_twoLibraries :
    (idleDevice.libraries = [] ∧ idleDevice.entryCache = [] ∧ Uses idleDevice twoLibraries) ∧
      (exec (resolveEntry 0 0x500) twoLibraries).1 = uncachedEntry twoLibraries.libraries 0 0x500 ∧
      (exec (resolveEntry 0 0x500) twoLibraries).1 = .ok 0xc00000000000 := by
  have uses : Uses idleDevice twoLibraries := by
    apply Uses.trans _ _ _ (Uses.register ..)
    apply Uses.trans _ _ _ (Uses.register ..)
    apply Uses.trans _ _ _ (uses_ready 0 _)
    apply Uses.trans _ _ _ (Uses.resolve ..)
    exact Uses.unregister ..
  have found : (exec (resolveEntry 0 0x500) twoLibraries).1 = .ok 0xc00000000000 := by cbv
  exact ⟨⟨rfl, rfl, uses⟩, resolveEntry_uncached rfl rfl uses 0 0x500, found⟩

end Platform

end Offloading
