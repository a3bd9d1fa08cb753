import Offloading.Proofs.Calls
/-!
# Loading libraries

What a call does to the registered libraries when it prepares its device. Loading one library either
leaves all of them as they are or notes at one position that the library is loaded, with as many symbols
as it declares. Everything else that a device does leaves the libraries alone.
-/

namespace Offloading

/-- The library, loaded on a device with the given symbols. -/
def Library.loadedOn (l : Library) (device : Nat) (symbols : Image) : Library :=
  { l with table := l.table.load device symbols }

/-- Some device has not loaded its image of the library. -/
def Library.Waits (l : Library) : Prop :=
  ∃ device, l.table.isLoaded device = false ∧ (l.table.image? device).isSome

namespace Platform

variable {pl pl' : Platform} {dev d n position hostAddr : Nat} {l l' : Link}

/-- The libraries, what is cached of them, and the number of the next one. -/
def entries (pl : Platform) : List Library × List (Nat × EntrySlot) × Nat :=
  (pl.libraries, pl.entryCache, pl.nextLibrary)

/-- The number of the device at a position. -/
def number? (pl : Platform) (dev : Nat) : Option Nat := (pl.link? dev).map fun l => l.device.id

theorem number?_of_link? (hl : pl.link? dev = some l) : pl.number? dev = some l.device.id := by
  rw [number?, hl, Option.map_some]

@[simp] theorem entries_setLink : (pl.setLink dev l').entries = pl.entries := by
  unfold setLink
  split
  · rfl
  · rfl

/-! ## What leaves the libraries alone -/

section devices

variable {α : Type}

theorem entries_onDevice {x : DeviceM α} : Along (Fixed entries) (onDevice dev x) :=
  along_onDevice fun _ _ _ => entries_setLink

theorem number_onDevice {x : DeviceM α} (hx : Along (Fixed fun l : Link => l.device.id) x) :
    Along (Fixed fun pl : Platform => pl.number? dev) (onDevice dev x) := by
  refine along_onDevice fun pl l hl => ?_
  show number? _ dev = number? _ dev
  rw [number?_of_link? (link?_setLink hl), number?_of_link? hl]
  exact congrArg some (hx l)

theorem number_onAccelerator {wrap : AcceleratorError → OffloadError} {x : AcceleratorM α} :
    Along (Fixed fun pl : Platform => pl.number? dev) (onAccelerator dev wrap x) := by
  refine along_link_bind fun pl l hl => ?_
  refine Along.bind_at (R := Fixed fun pl : Platform => pl.number? dev) (x := modify _) ?_ fun _ => ?_
  · show (pl.setLink dev _).number? dev = pl.number? dev
    rw [number?_of_link? (link?_setLink hl), number?_of_link? hl]
  · split
    · exact Along.pure
    · exact Along.throw

end devices

theorem number_mapGlobal {first target size : Nat} :
    Along (Fixed fun l : Link => l.device.id) (Device.mapGlobal first target size) := by
  refine Device.along_device_bind fun l => ?_
  refine Along.ite (R := Fixed fun l : Link => l.device.id) Along.pure ?_ l
  refine Along.bind (Device.along_device_bind fun l => ?_) fun _ => Along.pure
  refine Along.bind_at (R := Fixed fun l : Link => l.device.id) (x := modify _) rfl fun _ => ?_
  split
  · exact Along.pure
  · exact Along.throw

/-- What mapping global variables keeps. -/
theorem along_mapGlobals {R : Platform → Platform → Prop} [Lasting R]
    {symbols : List (Symbol × Symbol)}
    (h : ∀ pair ∈ symbols, pair.1.isGlobal = true →
      Along R (onDevice dev (Device.mapGlobal pair.1.addr pair.2.addr pair.1.size))) :
    Along R (mapGlobals dev symbols) := by
  induction symbols with
  | nil => exact Along.pure
  | cons pair rest ih =>
      have later := ih fun other mem => h other (List.mem_cons_of_mem _ mem)
      rw [mapGlobals]
      split
      · rename_i isGlobal
        exact (h pair (List.mem_cons_self ..) isGlobal).bind fun _ => later
      · exact later

theorem entries_mapGlobals (symbols : List (Symbol × Symbol)) :
    Along (Fixed entries) (mapGlobals dev symbols) :=
  along_mapGlobals fun _ _ _ => entries_onDevice

theorem number_prepare : Along (Fixed fun pl : Platform => pl.number? dev) (onDevice dev Device.prepare) :=
  number_onDevice (Device.along_prepare.mono fun h => h.still.id)

/-! ## Loading one library -/

/-- How loading the library at a position on the device of number `n` ends. -/
inductive Loading (n position : Nat) (pl pl' : Platform) : Except OffloadError (List Nat) → Prop where
  /-- There is nothing to load. -/
  | skipped (same : pl'.entries = pl.entries) : Loading n position pl pl' (.ok [])
  /-- Loading failed. -/
  | failed (e : OffloadError) (same : pl'.entries = pl.entries) : Loading n position pl pl' (.error e)
  /-- The library is loaded now. -/
  | loaded (library : Library) (symbols : Image) (at_ : pl.libraries[position]? = some library)
      (waiting : library.table.isLoaded n = false) (image : (library.table.image? n).isSome)
      (length : symbols.length = library.table.hostSymbols.length)
      (now : pl'.entries =
        (pl.libraries.set position (library.loadedOn n symbols), pl.entryCache, pl.nextLibrary)) :
      Loading n position pl pl' (.ok library.constructors)

/-- The library at a position waits to be loaded on the device of number `n`, which has this image of it. -/
structure Due (pl : Platform) (position n : Nat) (library : Library) (image : Image) : Prop where
  at_ : pl.libraries[position]? = some library
  waiting : library.table.isLoaded n = false
  image : library.table.image? n = some image

/-- What loading the library at a position on a device did, up to where it ended. -/
inductive LoadRun (dev position : Nat) (l : Link) (pl : Platform) :
    Except OffloadError (List Nat) → Platform → Prop where
  /-- There is nothing to load. -/
  | skipped : LoadRun dev position l pl (.ok []) pl
  /-- The accelerator could not load the image. -/
  | refused (library : Library) (image : Image) (a : Accelerator) (e : AcceleratorError)
      (due : pl.Due position l.device.id library image)
      (ran : exec (Accelerator.load l.device.unit image) l.accelerator = (.error e, a)) :
      LoadRun dev position l pl (.error (.deviceNotReady l.device.id (.loadFailed e)))
        (pl.setLink dev { l with accelerator := a })
  /-- The image has more or fewer symbols than the library. -/
  | miscounted (library : Library) (image symbols : Image) (a : Accelerator)
      (due : pl.Due position l.device.id library image)
      (ran : Returns (Accelerator.load l.device.unit image) l.accelerator symbols a)
      (length : symbols.length ≠ library.table.hostSymbols.length) :
      LoadRun dev position l pl
        (.error (.deviceNotReady l.device.id
          (.symbolCount symbols.length library.table.hostSymbols.length)))
        (pl.setLink dev { l with accelerator := a })
  /-- A global variable could not be mapped. -/
  | unmapped (library : Library) (image symbols : Image) (a : Accelerator) (e : OffloadError)
      (pl' : Platform) (due : pl.Due position l.device.id library image)
      (ran : Returns (Accelerator.load l.device.unit image) l.accelerator symbols a)
      (length : symbols.length = library.table.hostSymbols.length)
      (mapped : exec (mapGlobals dev (library.table.hostSymbols.zip symbols))
        (pl.setLink dev { l with accelerator := a }) = (.error e, pl')) :
      LoadRun dev position l pl (.error e) pl'
  /-- The library is loaded now. -/
  | loaded (library : Library) (image symbols : Image) (a : Accelerator) (pl' : Platform)
      (due : pl.Due position l.device.id library image)
      (ran : Returns (Accelerator.load l.device.unit image) l.accelerator symbols a)
      (length : symbols.length = library.table.hostSymbols.length)
      (mapped : Returns (mapGlobals dev (library.table.hostSymbols.zip symbols))
        (pl.setLink dev { l with accelerator := a }) () pl') :
      LoadRun dev position l pl (.ok library.constructors)
        { pl' with libraries := pl'.libraries.set position (library.loadedOn l.device.id symbols) }

theorem Due.waits {library : Library} {image : Image} (h : pl.Due position n library image) :
    library.Waits := ⟨n, h.waiting, Option.isSome_of_eq_some h.image⟩

theorem exec_onAccelerator {α : Type} {wrap : AcceleratorError → OffloadError} {x : AcceleratorM α}
    (hl : pl.link? dev = some l) :
    exec (onAccelerator dev wrap x) pl =
      ((exec x l.accelerator).1.mapError wrap,
        pl.setLink dev { l with accelerator := (exec x l.accelerator).2 }) := by
  rw [onAccelerator, exec_bind_ok (exec_link hl)]
  rcases hx : exec x l.accelerator with ⟨e | v, a⟩
  · have run : StateT.run (ExceptT.run x) l.accelerator = (.error e, a) := hx
    rw [run]
    rfl
  · have run : StateT.run (ExceptT.run x) l.accelerator = (.ok v, a) := hx
    rw [run]
    rfl

theorem loadRun_loadLibrary (hl : pl.link? dev = some l) :
    LoadRun dev position l pl (exec (loadLibrary dev position) pl).1
      (exec (loadLibrary dev position) pl).2 := by
  rw [loadLibrary, exec_bind_ok (exec_link hl)]
  dsimp only
  rw [exec_get_bind]
  cases at_ : pl.libraries[position]? with
  | none => exact .skipped
  | some library =>
      dsimp only
      cases waiting : library.table.isLoaded l.device.id with
      | true => exact .skipped
      | false =>
          cases image : library.table.image? l.device.id with
          | none => exact .skipped
          | some image' =>
              have due : pl.Due position l.device.id library image' := ⟨at_, waiting, image⟩
              rw [if_neg Bool.false_ne_true]
              dsimp only
              rw [exec_bind, exec_onAccelerator hl]
              rcases ran : exec (Accelerator.load l.device.unit image') l.accelerator with ⟨e | symbols, a⟩
              · exact .refused library image' a e due ran
              · dsimp only [Except.mapError]
                by_cases length : symbols.length = library.table.hostSymbols.length
                · rw [if_neg (not_not_intro length), exec_bind]
                  rcases mapped : exec (mapGlobals dev (library.table.hostSymbols.zip symbols))
                    (pl.setLink dev { l with accelerator := a }) with ⟨e | _, pl'⟩
                  · exact .unmapped library image' symbols a e pl' due ran length mapped
                  · exact .loaded library image' symbols a pl' due ran length mapped
                · rw [if_pos length]
                  exact .miscounted library image' symbols a due ran length

theorem loading_loadLibrary (hl : pl.link? dev = some l) :
    Loading l.device.id position pl (exec (loadLibrary dev position) pl).2
      (exec (loadLibrary dev position) pl).1 := by
  have run : LoadRun dev position l pl _ _ := loadRun_loadLibrary hl
  have mapped : ∀ a symbols, (exec (mapGlobals dev symbols)
      (pl.setLink dev { l with accelerator := a })).2.entries = pl.entries := fun a symbols =>
    Eq.trans (entries_mapGlobals symbols _) entries_setLink
  generalize (exec (loadLibrary dev position) pl).1 = r at run ⊢
  generalize (exec (loadLibrary dev position) pl).2 = pl₁ at run ⊢
  cases run with
  | skipped => exact .skipped rfl
  | refused library image a e due ran => exact .failed _ entries_setLink
  | miscounted library image symbols a due ran length => exact .failed _ entries_setLink
  | unmapped library image symbols a e pl' due ran length failed =>
      have same := mapped a (library.table.hostSymbols.zip symbols)
      rw [failed] at same
      exact .failed e same
  | loaded library image symbols a pl' due ran length done =>
      have same := mapped a (library.table.hostSymbols.zip symbols)
      rw [done] at same
      simp only [entries, Prod.mk.injEq] at same
      obtain ⟨libraries, cache, next⟩ := same
      refine .loaded library symbols due.at_ due.waiting (Option.isSome_of_eq_some due.image) length ?_
      show (pl'.libraries.set position (library.loadedOn l.device.id symbols), pl'.entryCache,
        pl'.nextLibrary) = _
      rw [libraries, cache, next]

theorem exec_loadLibrary_none (hl : pl.link? dev = none) :
    exec (loadLibrary dev position) pl =
      (.error (.deviceNotReady dev (.onlyDevices pl.listed)), pl) := by
  rw [loadLibrary, exec_bind_error (exec_link_none hl)]

/-- Loading a library does what its parts do: load the image, map the global variables of a library that
waits to be loaded, and note that it is loaded. -/
theorem loadLibrary_at {R : Platform → Platform → Prop} [Lasting R]
    (load : ∀ l wrap image, pl.link? dev = some l →
      R pl (exec (onAccelerator dev wrap (Accelerator.load l.device.unit image)) pl).2)
    (mapGlobal : ∀ library ∈ pl.libraries, library.Waits →
      ∀ g ∈ library.table.hostSymbols, g.isGlobal = true →
        ∀ target, Along R (onDevice dev (Device.mapGlobal g.addr target g.size)))
    (noted : ∀ library ∈ pl.libraries, library.Waits → ∀ pl' n symbols,
      R pl' { pl' with libraries := pl'.libraries.set position (library.loadedOn n symbols) }) :
    R pl (exec (loadLibrary dev position) pl).2 := by
  cases hl : pl.link? dev with
  | none =>
      rw [exec_loadLibrary_none hl]
      exact Lasting.refl pl
  | some l =>
      have run : LoadRun dev position l pl _ _ := loadRun_loadLibrary hl
      have started : ∀ {image r a}, exec (Accelerator.load l.device.unit image) l.accelerator = (r, a) →
          R pl (pl.setLink dev { l with accelerator := a }) := by
        intro image r a ran
        have := load l (fun e => .deviceNotReady l.device.id (.loadFailed e)) image hl
        rwa [exec_onAccelerator hl, ran] at this
      have mapped : ∀ {library image}, pl.Due position l.device.id library image → ∀ symbols,
          Along R (mapGlobals dev (library.table.hostSymbols.zip symbols)) := fun due _ =>
        along_mapGlobals fun pair hp isGlobal =>
          mapGlobal _ (List.mem_of_getElem? due.at_) due.waits pair.1 (List.of_mem_zip hp).1 isGlobal _
      generalize (exec (loadLibrary dev position) pl).1 = r at run
      generalize (exec (loadLibrary dev position) pl).2 = pl₁ at run ⊢
      cases run with
      | skipped => exact Lasting.refl pl
      | refused library image a e due ran => exact started ran
      | miscounted library image symbols a due ran length => exact started ran
      | unmapped library image symbols a e pl' due ran length failed =>
          have moved := mapped due symbols (pl.setLink dev { l with accelerator := a })
          rw [failed] at moved
          exact Lasting.trans (started ran) moved
      | loaded library image symbols a pl' due ran length done =>
          have moved := (mapped due symbols).returns done
          exact Lasting.trans (started ran) (Lasting.trans moved
            (noted library (List.mem_of_getElem? due.at_) due.waits pl' _ symbols))

theorem number_loadLibrary : Along (Fixed fun pl : Platform => pl.number? dev) (loadLibrary dev position) :=
  fun pl => loadLibrary_at (fun _ _ _ _ => number_onAccelerator pl)
    (fun _ _ _ _ _ _ _ => number_onDevice number_mapGlobal) fun _ _ _ _ _ _ => rfl

/-! ## Checking a device -/

variable {R : Platform → Platform → Prop} [Lasting R] {run : Nat → PlatformM Unit}

theorem along_loadLibraries (h : ∀ position, Along R (loadLibrary dev position))
    (positions : List Nat) : Along R (loadLibraries dev positions) := by
  induction positions with
  | nil => exact Along.pure
  | cons position rest ih => exact (h position).bind fun _ => ih.bind fun _ => Along.pure

theorem along_runConstructors (logged : ∀ pl log, R pl { pl with constructorLog := log })
    (h : ∀ c, Along R (run c)) (constructors : List Nat) :
    Along R (runConstructors run constructors) := by
  induction constructors with
  | nil => exact Along.pure
  | cons c rest ih =>
      refine Along.bind ?_ fun _ => (h c).bind fun _ => ih
      exact Along.modify fun pl => logged pl _

/-- A check of a device does what its parts do: prepare the device, load libraries, start constructors
and run them, and clear the flag. -/
theorem along_checkReady (prepare : Along R (onDevice dev Device.prepare))
    (load : ∀ position, Along R (loadLibrary dev position))
    (logged : ∀ pl log, R pl { pl with constructorLog := log }) (h : ∀ c, Along R (run c))
    (clear : Along R (onDevice dev (DeviceM.modifyDevice fun d => { d with pending := false }))) :
    Along R (checkReady dev run) := by
  refine prepare.bind fun _ => along_link_bind fun pl l _ => Along.ite ?_ Along.pure pl
  refine Along.get.bind fun s => (along_loadLibraries load _).bind fun constructors => ?_
  exact (along_runConstructors logged h constructors).bind fun _ => clear

/-- A constructor's kernel is looked up, and its region leaves the libraries alone. -/
theorem along_runConstructor (region : ∀ {pl pl'}, pl'.entries = pl.entries → R pl pl')
    (resolve : ∀ device, Along R (resolveEntry device hostAddr)) :
    Along R (runConstructor dev hostAddr) := by
  intro pl
  have : Lasting fun s s' : CallState => R s.platform s'.platform :=
    ⟨fun s => Lasting.refl s.platform, fun h h' => Lasting.trans (R := R) h h'⟩
  have ran : Along (fun s s' : CallState => R s.platform s'.platform)
      (CallM.runRegion dev hostAddr .single) := by
    refine CallM.along_link_bind fun s l _ =>
      Along.bind (R := fun s s' : CallState => R s.platform s'.platform) ?_ (fun entry => ?_) s
    · exact CallM.lifts_onPlatform.along (resolve l.device.id) fun _ _ h => h
    · exact CallM.along_inRegion fun s l _ => region entries_setLink
  exact ran { platform := pl }

end Platform

end Offloading
