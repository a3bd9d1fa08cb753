import Offloading.Proofs.Constructors
import Offloading.Proofs.GlobalBlocks
import Offloading.Proofs.Moves
/-!
# Attempts to load libraries

A check of a device tries to load the libraries that wait, one after the other, until one fails, and the
next check tries again. A library that is loaded has all the blocks that its attempt was given. An attempt
that fails leaves the blocks that it was given so far, and the next one is given new ones.
-/

namespace Offloading

/-- Where the library's global variables lie on the device of number `n`, if it is loaded there. -/
def Library.globalsOn (l : Library) (n : Nat) : List Nat := Image.globals ((l.table.target? n).getD [])

theorem Library.isLoaded_of_mem_globalsOn {l : Library} {n addr : Nat} (h : addr ∈ l.globalsOn n) :
    l.table.isLoaded n = true := by
  rw [globalsOn] at h
  rw [SymbolTable.isLoaded]
  cases target : l.table.target? n with
  | none =>
      rw [target] at h
      cases h
  | some symbols => rfl

/-- An attempt to load a library on a device. -/
structure LoadAttempt where
  /-- The position of the device. -/
  device : Nat
  /-- Whether the attempt succeeded. -/
  succeeded : Bool
  /-- The blocks that the device was given for global variables. -/
  placed : List Nat

/-- The blocks that failed attempts left on a device. -/
def LoadAttempt.stranded (attempts : List LoadAttempt) (dev : Nat) : List Nat :=
  (attempts.filter fun a => a.device == dev && !a.succeeded).flatMap LoadAttempt.placed

namespace LoadAttempt

variable {attempts : List LoadAttempt} {a : LoadAttempt} {dev : Nat}

theorem stranded_append (h : a.device = dev → a.succeeded = true) :
    stranded (attempts ++ [a]) dev = stranded attempts dev := by
  rw [stranded, List.filter_append, List.flatMap_append, List.filter_cons]
  by_cases here : a.device = dev
  · simp [here, h here, stranded]
  · simp [here, stranded]

theorem stranded_append_failed (device : a.device = dev) (failed : a.succeeded = false) :
    stranded (attempts ++ [a]) dev = stranded attempts dev ++ a.placed := by
  simp [stranded, List.filter_append, device, failed]

theorem mem_stranded {addr : Nat} :
    addr ∈ stranded attempts dev ↔
      ∃ a ∈ attempts, a.device = dev ∧ a.succeeded = false ∧ addr ∈ a.placed := by
  simp only [stranded, List.mem_flatMap, List.mem_filter, Bool.and_eq_true, beq_iff_eq,
    Bool.not_eq_true', and_assoc]

end LoadAttempt

namespace Link

variable {l l' : Link} {dev : Nat} {blocks blocks' : List Nat}

/-- The device at a position was given these blocks for global variables, each of them once. -/
structure Given (l : Link) (dev : Nat) (blocks : List Nat) : Prop where
  id : l.device.id = dev
  stacked : l.Stacked
  placed : l.placed.Perm blocks

theorem Given.placesNothing (h : l.Given dev blocks) (same : l.PlacesNothing l') :
    l'.Given dev blocks :=
  ⟨same.id.trans h.id, same.stacked h.stacked, same.placed ▸ h.placed⟩

theorem Given.perm (h : l.Given dev blocks) (perm : blocks.Perm blocks') : l.Given dev blocks' :=
  ⟨h.id, h.stacked, h.placed.trans perm⟩

/-- Whether an image could be loaded or not, the device is given the blocks that were placed. -/
theorem Given.load (h : l.Given dev blocks) {image : Image} {r : Except AcceleratorError Image}
    {a : Accelerator} (ran : exec (Accelerator.load l.device.unit image) l.accelerator = (r, a)) :
    Given { l with accelerator := a } dev
      (blocks ++ (a.placed l.device.unit).drop l.placed.length) := by
  obtain rfl : _ = a := congrArg Prod.snd ran
  refine ⟨h.id, Accelerator.stacked_load l.accelerator h.stacked, ?_⟩
  obtain ⟨more, placed⟩ : l.placed <+:
    (exec (Accelerator.load l.device.unit image) l.accelerator).2.placed l.device.unit :=
      Accelerator.placed_prefix_load
  change (Accelerator.placed _ l.device.unit).Perm _
  rw [← placed, List.drop_left]
  exact h.placed.append_right more

end Link

namespace Platform

variable {pl pl' : Platform} {dev d n position : Nat} {l l' : Link} {library : Library}
  {libraries : List Library} {symbols : Image}

/-! ## Libraries and their blocks -/

/-- Where the global variables of the libraries lie that are loaded on the device of number `n`. -/
def globalsOn (libraries : List Library) (n : Nat) : List Nat :=
  libraries.flatMap fun l => l.globalsOn n

theorem globalsOn_loadedOn_ne (at_ : libraries[position]? = some library) (other : n ≠ d) :
    globalsOn (libraries.set position (library.loadedOn n symbols)) d = globalsOn libraries d := by
  have same : (library.loadedOn n symbols).globalsOn d = library.globalsOn d := by
    simp [Library.globalsOn, Library.loadedOn, SymbolTable.load, SymbolTable.target?,
      List.getElem?_set_ne other]
  have kept : (libraries.set position (library.loadedOn n symbols)).map (fun l => l.globalsOn d) =
      libraries.map fun l => l.globalsOn d := Accelerator.map_set_of_same at_ same
  rw [globalsOn, globalsOn, List.flatMap_def, List.flatMap_def, kept]

theorem globalsOn_loadedOn (inside : n < library.table.targets.length) :
    (library.loadedOn n symbols).globalsOn n = symbols.globals := by
  simp [Library.globalsOn, Library.loadedOn, SymbolTable.load, SymbolTable.target?, inside]

theorem globalsOn_waiting (waiting : library.table.isLoaded n = false) : library.globalsOn n = [] := by
  rw [SymbolTable.isLoaded, Option.isSome_eq_false_iff, Option.isNone_iff_eq_none] at waiting
  rw [Library.globalsOn, waiting]
  rfl

/-- A library that gets loaded brings its global variables. -/
theorem perm_globalsOn_set (at_ : libraries[position]? = some library)
    (inside : n < library.table.targets.length) (waiting : library.table.isLoaded n = false) :
    (globalsOn libraries n ++ symbols.globals).Perm
      (globalsOn (libraries.set position (library.loadedOn n symbols)) n) := by
  induction libraries generalizing position with
  | nil => cases at_
  | cons l rest ih =>
      cases position with
      | zero =>
          obtain rfl : l = library := by simpa using at_
          rw [List.set_cons_zero, globalsOn, globalsOn, List.flatMap_cons, List.flatMap_cons,
            globalsOn_loadedOn inside, globalsOn_waiting waiting, List.nil_append]
          exact List.perm_append_comm
      | succ position =>
          rw [List.set_cons_succ, globalsOn, globalsOn, List.flatMap_cons, List.flatMap_cons,
            List.append_assoc]
          exact (ih (by simpa using at_)).append_left _

/-! ## Steps that load nothing -/

/-- No library is loaded, and no device is given a block for a global variable. -/
structure LoadsNothing (pl pl' : Platform) : Prop where
  shelf : pl'.shelf = pl.shelf
  moves : pl.EachMoves Link.PlacesNothing pl'

instance : Lasting LoadsNothing where
  refl pl := ⟨rfl, Lasting.refl (R := EachMoves Link.PlacesNothing) pl⟩
  trans h h' := ⟨h'.shelf.trans h.shelf,
    Lasting.trans (R := EachMoves Link.PlacesNothing) h.moves h'.moves⟩

theorem loadsNothing_of_links (links : pl'.links = pl.links) (shelf : pl'.shelf = pl.shelf) :
    pl.LoadsNothing pl' := ⟨shelf, each_of_links links⟩

theorem loadsNothing_setLink (hl : pl.link? dev = some l) (alone : l.Alone l')
    (h : l.PlacesNothing l') : pl.LoadsNothing (pl.setLink dev l') :=
  ⟨shelf_of_entries entries_setLink,
    each_setLink (fun apart _ => Link.placesNothing_elsewhere apart) hl alone h⟩

theorem loadsNothing_onDevice {α : Type} {x : DeviceM α} (settles : Along Link.Settles x)
    (hx : Along Link.PlacesNothing x) : Along LoadsNothing (onDevice dev x) :=
  along_onDevice fun _ l hl => loadsNothing_setLink hl (settles l).toAlone (hx l)

theorem loadsNothing_prepare : Along LoadsNothing (onDevice dev Device.prepare) :=
  loadsNothing_onDevice Device.steps_settles.prepare Device.placesNothing_prepare

theorem loadsNothing_mapGlobals (symbols : List (Symbol × Symbol)) :
    Along LoadsNothing (mapGlobals dev symbols) :=
  along_mapGlobals fun _ _ _ =>
    loadsNothing_onDevice Device.steps_settles.mapGlobal fun l =>
      Link.placesNothing_of_aged (number_mapGlobal l) (Device.aged_mapGlobal l)
        (Device.steps_placed.mapGlobal l)

/-- The region of a constructor launches a kernel, which gives no block to a global variable. -/
theorem loadsNothing_runConstructor {hostAddr : Nat} :
    Along LoadsNothing (runConstructor dev hostAddr) := by
  refine along_runConstructor_nil (fun _ _ => loadsNothing_of_links rfl rfl) fun pl l entry hl => ?_
  let s := CallState.region { platform := pl } l
  have chain : Tenancy.Chain ⟨s.activation.link, []⟩
      ⟨(exec (Region.run pl.settings entry .single) s).2.activation.link, []⟩ := Region.chain_run rfl
  have moved : Step Link.Moved Anything s (exec (Region.run pl.settings entry .single) s).2 :=
    Region.step_run_nil Region.launches_moved rfl rfl
  have aged : Step Link.Aged Anything s (exec (Region.run pl.settings entry .single) s).2 :=
    Region.step_run_nil Region.launches_aged rfl rfl
  have placed := chain.link (R := Fixed Link.placed) fun deed => deed.along Device.steps_placed
  have alone := chain.link (R := Link.Alone) fun deed => deed.settles.toAlone
  have id : (exec (Region.run pl.settings entry .single) s).2.activation.link.device.id = l.device.id := by
    obtain ⟨_, _, device⟩ := moved.link.device
    rw [device]
    rfl
  exact Lasting.trans (R := LoadsNothing)
    (loadsNothing_setLink hl alone (Link.placesNothing_of_aged id aged.link placed))
    (loadsNothing_of_links rfl rfl)

/-! ## What attempts do -/

/-- The blocks that the device at a position was given for global variables. -/
def placedOn (pl : Platform) (dev : Nat) : List Nat := ((pl.link? dev).map Link.placed).getD []

theorem placedOn_of_link? (hl : pl.link? dev = some l) : pl.placedOn dev = l.placed := by
  rw [placedOn, hl]
  rfl

theorem LoadsNothing.placedOn (h : pl.LoadsNothing pl') (separate : pl.Separate) :
    pl'.placedOn dev = pl.placedOn dev := by
  have moved := (h.moves separate).link dev
  rw [Platform.placedOn, Platform.placedOn]
  cases hl' : pl'.link? dev with
  | none =>
      rw [hl'] at moved
      cases hl : pl.link? dev with
      | none => rfl
      | some l =>
          rw [hl] at moved
          cases moved
  | some l' =>
      obtain ⟨l, hl, same⟩ := exists_of_rel moved hl'
      rw [hl]
      exact same.placed

/-- The attempt to load the library at a position on a device. -/
def attempt (pl : Platform) (dev position : Nat) : LoadAttempt where
  device := dev
  succeeded := (exec (loadLibrary dev position) pl).1.isOk
  placed := ((exec (loadLibrary dev position) pl).2.placedOn dev).drop (pl.placedOn dev).length

/-- The attempts to load the libraries at the given positions, up to the first that fails. -/
def attempts (dev : Nat) : List Nat → Platform → List LoadAttempt
  | [], _ => []
  | position :: rest, pl =>
    pl.attempt dev position ::
      match exec (loadLibrary dev position) pl with
      | (.ok _, pl') => attempts dev rest pl'
      | (.error _, _) => []

/-- The attempts that a check of a device makes: none if the device cannot be prepared or no library
waits. -/
def checkAttempts (pl : Platform) (dev : Nat) : List LoadAttempt :=
  match exec (onDevice dev Device.prepare) pl with
  | (.error _, _) => []
  | (.ok _, pl') =>
    match pl'.link? dev with
    | none => []
    | some l =>
      if l.device.pending then attempts dev (List.range pl'.libraries.length) pl' else []

/-- Each device was given the blocks that are expected for it. -/
structure Gives (pl : Platform) (expected : Nat → List Nat) : Prop where
  separate : pl.Separate
  given : ∀ dev l, pl.link? dev = some l → l.Given dev (expected dev)

/-- What devices were given are the blocks of loaded libraries and those that failed attempts left. -/
structure Keeps (pl : Platform) (attempts : List LoadAttempt) : Prop where
  sized : ∀ library ∈ pl.libraries, Sized library
  gives : pl.Gives fun dev => globalsOn pl.libraries dev ++ LoadAttempt.stranded attempts dev

variable {expected expected' : Nat → List Nat} {all : List LoadAttempt}

theorem Gives.perm (h : pl.Gives expected) (perm : ∀ dev, (expected dev).Perm (expected' dev)) :
    pl.Gives expected' :=
  ⟨h.separate, fun dev l hl => (h.given dev l hl).perm (perm dev)⟩

theorem Gives.moves (h : pl.Gives expected) (moves : pl.EachMoves Link.PlacesNothing pl') :
    pl'.Gives expected := by
  have each := moves h.separate
  refine ⟨each.separate h.separate, fun dev l' hl' => ?_⟩
  obtain ⟨l, hl, same⟩ := each.exists_link hl'
  exact (h.given dev l hl).placesNothing same

section load

variable {image : Image} {r : Except AcceleratorError Image} {a : Accelerator}
  (hl : pl.link? dev = some l)
  (ran : exec (Accelerator.load l.device.unit image) l.accelerator = (r, a))

include hl ran

/-- Whether an image could be loaded or not, its device is given the blocks that were placed, and no
other device is given one. -/
theorem Gives.load (h : pl.Gives expected) :
    (pl.setLink dev { l with accelerator := a }).Gives
      (Function.update expected dev
        (expected dev ++ (a.placed l.device.unit).drop l.placed.length)) := by
  have alone : l.Alone { l with accelerator := a } := by
    obtain rfl : _ = a := congrArg Prod.snd ran
    exact Link.settles_load.toAlone
  constructor
  · rw [Separate, places_setLink hl alone.unit]
    exact h.separate
  · intro d k hk
    by_cases here : d = dev
    · subst here
      rw [link?_setLink hl, Option.some.injEq] at hk
      rw [Function.update_self, ← hk]
      exact (h.given d l hl).load ran
    · have moved := rel_setLink_other (R := Link.PlacesNothing)
        (fun apart _ => Link.placesNothing_elsewhere apart) h.separate hl alone here
      obtain ⟨n, hn, same⟩ := exists_of_rel moved hk
      rw [Function.update_of_ne here]
      exact (h.given d n hn).placesNothing same

/-- What follows after an image was loaded gives the device no more blocks. -/
theorem Gives.placedOn_load (h : pl.Gives expected)
    (rest : (pl.setLink dev { l with accelerator := a }).LoadsNothing pl') :
    pl'.placedOn dev = a.placed l.device.unit := by
  rw [rest.placedOn (h.load hl ran).separate, placedOn_of_link? (link?_setLink hl)]
  rfl

end load

theorem Keeps.loadsNothing (h : pl.Keeps all) (same : pl.LoadsNothing pl') : pl'.Keeps all := by
  obtain ⟨libraries, -⟩ := Prod.mk.inj same.shelf
  constructor
  · rw [libraries]
    exact h.sized
  · rw [libraries]
    exact h.gives.moves same.moves

/-- An attempt leaves nothing if it succeeded or was given no block. -/
theorem Keeps.append (h : pl.Keeps all) {a : LoadAttempt} (none : a.succeeded = true ∨ a.placed = []) :
    pl.Keeps (all ++ [a]) := by
  refine ⟨h.sized, h.gives.perm fun dev => List.Perm.append_left _ (List.Perm.of_eq ?_)⟩
  by_cases failed : a.device = dev ∧ a.succeeded = false
  · obtain ⟨device, failed⟩ := failed
    have empty := none.resolve_left (by simp [failed])
    rw [LoadAttempt.stranded_append_failed device failed, empty, List.append_nil]
  · refine (LoadAttempt.stranded_append fun device => ?_).symm
    simpa [device] using failed

/-- A failed attempt leaves the blocks that it was given. -/
theorem Keeps.failed (h : pl.Keeps all) (hl : pl.link? dev = some l) {image : Image}
    {r : Except AcceleratorError Image} {a : Accelerator}
    (ran : exec (Accelerator.load l.device.unit image) l.accelerator = (r, a))
    (rest : (pl.setLink dev { l with accelerator := a }).LoadsNothing pl') :
    pl'.Keeps (all ++ [⟨dev, false, (pl'.placedOn dev).drop l.placed.length⟩]) := by
  obtain ⟨libraries, -⟩ := Prod.mk.inj (rest.shelf.trans (shelf_of_entries entries_setLink))
  refine ⟨libraries ▸ h.sized, ((h.gives.load hl ran).moves rest.moves).perm fun d => List.Perm.of_eq ?_⟩
  rw [libraries, h.gives.placedOn_load hl ran rest]
  by_cases here : d = dev
  · subst here
    rw [Function.update_self, LoadAttempt.stranded_append_failed rfl rfl, List.append_assoc]
  · rw [Function.update_of_ne here, LoadAttempt.stranded_append fun device => absurd device.symm here]

/-- A library that was loaded has the blocks that were placed. -/
theorem Keeps.loaded (h : pl.Keeps all) (hl : pl.link? dev = some l) {image : Image} {a : Accelerator}
    {blocks : List Nat} (due : pl.Due position l.device.id library image)
    (ran : Returns (Accelerator.load l.device.unit image) l.accelerator symbols a)
    (rest : (pl.setLink dev { l with accelerator := a }).LoadsNothing pl') :
    Keeps { pl' with libraries := pl'.libraries.set position (library.loadedOn l.device.id symbols) }
      (all ++ [⟨dev, true, blocks⟩]) := by
  obtain ⟨libraries, -⟩ := Prod.mk.inj (rest.shelf.trans (shelf_of_entries entries_setLink))
  have id : l.device.id = dev := (h.gives.given dev l hl).id
  have sized := h.sized library (List.mem_of_getElem? due.at_)
  have some := Option.isSome_of_eq_some due.image
  have loads : LoadsTo l.device.id library (library.loadedOn l.device.id symbols) :=
    .inr ⟨due.waiting, isLoaded_loadedOn sized some, symbols, rfl⟩
  have placed : (a.placed l.device.unit).drop l.placed.length = symbols.globals := by
    rw [Accelerator.placed_of_load ran]
    exact List.drop_left
  have given := h.gives.load hl ran
  rw [placed] at given
  rw [libraries]
  refine Keeps.append ⟨fun other mem => ?_, ?_⟩ (.inl rfl)
  · rcases List.mem_or_eq_of_mem_set mem with old | rfl
    · exact h.sized other old
    · exact loads.sized sized
  · have moved : Gives { pl' with
        libraries := pl.libraries.set position (library.loadedOn l.device.id symbols) } _ :=
      (given.moves rest.moves).moves (each_of_links rfl)
    refine moved.perm fun d => ?_
    by_cases here : d = dev
    · -- The new blocks stand behind those that failed attempts left, and the library's come before.
      subst here
      rw [Function.update_self, ← id]
      refine List.Perm.trans ?_
        ((perm_globalsOn_set due.at_ (sized.inside some) due.waiting).append_right _)
      rw [List.append_assoc, List.append_assoc]
      exact List.perm_append_comm.append_left _
    · rw [Function.update_of_ne here, globalsOn_loadedOn_ne due.at_ (id ▸ Ne.symm here)]

/-- Each attempt is accounted for, however it ends. -/
theorem Keeps.attempt (h : pl.Keeps all) (dev position : Nat) :
    Keeps (exec (loadLibrary dev position) pl).2 (all ++ [pl.attempt dev position]) := by
  cases hl : pl.link? dev with
  | none =>
      rw [Platform.attempt, exec_loadLibrary_none hl]
      exact h.append (.inr (List.drop_length ..))
  | some l =>
      have run : LoadRun dev position l pl _ _ := loadRun_loadLibrary hl
      have mapped : ∀ a symbols, (pl.setLink dev { l with accelerator := a }).LoadsNothing
          (exec (mapGlobals dev symbols) (pl.setLink dev { l with accelerator := a })).2 :=
        fun a symbols => loadsNothing_mapGlobals symbols _
      rw [Platform.attempt, placedOn_of_link? hl]
      generalize (exec (loadLibrary dev position) pl).1 = r at run ⊢
      generalize (exec (loadLibrary dev position) pl).2 = pl₁ at run ⊢
      cases run with
      | skipped => exact h.append (.inl rfl)
      | refused library image a e due ran => exact h.failed hl ran (Lasting.refl _)
      | miscounted library image symbols a due ran length => exact h.failed hl ran (Lasting.refl _)
      | unmapped library image symbols a e pl' due ran length stopped =>
          have rest := mapped a (library.table.hostSymbols.zip symbols)
          rw [stopped] at rest
          exact h.failed hl ran rest
      | loaded library image symbols a pl' due ran length done =>
          have rest := mapped a (library.table.hostSymbols.zip symbols)
          rw [done] at rest
          exact h.loaded hl due ran rest

theorem Keeps.attempts (h : pl.Keeps all) (dev : Nat) (positions : List Nat) :
    Keeps (exec (loadLibraries dev positions) pl).2 (all ++ attempts dev positions pl) := by
  induction positions generalizing pl all with
  | nil =>
      rw [Platform.attempts, List.append_nil]
      exact h
  | cons position rest ih =>
      have first := h.attempt dev position
      rw [Platform.attempts]
      rcases ran : exec (loadLibrary dev position) pl with ⟨e | constructors, pl₁⟩
      · rw [ran] at first
        rw [loadLibraries, exec_bind_error ran]
        exact first
      · rw [ran] at first
        rw [exec_loadLibraries_cons ran, List.append_cons]
        exact ih first

/-- The attempts of a check are accounted for. -/
theorem Keeps.gather (h : pl.Keeps all) (dev : Nat) :
    Keeps (exec (gather dev) pl).2 (all ++ pl.checkAttempts dev) := by
  have prepared : Keeps (exec (onDevice dev Device.prepare) pl).2 all :=
    h.loadsNothing (loadsNothing_prepare pl)
  rw [Platform.gather, checkAttempts]
  rcases ran : exec (onDevice dev Device.prepare) pl with ⟨e | _, pl₁⟩
  · rw [ran] at prepared
    rw [exec_bind_error ran, List.append_nil]
    exact prepared
  · rw [ran] at prepared
    rw [exec_bind_ok ran]
    dsimp only
    cases hl : pl₁.link? dev with
    | none =>
        rw [exec_bind_error (exec_link_none hl), List.append_nil]
        exact prepared
    | some l =>
        rw [exec_bind_ok (exec_link hl)]
        dsimp only
        cases l.device.pending with
        | false =>
            rw [if_neg Bool.false_ne_true, if_neg Bool.false_ne_true, List.append_nil]
            exact prepared
        | true =>
            rw [if_pos rfl, if_pos rfl, exec_get_bind, exec_bind]
            have tried := prepared.attempts dev (List.range pl₁.libraries.length)
            rcases loaded : exec (loadLibraries dev (List.range pl₁.libraries.length)) pl₁ with
              ⟨e | _, pl₂⟩
            · rw [loaded] at tried
              exact tried
            · rw [loaded] at tried
              exact tried

/-! ## Any number of checks -/

variable {run : Nat → PlatformM Unit}

theorem loadsNothing_construct (constructors : ∀ c, Along LoadsNothing (run c))
    (due : Option (List Nat)) : Along LoadsNothing (construct dev run due) := by
  cases due with
  | none => exact Along.pure
  | some due =>
      refine (along_runConstructors (fun _ _ => loadsNothing_of_links rfl rfl) constructors due).bind
        fun _ => loadsNothing_onDevice ?_ fun _ => Link.placesNothing_flagged
      exact Device.steps_settles.modifyDevice (fun _ => rfl) fun _ => rfl

theorem Keeps.check (h : pl.Keeps all) (dev : Nat) (constructors : ∀ c, Along LoadsNothing (run c)) :
    Keeps (exec (checkReady dev run) pl).2 (all ++ pl.checkAttempts dev) := by
  have gathered := h.gather dev
  rw [exec_checkReady, exec_bind]
  rcases ran : exec (Platform.gather dev) pl with ⟨e | due, pl₁⟩
  · rw [ran] at gathered
    exact gathered
  · rw [ran] at gathered
    exact gathered.loadsNothing (loadsNothing_construct constructors due pl₁)

theorem Keeps.register (h : pl.Keeps all) (d : LibraryDescription) : (pl.register d).2.Keeps all := by
  have moved := h.gives.moves (each_register (fun _ => Link.placesNothing_flagged) d)
  refine ⟨fun library mem => ?_, moved.perm fun dev => ?_⟩
  · rcases List.mem_append.1 mem with old | new
    · exact h.sized library old
    · rw [List.mem_singleton.1 new]
      exact sized_ofDescription ..
  · have waiting := isLoaded_ofDescription (n := dev) d pl.listed
    have empty : Library.globalsOn ⟨pl.nextLibrary, .ofDescription d pl.listed, d.constructors⟩ dev = [] :=
      globalsOn_waiting waiting
    change List.Perm _ (globalsOn (pl.libraries ++ [_]) dev ++ _)
    rw [globalsOn, globalsOn, List.flatMap_append, List.flatMap_singleton, empty, List.append_nil]

theorem keeps_fresh (fresh : pl.Fresh) (unused : ∀ a ∈ pl.accelerators, a.services = []) :
    pl.Keeps [] := by
  have empty : pl.libraries = [] := by
    obtain ⟨config, accelerators, created, -⟩ := fresh
    obtain ⟨strategy, -, -, rfl⟩ := ofAccelerators_eq_ok created
    rfl
  refine ⟨fun library mem => ?_, fresh.separate, fun dev l hl => ?_⟩
  · rw [empty] at mem
    cases mem
  · obtain ⟨slot, -, -, ha⟩ := link?_eq_some_iff.1 hl
    have none : ∀ unit, l.accelerator.placed unit = [] := by
      intro unit
      rw [Accelerator.placed, Accelerator.servicesOf, unused _ (List.mem_of_getElem? ha)]
      rfl
    refine ⟨fresh.id_of_link? hl, ⟨?_, fun m _ addr mem => ?_⟩, ?_⟩
    · rw [none]
      exact List.Pairwise.nil
    · rw [none] at mem
      cases mem
    · rw [Link.placed, none, empty]
      exact List.Perm.refl []

/-- The attempts to load libraries that were made so far, oldest first, while libraries were registered,
devices were checked, and anything else was done that loads nothing. -/
inductive LoadHistory : Platform → List LoadAttempt → Prop where
  | fresh (pl : Platform) (fresh : pl.Fresh) (unused : ∀ a ∈ pl.accelerators, a.services = []) :
      LoadHistory pl []
  | register (pl : Platform) (all : List LoadAttempt) (before : LoadHistory pl all)
      (d : LibraryDescription) : LoadHistory (pl.register d).2 all
  | check (pl : Platform) (all : List LoadAttempt) (before : LoadHistory pl all) (dev : Nat)
      (run : Nat → PlatformM Unit) (constructors : ∀ c, Along LoadsNothing (run c)) :
      LoadHistory (exec (checkReady dev run) pl).2 (all ++ pl.checkAttempts dev)
  | elsewhere (pl pl' : Platform) (all : List LoadAttempt) (before : LoadHistory pl all)
      (same : pl.LoadsNothing pl') : LoadHistory pl' all

theorem LoadHistory.keeps (h : LoadHistory pl all) : pl.Keeps all := by
  induction h with
  | fresh pl fresh unused => exact keeps_fresh fresh unused
  | register pl all before d ih => exact ih.register d
  | check pl all before dev run constructors ih => exact ih.check dev constructors
  | elsewhere pl pl' all before same ih => exact ih.loadsNothing same

/-- Whatever is registered and however often devices are checked: a device was given the blocks of the
global variables of the libraries that are loaded on it and the blocks that failed attempts left, and no
block twice. So all of them belong to loaded libraries exactly if each failed attempt on the device failed
before it was given one. -/
theorem placed_loaded_iff (history : LoadHistory pl all) (hl : pl.link? dev = some l) :
    l.placed.Nodup ∧
      l.placed.Perm (globalsOn pl.libraries l.device.id ++ LoadAttempt.stranded all dev) ∧
      ((∀ addr ∈ l.placed, ∃ library ∈ pl.libraries,
          library.table.isLoaded l.device.id = true ∧ addr ∈ library.globalsOn l.device.id) ↔
        ∀ a ∈ all, a.device = dev → a.succeeded = false → a.placed = []) := by
  obtain ⟨id, stacked, perm⟩ := history.keeps.gives.given dev l hl
  rw [id]
  have once : (globalsOn pl.libraries dev ++ LoadAttempt.stranded all dev).Nodup :=
    perm.nodup_iff.1 stacked.nodup
  refine ⟨stacked.nodup, perm, fun loaded a ha device failed => ?_, fun none addr mem => ?_⟩
  · refine List.eq_nil_iff_forall_not_mem.2 fun addr mem => ?_
    have left := LoadAttempt.mem_stranded.2 ⟨a, ha, device, failed, mem⟩
    obtain ⟨library, hlibrary, -, own⟩ := loaded addr (perm.mem_iff.2 (List.mem_append_right _ left))
    exact (List.nodup_append.1 once).2.2 addr (List.mem_flatMap.2 ⟨library, hlibrary, own⟩) addr left rfl
  · rcases List.mem_append.1 (perm.mem_iff.1 mem) with own | left
    · obtain ⟨library, hlibrary, own⟩ := List.mem_flatMap.1 own
      exact ⟨library, hlibrary, Library.isLoaded_of_mem_globalsOn own, own⟩
    · obtain ⟨a, ha, device, failed, mem⟩ := LoadAttempt.mem_stranded.1 left
      rw [none a ha device failed] at mem
      cases mem

/-- A library with a global variable and a kernel that no accelerator knows. -/
def unknownKernel : LibraryDescription where
  hostSymbols := [⟨"count", 0x5000, 8⟩, ⟨"missing", 0x4000, 0⟩]
  images := [some [⟨"count", 0, 8⟩, ⟨"missing", 0, 0⟩]]

/-- The first check of a device found the library. -/
def triedOnce : Platform :=
  (exec (checkReady 0 (runConstructor 0)) (oneDevice.register unknownKernel).2).2

/-- The second one tried again. -/
def triedTwice : Platform := (exec (checkReady 0 (runConstructor 0)) triedOnce).2

/-- Each check leaves another block, though no library is loaded. -/
theorem placed_loaded_iff_triedTwice :
    let all := (oneDevice.register unknownKernel).2.checkAttempts 0 ++ triedOnce.checkAttempts 0
    ∃ l, (LoadHistory triedTwice all ∧ triedTwice.link? 0 = some l) ∧
      l.placed = [Accelerator.memoryBase, Accelerator.memoryBase + 128] ∧
      ¬ ∀ addr ∈ l.placed, ∃ library ∈ triedTwice.libraries,
        library.table.isLoaded l.device.id = true ∧ addr ∈ library.globalsOn l.device.id := by
  intro all
  have fresh : LoadHistory oneDevice [] :=
    .fresh oneDevice fresh_oneDevice fun a ha => by rw [List.mem_singleton.1 ha]; rfl
  have once : LoadHistory triedOnce ([] ++ (oneDevice.register unknownKernel).2.checkAttempts 0) :=
    .check _ [] (.register _ [] fresh unknownKernel) 0 _ fun _ => loadsNothing_runConstructor
  have history : LoadHistory triedTwice all :=
    .check _ _ once 0 _ fun _ => loadsNothing_runConstructor
  have attempts : all = [⟨0, false, [Accelerator.memoryBase]⟩,
      ⟨0, false, [Accelerator.memoryBase + 128]⟩] := by cbv
  have blocks : (triedTwice.link? 0).map Link.placed =
      some [Accelerator.memoryBase, Accelerator.memoryBase + 128] := by cbv
  obtain ⟨l, hl, placed⟩ := Option.map_eq_some_iff.1 blocks
  refine ⟨l, ⟨history, hl⟩, placed, fun loaded => ?_⟩
  have none := (placed_loaded_iff history hl).2.2.1 loaded ⟨0, false, [Accelerator.memoryBase]⟩
    (by rw [attempts]; exact List.mem_cons_self) rfl rfl
  cases none

end Platform

end Offloading
